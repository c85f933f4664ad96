import LibMctp.Lib.Reassembly
import Mathlib.Data.List.Chain
import Mathlib.Data.List.Induction

/-!
# Which fragments make a message

An assembly takes a list of fragments for a message if they are one first fragment, fragments of the
same size numbered on from it, and a last one that is no larger, and if they fit. Whatever else came
before does not matter, so that an assembly that started somewhere is what the fragments since the
latest first one make of it. A single fragment that completes no message is `Idle`, `Breaks` off
what is held, or adds to it.
-/

namespace Reassembly

open Fragment

variable {α ι κ : Type*} {m cap : Nat}

/-- One assembly, on a list of fragments. -/
def assemble (m cap : Nat) (fs : List (Frag α)) : Option (Partial α) :=
  fs.foldl (fun asm f => (step m cap asm f).1) none

theorem assemble_concat (fs : List (Frag α)) (f : Frag α) :
    assemble m cap (fs ++ [f]) = (step m cap (assemble m cap fs) f).1 := by
  rw [assemble, List.foldl_append]
  rfl

/-- The assembly of a key that every fragment carries. -/
theorem asm_run_of_key [DecidableEq κ] {key : ι → κ} {k : κ} {items : List (ι × Frag α)}
    (hkey : ∀ item ∈ items, key item.1 = k) :
    (run key m cap State.init items).asm k = assemble m cap (items.map Prod.snd) := by
  induction items using List.reverseRecOn with
  | nil => rfl
  | append_singleton items item ih =>
      have hitem := hkey item (List.mem_append_right _ List.mem_cons_self)
      have hrest := ih fun item' hitem' => hkey item' (List.mem_append_left _ hitem')
      rw [run_append, List.map_append, List.map_singleton, assemble_concat, ← hrest]
      dsimp only [run, List.foldl, machine]
      rw [hitem, Function.update_self]

/-- The start of a message: numbered on from the first fragment, of one size, and within the
capacity. -/
structure Underway (m cap : Nat) (f₀ : Frag α) (fs : List (Frag α)) : Prop where
  first : f₀.first = true ∧ f₀.last = false
  middle : ∀ f ∈ fs, f.first = false ∧ f.last = false
  seq : (f₀ :: fs).IsChain fun f f' => (f.seq + 1) % m = f'.seq
  size : ∀ f ∈ fs, f.payload.length = f₀.payload.length
  fits : ((f₀ :: fs).map fun f => f.payload.length).sum ≤ cap

/-- A whole message. -/
structure Whole (m cap : Nat) (f₀ : Frag α) (fs : List (Frag α)) (q : Frag α) : Prop where
  first : f₀.first = true ∧ f₀.last = false
  middle : ∀ f ∈ fs, f.first = false ∧ f.last = false
  last : q.first = false ∧ q.last = true
  seq : (f₀ :: fs ++ [q]).IsChain fun f f' => (f.seq + 1) % m = f'.seq
  size : ∀ f ∈ fs, f.payload.length = f₀.payload.length
  size_last : q.payload.length ≤ f₀.payload.length
  fits : ((f₀ :: fs ++ [q]).map fun f => f.payload.length).sum ≤ cap

/-- The data of fragments. -/
def payloads (fs : List (Frag α)) : List α := (fs.map fun f => f.payload).flatten

theorem length_payloads (fs : List (Frag α)) :
    (payloads fs).length = (fs.map fun f => f.payload.length).sum := by
  rw [payloads, List.length_flatten, List.map_map]
  rfl

theorem payloads_concat (fs : List (Frag α)) (f : Frag α) :
    payloads (fs ++ [f]) = payloads fs ++ f.payload := by
  simp [payloads]

/-- What an assembly holds after the start of a message. -/
def held (f₀ : Frag α) (fs : List (Frag α)) : Partial α where
  data := payloads (f₀ :: fs)
  seq := ((f₀ :: fs).getLast (List.cons_ne_nil _ _)).seq
  size := f₀.payload.length

section Underway

variable {f₀ f q : Frag α} {fs : List (Frag α)} {p : Partial α}

theorem held_nil (f : Frag α) : held f [] = ⟨f.payload, f.seq, f.payload.length⟩ := by
  simp [held, payloads]

theorem held_concat (f₀ : Frag α) (fs : List (Frag α)) (f : Frag α) :
    held f₀ (fs ++ [f]) = ⟨(held f₀ fs).data ++ f.payload, f.seq, (held f₀ fs).size⟩ := by
  have hdata : payloads (f₀ :: (fs ++ [f])) = payloads (f₀ :: fs) ++ f.payload :=
    payloads_concat (f₀ :: fs) f
  simp [held, hdata]

theorem isChain_concat (R : Frag α → Frag α → Prop) (f₀ : Frag α) (fs : List (Frag α))
    (f : Frag α) :
    (f₀ :: fs ++ [f]).IsChain R ↔
      (f₀ :: fs).IsChain R ∧ R ((f₀ :: fs).getLast (List.cons_ne_nil _ _)) f := by
  rw [List.isChain_append, List.getLast?_eq_some_getLast (List.cons_ne_nil f₀ fs)]
  simp

theorem sum_concat (f₀ : Frag α) (fs : List (Frag α)) (f : Frag α) :
    ((f₀ :: fs ++ [f]).map fun f => f.payload.length).sum
      = (held f₀ fs).data.length + f.payload.length := by
  rw [← length_payloads, payloads_concat, List.length_append]
  rfl

theorem underway_nil (hfirst : f.first = true) (hlast : f.last = false) :
    Underway m cap f [] ↔ f.payload.length ≤ cap := by
  constructor
  · intro h
    simpa using h.fits
  · intro hfits
    exact ⟨⟨hfirst, hlast⟩, by simp, by simp, by simp, by simpa using hfits⟩

/-- One more fragment belongs to the start of a message if it goes on from what is held. -/
theorem underway_concat :
    Underway m cap f₀ (fs ++ [f]) ↔ Underway m cap f₀ fs ∧ (f.first = false ∧ f.last = false) ∧
      ((held f₀ fs).seq + 1) % m = f.seq ∧ (held f₀ fs).data.length + f.payload.length ≤ cap ∧
      f.payload.length = (held f₀ fs).size := by
  have hsum := sum_concat f₀ fs f
  have hheld : (held f₀ fs).data.length = ((f₀ :: fs).map fun f => f.payload.length).sum :=
    length_payloads _
  constructor
  · intro h
    obtain ⟨hchain, hnext⟩ := (isChain_concat _ f₀ fs f).mp h.seq
    have hfits := h.fits
    rw [← List.cons_append, hsum] at hfits
    refine ⟨⟨h.first, ?_, hchain, ?_, by omega⟩, ?_, hnext, hfits, ?_⟩
    · exact fun f' hf' => h.middle f' (List.mem_append_left _ hf')
    · exact fun f' hf' => h.size f' (List.mem_append_left _ hf')
    · exact h.middle f (List.mem_append_right _ List.mem_cons_self)
    · exact h.size f (List.mem_append_right _ List.mem_cons_self)
  · rintro ⟨h, hmiddle, hnext, hfits, hsize⟩
    refine ⟨h.first, ?_, (isChain_concat _ f₀ fs f).mpr ⟨h.seq, hnext⟩, ?_, ?_⟩
    · intro f' hf'
      obtain hold | hnew := List.mem_append.mp hf'
      · exact h.middle f' hold
      · rw [List.mem_singleton.mp hnew]
        exact hmiddle
    · intro f' hf'
      obtain hold | hnew := List.mem_append.mp hf'
      · exact h.size f' hold
      · rw [List.mem_singleton.mp hnew]
        exact hsize
    · rw [← List.cons_append, hsum]
      exact hfits

theorem whole_iff :
    Whole m cap f₀ fs q ↔ Underway m cap f₀ fs ∧ (q.first = false ∧ q.last = true) ∧
      ((held f₀ fs).seq + 1) % m = q.seq ∧ (held f₀ fs).data.length + q.payload.length ≤ cap ∧
      q.payload.length ≤ (held f₀ fs).size := by
  have hsum := sum_concat f₀ fs q
  have hheld : (held f₀ fs).data.length = ((f₀ :: fs).map fun f => f.payload.length).sum :=
    length_payloads _
  constructor
  · intro h
    obtain ⟨hchain, hnext⟩ := (isChain_concat _ f₀ fs q).mp h.seq
    have hfits := h.fits
    rw [hsum] at hfits
    exact ⟨⟨h.first, h.middle, hchain, h.size, by omega⟩, h.last, hnext, hfits, h.size_last⟩
  · rintro ⟨h, hlast, hnext, hfits, hsize⟩
    refine ⟨h.first, h.middle, hlast, (isChain_concat _ f₀ fs q).mpr ⟨h.seq, hnext⟩,
      h.size, hsize, ?_⟩
    rw [hsum]
    exact hfits

end Underway

/-! ### What is under way -/

section Assemble

variable {f : Frag α} {fs : List (Frag α)} {p p' : Partial α}

/-- The latest start of a message in a list of fragments. -/
def Started (m cap : Nat) (fs : List (Frag α)) (p : Partial α) : Prop :=
  ∃ pre f₀ mids, fs = pre ++ f₀ :: mids ∧ Underway m cap f₀ mids ∧ p = held f₀ mids

theorem started_concat :
    Started m cap (fs ++ [f]) p' ↔ Underway m cap f [] ∧ p' = held f [] ∨
      ∃ pre f₀ mids, fs = pre ++ f₀ :: mids ∧ Underway m cap f₀ (mids ++ [f]) ∧
        p' = held f₀ (mids ++ [f]) := by
  constructor
  · rintro ⟨pre, f₀, mids, hfs, hunder, hp⟩
    obtain rfl | ⟨mids', f', rfl⟩ := List.eq_nil_or_concat mids
    · obtain ⟨-, hf⟩ := List.append_inj' hfs rfl
      obtain rfl := List.singleton_inj.mp hf
      exact .inl ⟨hunder, hp⟩
    · rw [List.concat_eq_append] at hfs hunder hp
      rw [← List.cons_append, ← List.append_assoc] at hfs
      obtain ⟨hpre, hf⟩ := List.append_inj' hfs rfl
      obtain rfl := List.singleton_inj.mp hf
      exact .inr ⟨pre, f₀, mids', hpre, hunder, hp⟩
  · rintro (⟨hunder, hp⟩ | ⟨pre, f₀, mids, rfl, hunder, hp⟩)
    · exact ⟨fs, f, [], rfl, hunder, hp⟩
    · exact ⟨pre, f₀, mids ++ [f], by simp, hunder, hp⟩

theorem extend_eq_some :
    (extend m cap p f).1 = some p' ↔
      f.last = false ∧ (p.seq + 1) % m = f.seq ∧ p.data.length + f.payload.length ≤ cap ∧
      f.payload.length = p.size ∧ p' = ⟨p.data ++ f.payload, f.seq, p.size⟩ := by
  unfold extend
  by_cases hseq : (p.seq + 1) % m = f.seq
  · rw [if_neg (not_not.mpr hseq)]
    by_cases hfits : p.data.length + f.payload.length ≤ cap
    · rw [if_neg (by omega)]
      cases hlast : f.last with
      | true =>
          rw [if_pos rfl]
          split <;> simp
      | false =>
          rw [if_neg (by decide)]
          by_cases hsize : f.payload.length = p.size
          · rw [if_pos hsize]
            refine ⟨fun h => ⟨rfl, hseq, hfits, hsize, (Option.some.inj h).symm⟩, ?_⟩
            rintro ⟨-, -, -, -, rfl⟩
            rfl
          · rw [if_neg hsize]
            simp [hsize]
    · rw [if_pos (by omega)]
      simp [hfits]
  · rw [if_pos hseq]
    simp [hseq]

theorem extend_completes {q : Frag α} (hlast : q.last = true) {bytes : List α} :
    (extend m cap p q).2 = some bytes ↔
      (p.seq + 1) % m = q.seq ∧ p.data.length + q.payload.length ≤ cap ∧
      q.payload.length ≤ p.size ∧ bytes = p.data ++ q.payload := by
  unfold extend
  by_cases hseq : (p.seq + 1) % m = q.seq
  · rw [if_neg (not_not.mpr hseq)]
    by_cases hfits : p.data.length + q.payload.length ≤ cap
    · rw [if_neg (by omega), if_pos hlast]
      by_cases hsize : q.payload.length ≤ p.size
      · rw [if_pos hsize]
        simp [hseq, hfits, hsize, eq_comm]
      · rw [if_neg hsize]
        simp [hsize]
    · rw [if_pos (by omega)]
      simp [hfits]
  · rw [if_pos hseq]
    simp [hseq]

/-- A first fragment starts anew, whatever was under way. -/
theorem started_concat_first (hfirst : f.first = true) (hlast : f.last = false) :
    Started m cap (fs ++ [f]) p ↔ f.payload.length ≤ cap ∧ p = held f [] := by
  have hnot : ¬ ∃ pre f₀ mids, fs = pre ++ f₀ :: mids ∧ Underway m cap f₀ (mids ++ [f]) ∧
      p = held f₀ (mids ++ [f]) := by
    rintro ⟨pre, f₀, mids, -, hunder, -⟩
    have hmiddle := (underway_concat.mp hunder).2.1.1
    rw [hfirst] at hmiddle
    cases hmiddle
  rw [started_concat, or_iff_left hnot, underway_nil hfirst hlast]

/-- A later fragment goes on from what was started. -/
theorem started_concat_later (hfirst : f.first = false) :
    Started m cap (fs ++ [f]) p' ↔
      ∃ p, Started m cap fs p ∧ f.last = false ∧ (p.seq + 1) % m = f.seq ∧
      p.data.length + f.payload.length ≤ cap ∧ f.payload.length = p.size ∧
      p' = ⟨p.data ++ f.payload, f.seq, p.size⟩ := by
  have hnot : ¬ (Underway m cap f [] ∧ p' = held f []) := by
    rintro ⟨hunder, -⟩
    have hstart := hunder.first.1
    rw [hfirst] at hstart
    cases hstart
  rw [started_concat, or_iff_right hnot]
  constructor
  · rintro ⟨pre, f₀, mids, hfs, hunder, rfl⟩
    obtain ⟨hunder', ⟨-, hlast⟩, hseq, hfits, hsize⟩ := underway_concat.mp hunder
    rw [held_concat]
    exact ⟨held f₀ mids, ⟨pre, f₀, mids, hfs, hunder', rfl⟩, hlast, hseq, hfits, hsize, rfl⟩
  · rintro ⟨p, ⟨pre, f₀, mids, hfs, hunder, rfl⟩, hlast, hseq, hfits, hsize, rfl⟩
    refine ⟨pre, f₀, mids, hfs, underway_concat.mpr ⟨hunder, ⟨hfirst, hlast⟩, hseq, hfits, hsize⟩,
      ?_⟩
    rw [held_concat]

/-- **What an assembly holds is the latest start of a message.** -/
theorem assemble_eq_some (hsingle : ∀ f ∈ fs, ¬ (f.first = true ∧ f.last = true)) :
    assemble m cap fs = some p ↔ Started m cap fs p := by
  induction fs using List.reverseRecOn generalizing p with
  | nil =>
      refine ⟨fun h => (by cases h), ?_⟩
      rintro ⟨pre, f₀, mids, hfs, -⟩
      exact absurd hfs (by simp)
  | append_singleton fs f ih =>
      have hrest : ∀ p, assemble m cap fs = some p ↔ Started m cap fs p := fun p =>
        ih fun f' hf' => hsingle f' (List.mem_append_left _ hf')
      have hf := hsingle f (List.mem_append_right _ List.mem_cons_self)
      rw [assemble_concat]
      unfold step
      cases hfirst : f.first with
      | true =>
          have hlast : f.last = false := by
            rw [← Bool.not_eq_true]
            exact fun hlast => hf ⟨hfirst, hlast⟩
          rw [if_pos rfl, hlast, if_neg (by decide), started_concat_first hfirst hlast,
            held_nil, begin]
          by_cases hfits : f.payload.length ≤ cap
          · rw [if_pos hfits]
            simp [hfits, eq_comm]
          · rw [if_neg hfits]
            simp [hfits]
      | false =>
          rw [if_neg (by decide), started_concat_later hfirst]
          cases hasm : assemble m cap fs with
          | none =>
              refine ⟨fun h => (by cases h), ?_⟩
              rintro ⟨p₁, hstarted, -⟩
              rw [← hrest, hasm] at hstarted
              cases hstarted
          | some p₁ =>
              dsimp only
              rw [extend_eq_some]
              constructor
              · exact fun h => ⟨p₁, (hrest p₁).mp hasm, h⟩
              · rintro ⟨p₂, hstarted, h⟩
                rw [← hrest, hasm] at hstarted
                rw [Option.some.inj hstarted]
                exact h

/-- **A last fragment completes a message exactly if it ends a whole one**, and the message is what
the fragments carried. -/
theorem step_assemble_iff {q : Frag α} (hsingle : ∀ f ∈ fs, ¬ (f.first = true ∧ f.last = true))
    (hq : q.first = false ∧ q.last = true) (bytes : List α) :
    (step m cap (assemble m cap fs) q).2 = some bytes ↔
      ∃ pre f₀ mids, fs = pre ++ f₀ :: mids ∧ Whole m cap f₀ mids q ∧
        bytes = payloads (f₀ :: mids ++ [q]) := by
  obtain ⟨hfirst, hlast⟩ := hq
  unfold step
  rw [if_neg (by rw [hfirst]; decide)]
  cases hasm : assemble m cap fs with
  | none =>
      refine ⟨fun h => (by cases h), ?_⟩
      rintro ⟨pre, f₀, mids, hfs, hwhole, -⟩
      have hsome :=
        (assemble_eq_some hsingle).mpr ⟨pre, f₀, mids, hfs, (whole_iff.mp hwhole).1, rfl⟩
      rw [hasm] at hsome
      cases hsome
  | some p =>
      dsimp only
      rw [extend_completes hlast]
      constructor
      · rintro ⟨hseq, hfits, hsize, rfl⟩
        obtain ⟨pre, f₀, mids, hfs, hunder, rfl⟩ := (assemble_eq_some hsingle).mp hasm
        refine ⟨pre, f₀, mids, hfs, whole_iff.mpr ⟨hunder, ⟨hfirst, hlast⟩, hseq, hfits, hsize⟩, ?_⟩
        rw [payloads_concat]
        rfl
      · rintro ⟨pre, f₀, mids, hfs, hwhole, rfl⟩
        obtain ⟨hunder, -, hseq, hfits, hsize⟩ := whole_iff.mp hwhole
        have hsome := (assemble_eq_some hsingle).mpr ⟨pre, f₀, mids, hfs, hunder, rfl⟩
        rw [hasm] at hsome
        rw [Option.some.inj hsome, payloads_concat]
        exact ⟨hseq, hfits, hsize, rfl⟩

end Assemble

/-! ### What one fragment changes -/

/-- The fragment changes nothing and completes nothing: a first one that does not fit, or is what is
held already, or a later one with nothing under way. -/
def Idle (cap : Nat) (asm : Option (Partial α)) (f : Frag α) : Prop :=
  f.first = true ∧ f.last = false ∧
      (asm = none ∧ cap < f.payload.length ∨ asm = some ⟨f.payload, f.seq, f.payload.length⟩ ∧
        f.payload.length ≤ cap) ∨
    f.first = false ∧ asm = none

/-- The fragment does not go on from what is held. -/
def Breaks (m cap : Nat) (p : Partial α) (f : Frag α) : Prop :=
  f.first = true ∧ f.last = false ∧ cap < f.payload.length ∨
    f.first = false ∧ ((p.seq + 1) % m ≠ f.seq ∨ cap < p.data.length + f.payload.length ∨
      f.last = true ∧ p.size < f.payload.length ∨ f.last = false ∧ f.payload.length ≠ p.size)

section Change

variable {asm : Option (Partial α)} {p : Partial α} {f : Frag α}

theorem mod_succ_ne (hm : 2 ≤ m) (n : Nat) : (n + 1) % m ≠ n := by
  intro h
  have hlt : n < m := by
    rw [← h]
    exact Nat.mod_lt _ (by omega)
  by_cases hn : n + 1 = m
  · rw [hn, Nat.mod_self] at h
    omega
  · rw [Nat.mod_eq_of_lt (by omega)] at h
    omega

theorem extend_eq_none :
    extend m cap p f = (none, none) ↔
      (p.seq + 1) % m ≠ f.seq ∨ cap < p.data.length + f.payload.length ∨
    f.last = true ∧ p.size < f.payload.length ∨ f.last = false ∧ f.payload.length ≠ p.size := by
  unfold extend
  by_cases hseq : (p.seq + 1) % m = f.seq
  · rw [if_neg (not_not.mpr hseq)]
    by_cases hfits : p.data.length + f.payload.length ≤ cap
    · rw [if_neg (by omega)]
      cases hlast : f.last with
      | true =>
          rw [if_pos rfl]
          by_cases hsize : f.payload.length ≤ p.size
          · rw [if_pos hsize]
            simp [hseq, hfits, hsize]
          · rw [if_neg hsize]
            simp [Nat.lt_of_not_le hsize]
      | false =>
          rw [if_neg (by decide)]
          by_cases hsize : f.payload.length = p.size
          · rw [if_pos hsize]
            simp [hseq, ← hsize, hfits]
          · rw [if_neg hsize]
            simp [hsize]
    · rw [if_pos (by omega)]
      simp [Nat.lt_of_not_le hfits]
  · rw [if_pos hseq]
    simp [hseq]

theorem step_eq_none_iff : step m cap (some p) f = (none, none) ↔ Breaks m cap p f := by
  unfold step Breaks
  cases hfirst : f.first with
  | true =>
      rw [if_pos rfl]
      cases hlast : f.last with
      | true =>
          rw [if_pos rfl]
          simp
      | false =>
          rw [if_neg (by decide), begin]
          by_cases hfits : f.payload.length ≤ cap
          · rw [if_pos hfits]
            simp [hfits]
          · rw [if_neg hfits]
            simp [Nat.lt_of_not_le hfits]
  | false =>
      rw [if_neg (by decide)]
      dsimp only
      rw [extend_eq_none]
      simp

theorem extend_ne_self (hm : 2 ≤ m) (cap : Nat) (p : Partial α) (f : Frag α) :
    (extend m cap p f).1 ≠ some p := by
  rw [Ne, extend_eq_some]
  rintro ⟨-, hseq, -, -, hp⟩
  have hkeep : p.seq = f.seq := by
    rw [hp]
  rw [← hkeep] at hseq
  exact mod_succ_ne hm _ hseq

theorem step_eq_self_iff (hm : 2 ≤ m) : step m cap asm f = (asm, none) ↔ Idle cap asm f := by
  unfold step Idle
  cases hfirst : f.first with
  | true =>
      rw [if_pos rfl]
      cases hlast : f.last with
      | true =>
          rw [if_pos rfl]
          simp
      | false =>
          rw [if_neg (by decide), begin]
          by_cases hfits : f.payload.length ≤ cap
          · rw [if_pos hfits]
            simp [hfits, eq_comm]
          · rw [if_neg hfits]
            simp [hfits, eq_comm]
            omega
  | false =>
      rw [if_neg (by decide)]
      cases asm with
      | none => simp
      | some p =>
          have hne := extend_ne_self hm cap p f
          refine ⟨fun h => ?_, fun h => ?_⟩
          · dsimp only at h
            rw [h] at hne
            exact absurd rfl hne
          · simp at h

/-- A fragment in the middle that does go on from what is held is added to it. -/
theorem step_middle (hfirst : f.first = false) (hlast : f.last = false) (h : ¬ Breaks m cap p f) :
    step m cap (some p) f = (some ⟨p.data ++ f.payload, f.seq, p.size⟩, none) := by
  have hgoes : (p.seq + 1) % m = f.seq ∧ p.data.length + f.payload.length ≤ cap ∧
      f.payload.length = p.size := by
    refine ⟨?_, ?_, ?_⟩
    · by_contra hseq
      exact h (.inr ⟨hfirst, .inl hseq⟩)
    · by_contra hfits
      exact h (.inr ⟨hfirst, .inr (.inl (by omega))⟩)
    · by_contra hsize
      exact h (.inr ⟨hfirst, .inr (.inr (.inr ⟨hlast, hsize⟩))⟩)
  refine Prod.ext ?_ (step_of_not_last hlast)
  unfold step
  rw [if_neg (by rw [hfirst]; decide)]
  exact extend_eq_some.mpr ⟨hlast, hgoes.1, hgoes.2.1, hgoes.2.2, rfl⟩

end Change

end Reassembly
