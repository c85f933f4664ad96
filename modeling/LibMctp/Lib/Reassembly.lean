import LibMctp.Lib.Fragment
import Mathlib.Algebra.Order.Ring.Nat
import Mathlib.Data.List.Sublists
import Mathlib.Logic.Function.Basic

/-!
# Assembling messages from fragments

`step` is one assembly: a first fragment starts it over, a later one must carry the next number and
the size of the first, and anything else ends it without a message. A message of one fragment passes
an assembly by and leaves it as it is. `machine` runs one assembly for each key side by side.

A receiver may also fail to find room for a first fragment, and then goes on as if it had not come;
`Skips` says which fragments that can be.
-/

namespace Reassembly

open Fragment

variable {α ι κ : Type*}

structure Partial (α : Type*) where
  data : List α
  seq : Nat
  size : Nat
  deriving DecidableEq, Repr

/-- Start over at a first fragment. -/
def begin (cap : Nat) (f : Frag α) : Option (Partial α) :=
  if f.payload.length ≤ cap then some ⟨f.payload, f.seq, f.payload.length⟩ else none

/-- Add a later fragment: the assembly after it, and the message if it was the last. -/
def extend (m cap : Nat) (p : Partial α) (f : Frag α) : Option (Partial α) × Option (List α) :=
  if (p.seq + 1) % m ≠ f.seq then (none, none)
  else if p.data.length + f.payload.length > cap then (none, none)
  else if f.last then
    if f.payload.length ≤ p.size then (none, some (p.data ++ f.payload)) else (none, none)
  else if f.payload.length = p.size then (some ⟨p.data ++ f.payload, f.seq, p.size⟩, none)
  else (none, none)

def step (m cap : Nat) (asm : Option (Partial α)) (f : Frag α) :
    Option (Partial α) × Option (List α) :=
  if f.first then
    if f.last then (asm, some f.payload) else (begin cap f, none)
  else match asm with
    | none => (none, none)
    | some p => extend m cap p f

/-- What a receiver short of memory may do instead of `step`: pass over a message of one fragment,
or over the first fragment of a message that none precedes. -/
def Skips (asm : Option (Partial α)) (f : Frag α) : Prop :=
  f.first = true ∧ (f.last = true ∨ asm = none)

/-! ### Where data comes from -/

/-- The fragments `sub`, in the order they came, hold the data: all of them carry the key, and the
first is a first fragment. -/
structure Sources (key : ι → κ) (items : List (ι × Frag α)) (k : κ) (data : List α)
    (sub : List (ι × Frag α)) : Prop where
  sublist : sub.Sublist items
  keys : ∀ item ∈ sub, key item.1 = k
  first : ∃ item rest, sub = item :: rest ∧ item.2.first = true
  data : (sub.map fun item => item.2.payload).flatten = data

section Sources

variable {key : ι → κ} {items : List (ι × Frag α)} {item : ι × Frag α} {k : κ} {data : List α}
  {sub : List (ι × Frag α)}

theorem Sources.mono (h : Sources key items k data sub) :
    Sources key (items ++ [item]) k data sub :=
  ⟨h.sublist.trans (List.sublist_append_left _ _), h.keys, h.first, h.data⟩

theorem sources_single (hfirst : item.2.first = true) :
    Sources key (items ++ [item]) (key item.1) item.2.payload [item] :=
  ⟨List.sublist_append_right _ _, by simp, ⟨item, [], rfl, hfirst⟩, by simp⟩

theorem Sources.concat (h : Sources key items (key item.1) data sub) :
    Sources key (items ++ [item]) (key item.1) (data ++ item.2.payload) (sub ++ [item]) := by
  obtain ⟨head, rest, hsub, hfirst⟩ := h.first
  refine ⟨h.sublist.append (List.Sublist.refl _), ?_,
    ⟨head, rest ++ [item], by rw [hsub]; rfl, hfirst⟩, ?_⟩
  · intro item' hitem'
    cases List.mem_append.mp hitem' with
    | inl hmem => exact h.keys item' hmem
    | inr hmem => rw [List.mem_singleton.mp hmem]
  · rw [List.map_append, List.flatten_append, h.data]
    simp

end Sources

/-- What a step leaves under way is what was, or the fragment, or both, and so is the message it
completes. -/
theorem step_data (m cap : Nat) (asm : Option (Partial α)) (f : Frag α) :
    (∀ p', (step m cap asm f).1 = some p' → asm = some p' ∨ f.first = true ∧ p'.data = f.payload ∨
      ∃ p, asm = some p ∧ p'.data = p.data ++ f.payload) ∧
    ∀ bytes, (step m cap asm f).2 = some bytes → f.first = true ∧ bytes = f.payload ∨
      ∃ p, asm = some p ∧ bytes = p.data ++ f.payload := by
  unfold step
  split
  · rename_i hfirst
    split
    · exact ⟨fun p' h => .inl h, fun bytes h => .inl ⟨hfirst, (Option.some.inj h).symm⟩⟩
    · refine ⟨fun p' h => .inr (.inl ⟨hfirst, ?_⟩), fun bytes h => by cases h⟩
      unfold begin at h
      split at h
      · rw [← Option.some.inj h]
      · cases h
  · cases asm with
    | none => exact ⟨fun p' h => .inl h, fun bytes h => by cases h⟩
    | some p =>
        dsimp only [extend]
        refine ⟨fun p' h => .inr (.inr ⟨p, rfl, ?_⟩), fun bytes h => .inr ⟨p, rfl, ?_⟩⟩
        all_goals split_ifs at h
        · rw [← Option.some.inj h]
        · exact (Option.some.inj h).symm

theorem step_of_not_last {m cap : Nat} {asm : Option (Partial α)} {f : Frag α}
    (hlast : f.last = false) :
    (step m cap asm f).2 = none := by
  unfold step
  rw [hlast]
  split
  · rfl
  · cases asm with
    | none => rfl
    | some p =>
        dsimp only [extend]
        rw [hlast]
        by_cases hseq : (p.seq + 1) % m ≠ f.seq
        · rw [if_pos hseq]
        · rw [if_neg hseq]
          by_cases hcap : p.data.length + f.payload.length > cap
          · rw [if_pos hcap]
          · rw [if_neg hcap, if_neg (by decide)]
            by_cases hsize : f.payload.length = p.size
            · rw [if_pos hsize]
            · rw [if_neg hsize]

/-! ### One assembly for each key -/

section Machine

variable [DecidableEq κ] (key : ι → κ) (m cap : Nat)

/-- The assemblies under way, and the messages complete so far with the label of their last
fragment. -/
structure State (α ι κ : Type*) where
  asm : κ → Option (Partial α)
  out : List (ι × List α)

def State.init : State α ι κ := ⟨fun _ => none, []⟩

def machine (st : State α ι κ) (item : ι × Frag α) : State α ι κ :=
  let r := step m cap (st.asm (key item.1)) item.2
  ⟨Function.update st.asm (key item.1) r.1, st.out ++ (r.2.map (Prod.mk item.1)).toList⟩

/-- The machine on a list of fragments. -/
def run (st : State α ι κ) (items : List (ι × Frag α)) : State α ι κ :=
  items.foldl (machine key m cap) st

variable {key m cap}

theorem run_append (st : State α ι κ) (items items' : List (ι × Frag α)) :
    run key m cap st (items ++ items') = run key m cap (run key m cap st items) items' :=
  List.foldl_append

/-- What came out before a run does not matter to it. -/
theorem run_eq (st : State α ι κ) (items : List (ι × Frag α)) :
    run key m cap st items
      = ⟨(run key m cap ⟨st.asm, []⟩ items).asm,
        st.out ++ (run key m cap ⟨st.asm, []⟩ items).out⟩ := by
  induction items using List.reverseRecOn with
  | nil =>
      dsimp only [run, List.foldl]
      rw [List.append_nil]
  | append_singleton items item ih =>
      rw [run_append, run_append, ih]
      dsimp only [run, List.foldl, machine]
      rw [List.append_assoc]

/-- What came out so far is where the output of the longer run starts. -/
theorem out_run_mono (st : State α ι κ) (items items' : List (ι × Frag α)) :
    (run key m cap st items).out <+: (run key m cap st (items ++ items')).out := by
  rw [run_append, run_eq _ items']
  exact List.prefix_append _ _

/-- A message comes out with the label of a fragment. -/
theorem label_of_mem_out {P : ι → Prop} {asm : κ → Option (Partial α)} (items : List (ι × Frag α))
    (hitems : ∀ item ∈ items, P item.1) : ∀ o ∈ (run key m cap ⟨asm, []⟩ items).out, P o.1 := by
  induction items using List.reverseRecOn with
  | nil => exact fun o ho => absurd ho List.not_mem_nil
  | append_singleton items item ih =>
      intro o ho
      rw [run_append] at ho
      cases List.mem_append.mp ho with
      | inl hold =>
          exact ih (fun item' hitem' => hitems item' (List.mem_append_left _ hitem')) o hold
      | inr hnew =>
          obtain ⟨bytes, _, rfl⟩ := Option.map_eq_some_iff.mp (Option.mem_toList.mp hnew)
          exact hitems item (List.mem_append_right _ List.mem_cons_self)

/-- An assembly is under way only for a key that a fragment carried. -/
theorem asm_run_of_ne {k : κ} (st : State α ι κ) (items : List (ι × Frag α))
    (hk : ∀ item ∈ items, key item.1 ≠ k) :
    (run key m cap st items).asm k = st.asm k := by
  induction items generalizing st with
  | nil => rfl
  | cons item items ih =>
      have hne := hk item List.mem_cons_self
      have hrest := ih (machine key m cap st item) fun item' hitem' =>
        hk item' (List.mem_cons_of_mem _ hitem')
      refine hrest.trans ?_
      exact Function.update_of_ne (Ne.symm hne) _ _

/-- **Keys do not mix.** What comes out for one key, and its assembly, depend only on the fragments
that carry it. -/
theorem run_filter (k : κ) (st st' : State α ι κ) (items : List (ι × Frag α))
    (hasm : st.asm k = st'.asm k)
    (hout : st.out.filter (fun o => key o.1 = k) = st'.out.filter (fun o => key o.1 = k)) :
    (run key m cap st items).asm k
      = (run key m cap st' (items.filter fun item => key item.1 = k)).asm k ∧
      (run key m cap st items).out.filter (fun o => key o.1 = k)
        = (run key m cap st' (items.filter fun item => key item.1 = k)).out.filter (fun o =>
          key o.1 = k) := by
  induction items generalizing st st' with
  | nil => exact ⟨hasm, hout⟩
  | cons item items ih =>
      by_cases hkey : key item.1 = k
      · rw [List.filter_cons_of_pos (by simpa using hkey)]
        refine ih (machine key m cap st item) (machine key m cap st' item) ?_ ?_
        · dsimp only [machine]
          rw [hkey, hasm, Function.update_self, Function.update_self]
        · dsimp only [machine]
          rw [List.filter_append, List.filter_append, hout, hkey, hasm]
      · rw [List.filter_cons_of_neg (by simpa using hkey)]
        refine ih (machine key m cap st item) st' ?_ ?_
        · rw [← hasm]
          exact Function.update_of_ne (Ne.symm hkey) _ _
        · have hnone : ∀ o : Option (List α),
              ((o.map (Prod.mk item.1)).toList).filter (fun o => decide (key o.1 = k)) = [] := by
            intro o
            cases o with
            | none => rfl
            | some xs => simp [hkey]
          dsimp only [machine]
          rw [List.filter_append, hnone, List.append_nil, hout]

/-- The rest of a message completes the assembly it belongs to. -/
theorem run_cut_rest {n : Nat} (hn : 0 < n) (l : ι) (xs : List α) :
    ∀ (s : Nat) (p : Partial α) (st : State α ι κ), st.asm (key l) = some p →
      (p.seq + 1) % m = s % m → p.size = n →
      p.data.length + xs.length ≤ cap →
      run key m cap st ((cut m n false s xs).map (Prod.mk l))
        = ⟨Function.update st.asm (key l) none, st.out ++ [(l, p.data ++ xs)]⟩ := by
  induction xs using chunk_induction hn with
  | hlast xs hle =>
      intro s p st hasm hseq hsize hcap
      have hstep : step m cap (st.asm (key l)) ⟨false, true, s % m, xs⟩
          = (none, some (p.data ++ xs)) := by
        rw [hasm]
        dsimp only [step, extend]
        rw [if_neg (by decide), if_neg (not_not.mpr hseq), if_neg (by omega), if_pos rfl,
          if_pos (by omega)]
      rw [cut_of_le hle]
      dsimp only [List.map, run, List.foldl, machine]
      rw [hstep]
      rfl
  | hmore xs hlt ih =>
      intro s p st hasm hseq hsize hcap
      have htake : (xs.take n).length = n := by
        rw [List.length_take]
        omega
      have hdrop : (xs.drop n).length = xs.length - n := List.length_drop
      have hstep : step m cap (st.asm (key l)) ⟨false, false, s % m, xs.take n⟩
          = (some ⟨p.data ++ xs.take n, s % m, p.size⟩, none) := by
        rw [hasm]
        dsimp only [step, extend]
        rw [if_neg (by decide), if_neg (not_not.mpr hseq), if_neg (by omega), if_neg (by decide),
          if_pos (by omega)]
      have hasm' : (machine key m cap st (l, ⟨false, false, s % m, xs.take n⟩)).asm (key l)
          = some ⟨p.data ++ xs.take n, s % m, p.size⟩ := by
        dsimp only [machine]
        rw [hstep, Function.update_self]
      rw [cut_of_lt hn hlt, List.map_cons]
      refine (ih (s + 1) _ _ hasm' (Nat.mod_add_mod s m 1) hsize ?_).trans ?_
      · rw [List.length_append]
        omega
      · dsimp only [machine]
        rw [hstep, Function.update_idem, List.append_assoc p.data, List.take_append_drop]
        simp

/-- A whole message comes out of an assembly that nothing was under way in, and leaves none. Only a
message of several fragments must fit the capacity. -/
theorem run_cut {n : Nat} (hn : 0 < n) (l : ι) (xs : List α) (s : Nat) (st : State α ι κ)
    (hasm : st.asm (key l) = none) (hcap : n < xs.length → xs.length ≤ cap) :
    run key m cap st ((cut m n true s xs).map (Prod.mk l)) = ⟨st.asm, st.out ++ [(l, xs)]⟩ := by
  have hclear : Function.update st.asm (key l) none = st.asm := by
    rw [← hasm]
    exact Function.update_eq_self _ _
  by_cases hle : xs.length ≤ n
  · rw [cut_of_le hle]
    dsimp only [List.map, run, List.foldl, machine, step]
    rw [if_pos rfl, if_pos rfl]
    dsimp only
    rw [Function.update_eq_self]
    rfl
  · have hlt : n < xs.length := by omega
    have hfits := hcap hlt
    have htake : (xs.take n).length = n := by
      rw [List.length_take]
      omega
    have hstep : step m cap (st.asm (key l)) ⟨true, false, s % m, xs.take n⟩
        = (some ⟨xs.take n, s % m, n⟩, none) := by
      dsimp only [step, begin]
      rw [if_pos rfl, if_neg (by decide), if_pos (by omega), htake]
    have hasm' : (machine key m cap st (l, ⟨true, false, s % m, xs.take n⟩)).asm (key l)
        = some ⟨xs.take n, s % m, n⟩ := by
      dsimp only [machine]
      rw [hstep, Function.update_self]
    rw [cut_of_lt hn hlt, List.map_cons]
    refine (run_cut_rest hn l (xs.drop n) (s + 1) _ _ hasm' (Nat.mod_add_mod s m 1) rfl ?_).trans ?_
    · dsimp only
      rw [htake, List.length_drop]
      omega
    · dsimp only [machine]
      rw [hstep, Function.update_idem, hclear, List.take_append_drop]
      simp

/-- Nothing comes out of the rest of a message whose start was dropped. -/
theorem out_run_cut_none {n : Nat} (hn : 0 < n) (l : ι) (xs : List α) :
    ∀ (s : Nat) (st : State α ι κ), st.asm (key l) = none →
      (run key m cap st ((cut m n false s xs).map (Prod.mk l))).out = st.out := by
  have hstep : ∀ (st : State α ι κ) (last : Bool) (s : Nat) (payload : List α), st.asm (key l)
    = none →
      machine key m cap st (l, ⟨false, last, s, payload⟩) = st := by
    intro st last s payload hasm
    dsimp only [machine]
    rw [hasm]
    dsimp only [step]
    rw [if_neg (by decide), ← hasm, Function.update_eq_self]
    simp
  induction xs using chunk_induction hn with
  | hlast xs hle =>
      intro s st hasm
      rw [cut_of_le hle]
      dsimp only [List.map, run, List.foldl]
      rw [hstep st true _ xs hasm]
  | hmore xs hlt ih =>
      intro s st hasm
      rw [cut_of_lt hn hlt]
      dsimp only [List.map, run, List.foldl]
      rw [hstep st false _ _ hasm]
      exact ih (s + 1) st hasm

/-- Nothing comes out of the rest of a message that does not fit. -/
theorem out_run_cut_over {n : Nat} (hn : 0 < n) (l : ι) (xs : List α) :
    ∀ (s : Nat) (p : Partial α) (st : State α ι κ), st.asm (key l) = some p →
      (p.seq + 1) % m = s % m → p.size = n →
      cap < p.data.length + xs.length →
      (run key m cap st ((cut m n false s xs).map (Prod.mk l))).out = st.out := by
  induction xs using chunk_induction hn with
  | hlast xs hle =>
      intro s p st hasm hseq hsize hcap
      have hstep : step m cap (st.asm (key l)) ⟨false, true, s % m, xs⟩ = (none, none) := by
        rw [hasm]
        dsimp only [step, extend]
        rw [if_neg (by decide), if_neg (not_not.mpr hseq), if_pos hcap]
      rw [cut_of_le hle]
      dsimp only [List.map, run, List.foldl, machine]
      rw [hstep]
      exact List.append_nil _
  | hmore xs hlt ih =>
      intro s p st hasm hseq hsize hcap
      have htake : (xs.take n).length = n := by
        rw [List.length_take]
        omega
      have hdrop : (xs.drop n).length = xs.length - n := List.length_drop
      rw [cut_of_lt hn hlt, List.map_cons]
      by_cases hfits : p.data.length + n ≤ cap
      · have hstep : step m cap (st.asm (key l)) ⟨false, false, s % m, xs.take n⟩
            = (some ⟨p.data ++ xs.take n, s % m, p.size⟩, none) := by
          rw [hasm]
          dsimp only [step, extend]
          rw [if_neg (by decide), if_neg (not_not.mpr hseq), if_neg (by omega), if_neg (by decide),
            if_pos (by omega)]
        have hasm' : (machine key m cap st (l, ⟨false, false, s % m, xs.take n⟩)).asm (key l)
            = some ⟨p.data ++ xs.take n, s % m, p.size⟩ := by
          dsimp only [machine]
          rw [hstep, Function.update_self]
        refine (ih (s + 1) _ _ hasm' (Nat.mod_add_mod s m 1) hsize ?_).trans ?_
        · rw [List.length_append]
          omega
        · dsimp only [machine]
          rw [hstep]
          exact List.append_nil _
      · have hstep : step m cap (st.asm (key l)) ⟨false, false, s % m, xs.take n⟩
            = (none, none) := by
          rw [hasm]
          dsimp only [step, extend]
          rw [if_neg (by decide), if_neg (not_not.mpr hseq), if_pos (by omega)]
        have hasm' : (machine key m cap st (l, ⟨false, false, s % m, xs.take n⟩)).asm (key l)
            = none := by
          dsimp only [machine]
          rw [hstep, Function.update_self]
        refine (out_run_cut_none hn l (xs.drop n) (s + 1) _ hasm').trans ?_
        dsimp only [machine]
        rw [hstep]
        exact List.append_nil _

/-- What comes out for one message, whatever was under way: a message of one fragment in any case,
and a longer one where it fits. -/
theorem out_run_cut {n : Nat} (hn : 0 < n) (l : ι) (xs : List α) (s : Nat) (st : State α ι κ) :
    (run key m cap st ((cut m n true s xs).map (Prod.mk l))).out
      = st.out ++ if xs.length ≤ n ∨ xs.length ≤ cap then [(l, xs)] else [] := by
  by_cases hle : xs.length ≤ n
  · rw [if_pos (.inl hle), cut_of_le hle]
    dsimp only [List.map, run, List.foldl, machine, step]
    rw [if_pos rfl, if_pos rfl]
    rfl
  · have hlt : n < xs.length := by omega
    have htake : (xs.take n).length = n := by
      rw [List.length_take]
      omega
    have hdrop : (xs.drop n).length = xs.length - n := List.length_drop
    have hstep : step m cap (st.asm (key l)) ⟨true, false, s % m, xs.take n⟩
        = (if n ≤ cap then some ⟨xs.take n, s % m, n⟩ else none, none) := by
      dsimp only [step, begin]
      rw [if_pos rfl, if_neg (by decide), htake]
    have hout : (machine key m cap st (l, ⟨true, false, s % m, xs.take n⟩)).out = st.out := by
      dsimp only [machine]
      rw [hstep]
      exact List.append_nil _
    have hasm : (machine key m cap st (l, ⟨true, false, s % m, xs.take n⟩)).asm (key l)
        = if n ≤ cap then some ⟨xs.take n, s % m, n⟩ else none := by
      dsimp only [machine]
      rw [hstep, Function.update_self]
    have hrun : run key m cap st ((cut m n true s xs).map (Prod.mk l))
        = run key m cap (machine key m cap st (l, ⟨true, false, s % m, xs.take n⟩))
          ((cut m n false (s + 1) (xs.drop n)).map (Prod.mk l)) := by
      rw [cut_of_lt hn hlt]
      rfl
    rw [hrun]
    by_cases hfits : xs.length ≤ cap
    · rw [if_pos (by omega)] at hasm
      rw [if_pos (.inr hfits),
        run_cut_rest hn l (xs.drop n) (s + 1) _ _ hasm (Nat.mod_add_mod s m 1) rfl
        (by dsimp only; omega), hout]
      dsimp only
      rw [List.take_append_drop]
    · rw [if_neg (by omega), List.append_nil]
      by_cases hroom : n ≤ cap
      · rw [if_pos hroom] at hasm
        exact (out_run_cut_over hn l (xs.drop n) (s + 1) _ _ hasm (Nat.mod_add_mod s m 1) rfl
          (by dsimp only; omega)).trans hout
      · rw [if_neg hroom] at hasm
        exact (out_run_cut_none hn l (xs.drop n) (s + 1) _ hasm).trans hout

/-- **A stream comes out as it was**, less the messages whose fragments did not reach the
machine. -/
theorem run_filter_stream {n : Nat} (hn : 0 < n) (keep : ι → Bool) (s : Nat)
    (msgs : List (ι × List α)) (st : State α ι κ) (hasm : ∀ k, st.asm k = none)
    (hcap : ∀ msg ∈ msgs, n < msg.2.length → msg.2.length ≤ cap) :
    run key m cap st ((stream m n s msgs).filter fun x => keep x.1)
      = ⟨st.asm, st.out ++ msgs.filter fun msg => keep msg.1⟩ := by
  induction msgs generalizing s st with
  | nil =>
      rw [List.filter_nil, List.append_nil]
      rfl
  | cons msg msgs ih =>
      obtain ⟨l, xs⟩ := msg
      have hrest := fun msg hmsg => hcap msg (List.mem_cons_of_mem _ hmsg)
      rw [filter_stream_cons, run_append]
      by_cases hl : keep l
      · rw [if_pos hl, run_cut hn l xs s st (hasm _) (hcap _ List.mem_cons_self),
          ih _ ⟨st.asm, st.out ++ [(l, xs)]⟩ hasm hrest]
        simp [hl]
      · have hfilter : ((l, xs) :: msgs).filter (fun msg => keep msg.1) = msgs.filter fun msg =>
            keep msg.1 :=
          List.filter_cons_of_neg (p := fun msg : ι × List α => keep msg.1) hl
        rw [if_neg hl, hfilter]
        exact ih _ st hasm hrest

theorem run_stream {n : Nat} (hn : 0 < n) (s : Nat) (msgs : List (ι × List α)) (st : State α ι κ)
    (hasm : ∀ k, st.asm k = none) (hcap : ∀ msg ∈ msgs, n < msg.2.length → msg.2.length ≤ cap) :
    run key m cap st (stream m n s msgs) = ⟨st.asm, st.out ++ msgs⟩ := by
  have hall : run key m cap st ((stream m n s msgs).filter fun _ => true)
      = ⟨st.asm, st.out ++ msgs.filter fun _ => true⟩ :=
    run_filter_stream hn (fun _ => true) s msgs st hasm hcap
  simpa using hall

/-- In the middle of a stream at most one assembly is under way. -/
theorem asm_unique_of_stream {n : Nat} (hn : 0 < n) (keep : ι → Bool) (s : Nat)
    (msgs : List (ι × List α)) (st : State α ι κ) (hasm : ∀ k, st.asm k = none)
    (hcap : ∀ msg ∈ msgs, n < msg.2.length → msg.2.length ≤ cap) {items : List (ι × Frag α)}
    (hitems : items <+: (stream m n s msgs).filter fun x => keep x.1) {k k' : κ}
    (hk : (run key m cap st items).asm k ≠ none) (hk' : (run key m cap st items).asm k' ≠ none) :
    k = k' := by
  induction msgs generalizing s st items with
  | nil =>
      rw [List.prefix_nil.mp hitems] at hk
      exact absurd (hasm k) hk
  | cons msg msgs ih =>
      obtain ⟨l, xs⟩ := msg
      have hrest := fun msg hmsg => hcap msg (List.mem_cons_of_mem _ hmsg)
      rw [filter_stream_cons] at hitems
      by_cases hl : keep l
      · rw [if_pos hl] at hitems
        rcases List.prefix_or_prefix_of_prefix hitems
          (List.prefix_append _ _) with hin | ⟨items', rfl⟩
        · -- within the first message only its own assembly can be under way
          have hown : ∀ k, (run key m cap st items).asm k ≠ none → k = key l := by
            intro k hk
            by_contra hne
            refine hk ((asm_run_of_ne st items fun item hitem => ?_).trans (hasm k))
            obtain ⟨f, _, rfl⟩ := List.mem_map.mp (hin.subset hitem)
            exact Ne.symm hne
          rw [hown k hk, hown k' hk']
        · rw [run_append, run_cut hn l xs s st (hasm _) (hcap _ List.mem_cons_self)] at hk hk'
          rw [List.prefix_append_right_inj] at hitems
          exact ih _ ⟨st.asm, st.out ++ [(l, xs)]⟩ hasm hrest hitems hk hk'
      · rw [if_neg hl] at hitems
        exact ih _ st hasm hrest hitems hk hk'

theorem out_filter_merged {n : Nat} (hn : 0 < n) {l : ι} {xs : List α} (s : Nat)
    {asm : κ → Option (Partial α)} (hasm : asm (key l) = none)
    (hcap : n < xs.length → xs.length ≤ cap) {others items : List (ι × Frag α)}
    (h : Merged ((cut m n true s xs).map (Prod.mk l)) others items)
    (hothers : ∀ item ∈ others, key item.1 ≠ key l) :
    (run key m cap ⟨asm, []⟩ items).out.filter (fun o => key o.1 = key l) = [(l, xs)] := by
  have hfilter : items.filter (fun item => decide (key item.1 = key l))
      = (cut m n true s xs).map (Prod.mk l) := by
    refine h.filter_eq_left (fun item hitem => decide_eq_true ?_) fun item hitem =>
      decide_eq_false (hothers item hitem)
    obtain ⟨f, _, rfl⟩ := List.mem_map.mp hitem
    rfl
  rw [(run_filter (key l) ⟨asm, []⟩ ⟨asm, []⟩ items rfl rfl).2, hfilter,
    run_cut hn l xs s ⟨asm, []⟩ hasm hcap]
  simp

/-- **Two messages of different keys** come out whole, however their fragments are merged. -/
theorem run_merged {n₁ n₂ : Nat} (hn₁ : 0 < n₁) (hn₂ : 0 < n₂) {l₁ l₂ : ι} (hkey : key l₁ ≠ key l₂)
    {xs₁ xs₂ : List α} (s₁ s₂ : Nat) (st : State α ι κ) (hasm₁ : st.asm (key l₁) = none)
    (hasm₂ : st.asm (key l₂) = none) (hcap₁ : n₁ < xs₁.length → xs₁.length ≤ cap)
    (hcap₂ : n₂ < xs₂.length → xs₂.length ≤ cap) {items : List (ι × Frag α)}
    (h : Merged ((cut m n₁ true s₁ xs₁).map (Prod.mk l₁))
      ((cut m n₂ true s₂ xs₂).map (Prod.mk l₂)) items) :
    ∃ new, (run key m cap st items).out = st.out ++ new ∧ new.Perm [(l₁, xs₁), (l₂, xs₂)] := by
  have hlabel : ∀ {l : ι} {fs : List (Frag α)} {item : ι × Frag α}, item ∈ fs.map (Prod.mk l) →
      item.1 = l := by
    intro l fs item hitem
    obtain ⟨f, _, rfl⟩ := List.mem_map.mp hitem
    rfl
  have hfilter₁ := out_filter_merged hn₁ s₁ hasm₁ hcap₁ h fun item
    hitem => by rw [hlabel hitem]; exact Ne.symm hkey
  have hfilter₂ := out_filter_merged hn₂ s₂ hasm₂ hcap₂ h.symm fun item
    hitem => by rw [hlabel hitem]; exact hkey
  have hother : (run key m cap ⟨st.asm, []⟩ items).out.filter (fun o => !decide (key o.1 = key l₁))
      = (run key m cap ⟨st.asm, []⟩ items).out.filter (fun o => decide (key o.1 = key l₂)) := by
    refine List.filter_congr fun o ho => ?_
    have hor : key o.1 = key l₁ ∨ key o.1 = key l₂ := by
      refine label_of_mem_out (P := fun l => key l = key l₁ ∨ key l = key l₂) items ?_ o ho
      intro item hitem
      exact (h.mem_or hitem).imp (fun h => by rw [hlabel h]) (fun h => by rw [hlabel h])
    cases hor with
    | inl heq => simp [heq, hkey]
    | inr heq => simp [heq, Ne.symm hkey]
  have hperm := List.filter_append_perm (fun o => decide (key o.1 = key l₁))
    (run key m cap ⟨st.asm, []⟩ items).out
  rw [hother, hfilter₁, hfilter₂] at hperm
  refine ⟨(run key m cap ⟨st.asm, []⟩ items).out, by rw [run_eq], ?_⟩
  exact hperm.symm

/-- **Every message comes from fragments of its key**, and has the label of the last of them. -/
theorem sources_run (items : List (ι × Frag α)) :
    (∀ k p, (run key m cap State.init items).asm k = some p →
      ∃ sub, Sources key items k p.data sub) ∧
    ∀ o ∈ (run key m cap State.init items).out, ∃ front last,
      Sources key items (key o.1) o.2 (front ++ [last]) ∧ last.1 = o.1 := by
  induction items using List.reverseRecOn with
  | nil => exact ⟨fun k p h => (by cases h), fun o ho => absurd ho List.not_mem_nil⟩
  | append_singleton items item ih =>
      obtain ⟨hasm, hout⟩ := ih
      obtain ⟨hleft, hdone⟩ :=
        step_data m cap ((run key m cap State.init items).asm (key item.1)) item.2
      rw [run_append]
      refine ⟨fun k p hk => ?_, fun o ho => ?_⟩
      · dsimp only [run, List.foldl, machine] at hk
        by_cases heq : k = key item.1
        · subst heq
          rw [Function.update_self] at hk
          obtain hsame | ⟨hfirst, hdata⟩ | ⟨p', hp', hdata⟩ := hleft p hk
          · obtain ⟨sub, hsub⟩ := hasm _ p hsame
            exact ⟨sub, hsub.mono⟩
          · rw [hdata]
            exact ⟨[item], sources_single hfirst⟩
          · obtain ⟨sub, hsub⟩ := hasm _ p' hp'
            rw [hdata]
            exact ⟨sub ++ [item], hsub.concat⟩
        · rw [Function.update_of_ne heq] at hk
          obtain ⟨sub, hsub⟩ := hasm k p hk
          exact ⟨sub, hsub.mono⟩
      · cases List.mem_append.mp ho with
        | inl hold =>
            obtain ⟨front, last, hsub, hlast⟩ := hout o hold
            exact ⟨front, last, hsub.mono, hlast⟩
        | inr hnew =>
            obtain ⟨bytes, hbytes, rfl⟩ := Option.map_eq_some_iff.mp (Option.mem_toList.mp hnew)
            obtain ⟨hfirst, rfl⟩ | ⟨p, hp, rfl⟩ := hdone bytes hbytes
            · exact ⟨[], item, sources_single hfirst, rfl⟩
            · obtain ⟨sub, hsub⟩ := hasm _ p hp
              exact ⟨sub, item, hsub.concat, rfl⟩

end Machine

end Reassembly
