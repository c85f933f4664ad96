import LibMctp.Lib.Reassembly

/-!
# One machine for several senders

A machine that is given the fragments of several senders, whose keys say which of them they are
from, does for each sender what a machine of its own would do.
-/

namespace Reassembly

open Fragment

variable {α ι κ ρ : Type*} [DecidableEq ρ] {key : ι → κ} {m cap : Nat}

/-- `part r` is the machine that is given the fragments of the keys of `r` alone. -/
structure Parts (key : ι → κ) (sender : κ → ρ) (st : State α ι κ) (part : ρ → State α ι κ) :
    Prop where
  asm : ∀ k, st.asm k = (part (sender k)).asm k
  out : ∀ r, (st.out.filter fun o => sender (key o.1) = r) = (part r).out

variable {sender : κ → ρ} {st : State α ι κ} {part : ρ → State α ι κ}

theorem Parts.init :
    Parts key sender (State.init : State α ι κ) fun _ => State.init := ⟨fun _ => rfl, fun _ => rfl⟩

/-- A fragment is given to the machine of its sender. -/
theorem Parts.give [DecidableEq κ] (h : Parts key sender st part) (item : ι × Frag α) :
    Parts key sender (machine key m cap st item)
      (Function.update part (sender (key item.1))
        (machine key m cap (part (sender (key item.1))) item)) := by
  have hstep : step m cap (st.asm (key item.1)) item.2
      = step m cap ((part (sender (key item.1))).asm (key item.1)) item.2 := by
    rw [h.asm]
  constructor
  · intro k
    by_cases hk : k = key item.1
    · subst hk
      simp [machine, hstep]
    · show Function.update st.asm (key item.1) _ k = _
      rw [Function.update_of_ne hk, h.asm]
      by_cases hr : sender k = sender (key item.1)
      · rw [hr, Function.update_self]
        exact (Function.update_of_ne hk _ _).symm
      · rw [Function.update_of_ne hr]
  · intro r
    have hnew : ∀ o ∈ ((step m cap (st.asm (key item.1)) item.2).2.map (Prod.mk item.1)).toList, o.1
        = item.1 := by
      intro o ho
      simp only [Option.mem_toList, Option.map_eq_some_iff] at ho
      obtain ⟨bytes, -, rfl⟩ := ho
      rfl
    by_cases hr : r = sender (key item.1)
    · subst hr
      have hall : (((step m cap (st.asm (key item.1)) item.2).2.map (Prod.mk item.1)).toList.filter
          fun o => sender (key o.1) = sender (key item.1))
          = ((step m cap (st.asm (key item.1)) item.2).2.map (Prod.mk item.1)).toList :=
        List.filter_eq_self.mpr fun o ho => by simp [hnew o ho]
      rw [Function.update_self]
      dsimp only [machine]
      rw [List.filter_append, hall, h.out, hstep]
    · have hno : (((step m cap (st.asm (key item.1)) item.2).2.map (Prod.mk item.1)).toList.filter
          fun o => sender (key o.1) = r) = [] :=
        List.filter_eq_nil_iff.mpr fun o ho => by simp [hnew o ho, Ne.symm hr]
      rw [Function.update_of_ne hr]
      dsimp only [machine]
      rw [List.filter_append, hno, h.out, List.append_nil]

theorem Parts.give_all [DecidableEq κ] (h : Parts key sender st part) (items : List (ι × Frag α)) :
    Parts key sender (run key m cap st items) fun r =>
      run key m cap (part r) (items.filter fun item => sender (key item.1) = r) := by
  induction items using List.reverseRecOn with
  | nil => exact h
  | append_singleton items item ih =>
      have hpart :
        (fun r => run key m cap (part r) ((items ++ [item]).filter fun item =>
          sender (key item.1) = r))
          = Function.update (fun r =>
            run key m cap (part r) (items.filter fun item => sender (key item.1) = r))
            (sender (key item.1)) (machine key m cap
              (run key m cap (part (sender (key item.1)))
                (items.filter fun item' => sender (key item'.1) = sender (key item.1)))
              item) := by
        funext r
        rw [List.filter_append, run_append]
        by_cases hr : r = sender (key item.1)
        · subst hr
          simp [run]
        · simp [hr, Ne.symm hr, run]
      rw [hpart, run_append]
      exact ih.give item

/-! ### Between two messages of a stream -/

/-- The rest of a message has no first fragment. -/
theorem first_of_mem_cut_rest {n : Nat} (hn : 0 < n) (xs : List α) :
    ∀ (s : Nat), ∀ f ∈ cut m n false s xs, f.first = false := by
  induction xs using chunk_induction hn with
  | hlast xs hle =>
      intro s f hf
      rw [cut_of_le hle, List.mem_singleton] at hf
      rw [hf]
  | hmore xs hlt ih =>
      intro s f hf
      rw [cut_of_lt hn hlt, List.mem_cons] at hf
      rcases hf with rfl | hf
      · rfl
      · exact ih (s + 1) f hf

/-- The fragments before a first fragment of a message are none. -/
theorem eq_nil_of_cut {n : Nat} (hn : 0 < n) {s : Nat} {xs : List α} {fs : List (Frag α)}
    {f : Frag α} (hf : f.first = true) (hpre : fs ++ [f] <+: cut m n true s xs) : fs = [] := by
  cases fs with
  | nil => rfl
  | cons f' fs =>
      have hmem : f ∈ (cut m n true s xs).tail := by
        obtain ⟨rest, hrest⟩ := hpre
        rw [← hrest]
        simp
      by_cases hle : xs.length ≤ n
      · rw [cut_of_le hle] at hmem
        cases hmem
      · rw [cut_of_lt hn (Nat.lt_of_not_le hle)] at hmem
        rw [first_of_mem_cut_rest hn _ _ f hmem] at hf
        cases hf

/-- **Before a first fragment** of a stream, all assemblies are as they were at the start, whichever
messages were kept. -/
theorem asm_of_first [DecidableEq κ] {n : Nat} (hn : 0 < n) (keep : ι → Bool) (s : Nat)
    (msgs : List (ι × List α)) (st : State α ι κ) (hasm : ∀ k, st.asm k = none)
    (hcap : ∀ msg ∈ msgs, n < msg.2.length → msg.2.length ≤ cap) {items : List (ι × Frag α)}
    {item : ι × Frag α} (hfirst : item.2.first = true)
    (hitems : items ++ [item] <+: stream m n s msgs) (k : κ) :
    (run key m cap st (items.filter fun x => keep x.1)).asm k = none := by
  induction msgs generalizing s st items with
  | nil =>
      have hnil := List.prefix_nil.mp hitems
      simp at hnil
  | cons msg msgs ih =>
      obtain ⟨l, xs⟩ := msg
      have hrest := fun msg hmsg => hcap msg (List.mem_cons_of_mem _ hmsg)
      rw [stream] at hitems
      have hcut := List.prefix_append ((cut m n true s xs).map (Prod.mk l))
        (stream m n (s + (cut m n true s xs).length) msgs)
      by_cases hlt : items.length < ((cut m n true s xs).map (Prod.mk l)).length
      · -- the fragment is the first of the first message
        have hin := List.prefix_of_prefix_length_le hitems hcut
          (by rw [List.length_append]; exact hlt)
        obtain ⟨fs, hfs, hsplit⟩ := List.prefix_map_iff.mp hin
        obtain ⟨front, back, rfl, rfl, hback⟩ := List.append_eq_map_iff.mp hsplit
        obtain ⟨f, rfl, rfl⟩ := List.map_eq_singleton_iff.mp hback
        rw [eq_nil_of_cut hn hfirst hfs]
        exact hasm k
      · -- the first message is over
        obtain ⟨items', rfl⟩ := List.prefix_of_prefix_length_le hcut
          ((List.prefix_append items [item]).trans hitems) (by omega)
        rw [List.append_assoc, List.prefix_append_right_inj] at hitems
        have hkeep : ((cut m n true s xs).map (Prod.mk l)).filter (fun x => keep x.1)
            = if keep l then (cut m n true s xs).map (Prod.mk l) else [] := by
          rw [List.filter_map]
          cases hl : keep l <;> simp [Function.comp_def, hl]
        rw [List.filter_append, run_append, hkeep]
        cases keep l
        · exact ih _ st hasm hrest hitems
        · rw [if_pos rfl, run_cut hn l xs s st (hasm _) (hcap _ List.mem_cons_self)]
          exact ih _ ⟨st.asm, st.out ++ [(l, xs)]⟩ hasm hrest hitems

end Reassembly
