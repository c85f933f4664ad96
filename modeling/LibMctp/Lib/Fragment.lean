import Mathlib.Algebra.Order.Ring.Nat
import Mathlib.Data.List.Basic
import Mathlib.Data.Nat.ModEq
import Mathlib.Tactic.Common

/-!
# Cutting messages into numbered fragments

A message is cut into chunks of `n` elements, the last one possibly shorter, and an empty message
into one empty chunk. Each fragment says whether it is the first and whether it is the last of its
message, and carries a running number modulo `m` that goes on from one message to the next.

On the way to a receiver, lists of fragments are merged (`Merged`) and thinned: `Thinned m 0 xs ys`
says that `ys` is what is left of `xs` where no `m` elements in a row were lost.
-/

namespace Fragment

variable {α ι : Type*}

structure Frag (α : Type*) where
  first : Bool
  last : Bool
  seq : Nat
  payload : List α
  deriving DecidableEq, Repr

/-- The fragments of what is left of a message, `first` telling whether none was cut off yet. -/
def cut (m n : Nat) (first : Bool) (s : Nat) (xs : List α) : List (Frag α) :=
  if 0 < n ∧ n < xs.length then
    ⟨first, false, s % m, xs.take n⟩ :: cut m n false (s + 1) (xs.drop n)
  else [⟨first, true, s % m, xs⟩]
termination_by xs.length
decreasing_by
  rw [List.length_drop]
  omega

/-- The fragments of a list of messages, each with the label of its message. -/
def stream (m n : Nat) : Nat → List (ι × List α) → List (ι × Frag α)
  | _, [] => []
  | s, (l, xs) :: msgs =>
    (cut m n true s xs).map (Prod.mk l) ++ stream m n (s + (cut m n true s xs).length) msgs

variable {m n : Nat}

theorem cut_of_le {xs : List α} (h : xs.length ≤ n) (first : Bool) (s : Nat) :
    cut m n first s xs = [⟨first, true, s % m, xs⟩] := by
  rw [cut, if_neg (by omega)]

theorem cut_of_lt (hn : 0 < n) {xs : List α} (h : n < xs.length) (first : Bool) (s : Nat) :
    cut m n first s xs = ⟨first, false, s % m, xs.take n⟩ :: cut m n false (s + 1) (xs.drop n) := by
  rw [cut, if_pos ⟨hn, h⟩]

/-- Induction along the chunks of a message. -/
theorem chunk_induction (hn : 0 < n) {P : List α → Prop} (hlast : ∀ xs, xs.length ≤ n → P xs)
    (hmore : ∀ xs, n < xs.length → P (xs.drop n) → P xs) (xs : List α) : P xs := by
  induction hlen : xs.length using Nat.strong_induction_on generalizing xs with
  | _ len ih =>
      subst hlen
      by_cases h : xs.length ≤ n
      · exact hlast xs h
      · refine hmore xs (by omega) (ih (xs.drop n).length ?_ (xs.drop n) rfl)
        rw [List.length_drop]
        omega

theorem length_cut_le (first : Bool) (s : Nat) (xs : List α) :
    (cut m n first s xs).length ≤ xs.length + 1 := by
  by_cases hn : 0 < n
  · induction xs using chunk_induction hn generalizing first s with
    | hlast xs hle =>
        rw [cut_of_le hle, List.length_singleton]
        omega
    | hmore xs hlt ih =>
        have hrest := ih false (s + 1)
        rw [List.length_drop] at hrest
        rw [cut_of_lt hn hlt, List.length_cons]
        omega
  · rw [cut, if_neg (by omega), List.length_singleton]
    omega

theorem seq_lt_of_mem_cut (hm : 0 < m) {first : Bool} {s : Nat} {xs : List α} {f : Frag α}
    (hf : f ∈ cut m n first s xs) :
    f.seq < m := by
  by_cases hn : 0 < n
  · induction xs using chunk_induction hn generalizing first s with
    | hlast xs hle =>
        rw [cut_of_le hle, List.mem_singleton] at hf
        rw [hf]
        exact Nat.mod_lt s hm
    | hmore xs hlt ih =>
        rw [cut_of_lt hn hlt, List.mem_cons] at hf
        cases hf with
        | inl heq =>
            rw [heq]
            exact Nat.mod_lt s hm
        | inr hmem => exact ih hmem
  · rw [cut, if_neg (by omega), List.mem_singleton] at hf
    rw [hf]
    exact Nat.mod_lt s hm

theorem payload_le_of_mem_cut (hn : 0 < n) {first : Bool} {s : Nat} {xs : List α} {f : Frag α}
    (hf : f ∈ cut m n first s xs) : f.payload.length ≤ n := by
  induction xs using chunk_induction hn generalizing first s with
  | hlast xs hle =>
      rw [cut_of_le hle, List.mem_singleton] at hf
      rw [hf]
      exact hle
  | hmore xs hlt ih =>
      rw [cut_of_lt hn hlt, List.mem_cons] at hf
      cases hf with
      | inl heq =>
          rw [heq]
          exact List.length_take_le n xs
      | inr hmem => exact ih hmem

/-- No fragment carries more than the message has. -/
theorem payload_le_length_of_mem_cut {first : Bool} {s : Nat} {xs : List α} {f : Frag α}
    (hf : f ∈ cut m n first s xs) :
    f.payload.length ≤ xs.length := by
  by_cases hn : 0 < n
  · induction xs using chunk_induction hn generalizing first s with
    | hlast xs hle =>
        rw [cut_of_le hle, List.mem_singleton] at hf
        rw [hf]
    | hmore xs hlt ih =>
        rw [cut_of_lt hn hlt, List.mem_cons] at hf
        cases hf with
        | inl hf =>
            rw [hf]
            simp
        | inr hf =>
            have hrest := ih hf
            rw [List.length_drop] at hrest
            omega
  · rw [cut, if_neg (by omega), List.mem_singleton] at hf
    rw [hf]

/-- The first fragment is as long as one may be. -/
theorem cut_head (hn : 0 < n) (first : Bool) (s : Nat) (xs : List α) :
    ∃ f fs, cut m n first s xs = f :: fs ∧ f.payload.length = min xs.length n := by
  by_cases hle : xs.length ≤ n
  · exact ⟨_, _, cut_of_le hle first s, (Nat.min_eq_left hle).symm⟩
  · refine ⟨_, _, cut_of_lt hn (Nat.lt_of_not_le hle) first s, ?_⟩
    rw [List.length_take]
    exact Nat.min_comm _ _

theorem mem_stream {s : Nat} {msgs : List (ι × List α)} {x : ι × Frag α}
    (hx : x ∈ stream m n s msgs) :
    ∃ msg ∈ msgs, x.1 = msg.1 ∧ ∃ s', x.2 ∈ cut m n true s' msg.2 := by
  induction msgs generalizing s with
  | nil => cases hx
  | cons msg msgs ih =>
      cases List.mem_append.mp hx with
      | inl hmem =>
          obtain ⟨f, hf, rfl⟩ := List.mem_map.mp hmem
          exact ⟨msg, List.mem_cons_self, rfl, s, hf⟩
      | inr hmem =>
          obtain ⟨msg', hmsg', hfrag⟩ := ih hmem
          exact ⟨msg', List.mem_cons_of_mem _ hmsg', hfrag⟩

theorem stream_append (s : Nat) (msgs msgs' : List (ι × List α)) :
    stream m n s (msgs ++ msgs')
      = stream m n s msgs ++ stream m n (s + (stream m n s msgs).length) msgs' := by
  induction msgs generalizing s with
  | nil => rfl
  | cons msg msgs ih =>
      obtain ⟨l, xs⟩ := msg
      rw [List.cons_append, stream, ih, stream, List.append_assoc]
      simp only [List.length_append, List.length_map, Nat.add_assoc]

/-- One more message goes behind the others, numbered on from them. -/
theorem stream_concat (s : Nat) (msgs : List (ι × List α)) (l : ι) (xs : List α) :
    stream m n s (msgs ++ [(l, xs)])
      = stream m n s msgs ++ (cut m n true (s + (stream m n s msgs).length)
        xs).map (Prod.mk l) := by
  rw [stream_append, stream, stream, List.append_nil]

/-- The fragments whose label is kept are those of the messages whose label is. -/
theorem filter_stream_cons (keep : ι → Bool) (s : Nat) (l : ι) (xs : List α)
    (msgs : List (ι × List α)) :
    (stream m n s ((l, xs) :: msgs)).filter (fun x => keep x.1)
      = (if keep l then (cut m n true s xs).map (Prod.mk l) else []) ++
        (stream m n (s + (cut m n true s xs).length) msgs).filter fun x => keep x.1 := by
  rw [stream, List.filter_append]
  congr 1
  by_cases hl : keep l
  · rw [if_pos hl, List.filter_eq_self]
    intro x hx
    obtain ⟨f, _, rfl⟩ := List.mem_map.mp hx
    exact hl
  · rw [if_neg hl, List.filter_eq_nil_iff]
    intro x hx
    obtain ⟨f, _, rfl⟩ := List.mem_map.mp hx
    exact hl

/-- `zs` has the elements of `xs` and of `ys`, those of each in their order. -/
inductive Merged : List α → List α → List α → Prop
  | nil : Merged [] [] []
  | left (x : α) {xs ys zs : List α} : Merged xs ys zs → Merged (x :: xs) ys (x :: zs)
  | right (y : α) {xs ys zs : List α} : Merged xs ys zs → Merged xs (y :: ys) (y :: zs)

theorem Merged.symm {xs ys zs : List α} (h : Merged xs ys zs) : Merged ys xs zs := by
  induction h with
  | nil => exact .nil
  | left x _ ih => exact .right x ih
  | right y _ ih => exact .left y ih

theorem Merged.filter_eq_left {p : α → Bool} {xs ys zs : List α} (h : Merged xs ys zs)
    (hxs : ∀ x ∈ xs, p x = true) (hys : ∀ y ∈ ys, p y = false) : zs.filter p = xs := by
  induction h with
  | nil => rfl
  | left x _ ih =>
      rw [List.filter_cons_of_pos (hxs x List.mem_cons_self),
        ih (fun x' hx' => hxs x' (List.mem_cons_of_mem _ hx')) hys]
  | right y _ ih =>
      rw [List.filter_cons_of_neg (by rw [hys y List.mem_cons_self]; decide),
        ih hxs fun y' hy' => hys y' (List.mem_cons_of_mem _ hy')]

theorem Merged.mem_or {xs ys zs : List α} (h : Merged xs ys zs) {z : α} (hz : z ∈ zs) :
    z ∈ xs ∨ z ∈ ys := by
  induction h with
  | nil => cases hz
  | left x _ ih =>
      cases List.mem_cons.mp hz with
      | inl heq => exact .inl (by simp [heq])
      | inr hmem => exact (ih hmem).imp_left (List.mem_cons_of_mem _)
  | right y _ ih =>
      cases List.mem_cons.mp hz with
      | inl heq => exact .inr (by simp [heq])
      | inr hmem => exact (ih hmem).imp_right (List.mem_cons_of_mem _)

/-- What is left of a list from which no `m` elements in a row were lost, `gap` of them being lost
just before it. -/
inductive Thinned (m : Nat) : Nat → List α → List α → Prop
  | nil (gap : Nat) : Thinned m gap [] []
  | keep (gap : Nat) (x : α) {xs ys : List α} : Thinned m 0 xs ys →
    Thinned m gap (x :: xs) (x :: ys)
  | lose (gap : Nat) (x : α) {xs ys : List α} :
      gap + 1 < m → Thinned m (gap + 1) xs ys → Thinned m gap (x :: xs) ys

theorem Thinned.map {β : Type*} (g : α → β) {m gap : Nat} {xs ys : List α}
    (h : Thinned m gap xs ys) :
    Thinned m gap (xs.map g) (ys.map g) := by
  induction h with
  | nil gap => exact .nil gap
  | keep gap x _ ih => exact .keep gap (g x) ih
  | lose gap x hgap _ ih => exact .lose gap (g x) hgap ih

theorem Thinned.sublist {m gap : Nat} {xs ys : List α} (h : Thinned m gap xs ys) :
    ys.Sublist xs := by
  induction h with
  | nil gap => exact List.Sublist.refl _
  | keep gap x _ ih => exact ih.cons_cons x
  | lose gap x _ _ ih => exact ih.cons x

end Fragment
