import Mathlib.Algebra.Order.Ring.Nat
import Mathlib.Data.List.Basic
import Mathlib.Data.List.Flatten
import Mathlib.Tactic.Common

/-!
# Records in a byte stream

Records are appended to a stream that keeps no boundaries, and each read takes at most `m` cells off
its front. A read returns one whole record exactly where the queued records leave it nothing else to
take.
-/

namespace Records

variable {α : Type*} {m : Nat}

/-- A read of at most `m` cells returns the first of the queued records, or nothing. -/
def OneRead (m : Nat) : List (List α) → Prop
  | [] => True
  | p :: q => m = 0 ∨ p.length = m ∨ p.length < m ∧ q = []

/-- The records a read leaves, if it returns one. -/
def rest (m : Nat) (q : List (List α)) : List (List α) := if m = 0 then q else q.tail

/-- A run of appends and reads, a read being `none`: every read returns at most one record. -/
def EachOne (m : Nat) : List (List α) → List (Option (List α)) → Prop
  | _, [] => True
  | q, some p :: ops => EachOne m (q ++ [p]) ops
  | q, none :: ops => OneRead m q ∧ EachOne m (rest m q) ops

theorem flatten_eq_nil_iff {q : List (List α)} (hq : ∀ r ∈ q, r ≠ []) :
    q.flatten = [] ↔ q = [] := by
  rw [List.flatten_eq_nil_iff]
  constructor
  · intro h
    cases q with
    | nil => rfl
    | cons r q => exact absurd (h r List.mem_cons_self) (hq r List.mem_cons_self)
  · rintro rfl r hr
    exact absurd hr List.not_mem_nil

/-- **What a read returns is the first record exactly where that is all it can take.** -/
theorem take_flatten_cons_iff {p : List α} {q : List (List α)} (hm : m ≠ 0) (hq : ∀ r ∈ q, r ≠ []) :
    (p :: q).flatten.take m = p ↔ OneRead m (p :: q) := by
  rw [OneRead, List.flatten_cons, List.take_append]
  constructor
  · intro h
    have hlen := congrArg List.length h
    rw [List.length_append, List.length_take, List.length_take] at hlen
    rcases Nat.lt_trichotomy p.length m with hlt | heq | hgt
    · have hnil : q.flatten.length = 0 := by omega
      exact .inr (.inr ⟨hlt, (flatten_eq_nil_iff hq).mp (List.eq_nil_of_length_eq_zero hnil)⟩)
    · exact .inr (.inl heq)
    · omega
  · rintro (hzero | heq | ⟨hlt, rfl⟩)
    · exact absurd hzero hm
    · rw [← heq, Nat.sub_self, List.take_zero, List.append_nil, List.take_length]
    · rw [List.flatten_nil, List.take_nil, List.append_nil, List.take_of_length_le (by omega)]

/-- A read that returns one record leaves the others. -/
theorem drop_flatten (q : List (List α)) (h : OneRead m q) :
    q.flatten.drop m = (rest m q).flatten := by
  rw [rest]
  split
  · rename_i hzero
    rw [hzero, List.drop_zero]
  · rename_i hm
    cases q with
    | nil => exact List.drop_nil
    | cons p q =>
        rw [List.flatten_cons, List.drop_append, List.tail_cons]
        rcases h with hzero | heq | ⟨hlt, rfl⟩
        · exact absurd hzero hm
        · rw [heq, Nat.sub_self, List.drop_zero, List.drop_of_length_le (by omega), List.nil_append]
        · rw [List.flatten_nil, List.drop_nil, List.append_nil, List.drop_of_length_le (by omega)]

theorem mem_of_mem_rest {q : List (List α)} {r : List α} (h : r ∈ rest m q) : r ∈ q := by
  rw [rest] at h
  split at h
  · exact h
  · exact List.mem_of_mem_tail h

section Queued

variable {q : List (List α)} (hq : ∀ r ∈ q, r ≠ [])

include hq

theorem take_flatten_eq_nil_iff : q.flatten.take m = [] ↔ m = 0 ∨ q = [] := by
  rw [List.take_eq_nil_iff, flatten_eq_nil_iff hq]

theorem rest_of_take_nil (h : q.flatten.take m = []) : rest m q = q := by
  rw [rest]
  rcases (take_flatten_eq_nil_iff hq).mp h with hm | rfl
  · rw [if_pos hm]
  · rw [List.tail_nil, ite_self]

/-- A read that returns anything returns the first record, and leaves the rest. -/
theorem take_cons_rest (h : OneRead m q) (hne : q.flatten.take m ≠ []) :
    q.flatten.take m :: rest m q = q := by
  have hm : m ≠ 0 := fun hm => hne ((take_flatten_eq_nil_iff hq).mpr (.inl hm))
  cases q with
  | nil => exact absurd ((take_flatten_eq_nil_iff hq).mpr (.inr rfl)) hne
  | cons p q =>
      rw [(take_flatten_cons_iff hm fun r hr => hq r (List.mem_cons_of_mem _ hr)).mpr h, rest,
        if_neg hm, List.tail_cons]

/-- A read that returns nothing, or the first record, is a read of at most one. -/
theorem oneRead_of_take (h : q.flatten.take m ≠ [] → [q.flatten.take m] <+: q) : OneRead m q := by
  cases q with
  | nil => trivial
  | cons p q =>
      by_cases hm : m = 0
      · exact .inl hm
      · have hne : (p :: q).flatten.take m ≠ [] := by
          rw [Ne, take_flatten_eq_nil_iff hq]
          rintro (h | h)
          · exact hm h
          · cases h
        have hhead := (List.cons_prefix_cons.mp (h hne)).1
        exact (take_flatten_cons_iff hm fun r hr => hq r (List.mem_cons_of_mem _ hr)).mp hhead

end Queued

end Records
