import Mathlib.Algebra.Order.Ring.Nat
import Mathlib.Data.List.Infix
import Mathlib.Tactic.Common

/-!
# Batches

What is put somewhere waits there until all of it is taken at once. The batches taken and what still
waits are what was put, in order. Where there never waits more than one element, each batch is one.
-/

namespace Batches

variable {α : Type*}

inductive Op (α : Type*) where
  | put (x : α)
  | take
  deriving DecidableEq, Repr

def Op.given : Op α → Option α
  | .put x => some x
  | .take => none

/-- What waits, the batches taken so far, and how many elements came. Each element goes by its
number. -/
structure State (α : Type*) where
  waiting : List (α × Nat) := []
  batches : List (List (α × Nat)) := []
  count : Nat := 0
  deriving DecidableEq, Repr

def step (s : State α) : Op α → State α
  | .put x => { s with waiting := s.waiting ++ [(x, s.count)], count := s.count + 1 }
  | .take =>
    match s.waiting with
    | [] => s
    | x :: rest => { s with waiting := [], batches := s.batches ++ [x :: rest] }

def run (ops : List (Op α)) : State α := ops.foldl step {}

theorem run_concat (ops : List (Op α)) (op : Op α) :
    run (ops ++ [op]) = step (run ops) op := List.foldl_concat ..

theorem count_run (ops : List (Op α)) : (run ops).count = (ops.filterMap Op.given).length := by
  induction ops using List.reverseRecOn with
  | nil => rfl
  | append_singleton ops op ih =>
      rw [run_concat, List.filterMap_append, List.length_append, ← ih]
      cases op with
      | put x => rfl
      | take =>
          dsimp only [step]
          split <;> rfl

/-- **Nothing is lost, and nothing overtakes.** -/
theorem flatten_run (ops : List (Op α)) :
    (run ops).batches.flatten ++ (run ops).waiting = (ops.filterMap Op.given).zipIdx := by
  induction ops using List.reverseRecOn with
  | nil => rfl
  | append_singleton ops op ih =>
      rw [run_concat, List.filterMap_append]
      cases op with
      | put x =>
          dsimp only [step]
          rw [← List.append_assoc, ih, List.zipIdx_append, count_run, Nat.zero_add]
          rfl
      | take =>
          rw [show [(Op.take : Op α)].filterMap Op.given = [] from rfl, List.append_nil, ← ih]
          dsimp only [step]
          split
          · rfl
          · rename_i x rest hwaiting
            simp [hwaiting]

theorem batch_ne_nil (ops : List (Op α)) : ∀ batch ∈ (run ops).batches, batch ≠ [] := by
  induction ops using List.reverseRecOn with
  | nil => exact fun batch hbatch => absurd hbatch List.not_mem_nil
  | append_singleton ops op ih =>
      rw [run_concat]
      cases op with
      | put x => exact ih
      | take =>
          dsimp only [step]
          split
          · exact ih
          · intro batch hbatch
            rcases List.mem_append.mp hbatch with hbatch | hbatch
            · exact ih batch hbatch
            · rw [List.mem_singleton.mp hbatch]
              exact List.cons_ne_nil _ _

/-! ### How much waits -/

/-- The weight of numbered elements. -/
def load (weight : α → Nat) (xs : List (α × Nat)) : Nat := (xs.map fun x => weight x.1).sum

@[simp] theorem load_nil (weight : α → Nat) : load weight ([] : List (α × Nat)) = 0 := rfl

@[simp] theorem load_cons (weight : α → Nat) (x : α × Nat) (xs : List (α × Nat)) :
    load weight (x :: xs) = weight x.1 + load weight xs := List.sum_cons

@[simp] theorem load_append (weight : α → Nat) (xs ys : List (α × Nat)) :
    load weight (xs ++ ys) = load weight xs + load weight ys := by
  simp [load]

theorem load_one (xs : List (α × Nat)) : load (fun _ => 1) xs = xs.length := by
  simp [load]

/-- Elements that weigh no more than `cap`, as many as there are, weigh no more than that many times
`cap`. -/
theorem load_le {weight : α → Nat} {cap : Nat} {xs : List (α × Nat)}
    (h : ∀ x ∈ xs, weight x.1 ≤ cap) :
    load weight xs ≤ xs.length * cap := by
  induction xs with
  | nil => exact Nat.zero_le _
  | cons x xs ih =>
      have hx := h x List.mem_cons_self
      have hxs := ih fun y hy => h y (List.mem_cons_of_mem _ hy)
      rw [load_cons, List.length_cons, Nat.add_one_mul]
      omega

/-- There never waits more than `cap`. -/
def Within (weight : α → Nat) (cap : Nat) (ops : List (Op α)) : Prop :=
  ∀ pre, pre <+: ops → load weight (run pre).waiting ≤ cap

instance (weight : α → Nat) (cap : Nat) (ops : List (Op α)) : Decidable (Within weight cap ops) :=
  decidable_of_iff (∀ pre ∈ ops.inits, load weight (run pre).waiting ≤ cap)
    (by simp only [List.mem_inits, Within])

/-- An element is put only when all that came before was taken. -/
def InTurn (ops : List (Op α)) : Prop := Within (fun _ => 1) 1 ops

instance (ops : List (Op α)) : Decidable (InTurn ops) :=
  inferInstanceAs (Decidable (Within (fun _ => 1) 1 ops))

section Within

variable {weight : α → Nat} {cap : Nat} {ops pre : List (Op α)}

theorem Within.mono (h : Within weight cap ops) (hpre : pre <+: ops) : Within weight cap pre :=
  fun pre' hpre' => h pre' (hpre'.trans hpre)

theorem Within.waiting (h : Within weight cap ops) :
    load weight (run ops).waiting ≤ cap := h ops List.prefix_rfl

/-- A batch weighs no more than what waited. -/
theorem Within.batch (h : Within weight cap ops) :
    ∀ batch ∈ (run ops).batches, load weight batch ≤ cap := by
  induction ops using List.reverseRecOn with
  | nil => exact fun batch hbatch => absurd hbatch List.not_mem_nil
  | append_singleton ops op ih =>
      have hops := h.mono (List.prefix_append ops [op])
      rw [run_concat]
      cases op with
      | put x => exact ih hops
      | take =>
          dsimp only [step]
          split
          · exact ih hops
          · rename_i x rest hwaiting
            intro batch hbatch
            rcases List.mem_append.mp hbatch with hbatch | hbatch
            · exact ih hops batch hbatch
            · rw [List.mem_singleton.mp hbatch, ← hwaiting]
              exact hops.waiting

/-- What is put waits at first. -/
theorem Within.put (h : Within weight cap ops) {x : α} (hx : .put x ∈ ops) : weight x ≤ cap := by
  obtain ⟨before, after, rfl⟩ := List.append_of_mem hx
  have hwaiting := h (before ++ [.put x]) ⟨after, by simp⟩
  rw [run_concat] at hwaiting
  dsimp only [step] at hwaiting
  rw [load_append, load_cons, load_nil, Nat.add_zero] at hwaiting
  exact (Nat.le_add_left _ _).trans hwaiting

theorem waiting_take (s : State α) : (step s .take).waiting = [] := by
  dsimp only [step]
  split
  · rename_i hwaiting
    exact hwaiting
  · rfl

theorem Within.take (h : Within weight cap ops) : Within weight cap (ops ++ [.take]) := by
  intro pre hpre
  rcases List.prefix_concat_iff.mp hpre with rfl | hpre
  · rw [run_concat, waiting_take]
    exact Nat.zero_le _
  · exact h pre hpre

/-- **One by one.** Each batch is one element. -/
theorem InTurn.single (h : InTurn ops) : ∀ batch ∈ (run ops).batches, ∃ x, batch = [x] := by
  intro batch hbatch
  have hlen := h.batch batch hbatch
  rw [load_one] at hlen
  exact List.length_eq_one_iff.mp
    (Nat.le_antisymm hlen (List.length_pos_of_ne_nil (batch_ne_nil ops batch hbatch)))

/-- Where elements are put in turn and none weighs more than `cap`, no more than that waits. -/
theorem InTurn.within (h : InTurn ops) (hput : ∀ x, .put x ∈ ops → weight x ≤ cap) :
    Within weight cap ops := by
  intro pre hpre
  have hlen := h pre hpre
  rw [load_one] at hlen
  have hmem : ∀ x ∈ (run pre).waiting, weight x.1 ≤ cap := by
    intro x hx
    have hall : x ∈ (pre.filterMap Op.given).zipIdx := by
      rw [← flatten_run]
      exact List.mem_append_right _ hx
    obtain ⟨op, hop, hgiven⟩ := List.mem_filterMap.mp (List.fst_mem_of_mem_zipIdx hall)
    cases op with
    | put y =>
        obtain rfl : y = x.1 := Option.some.inj hgiven
        exact hput _ (hpre.subset hop)
    | take => cases hgiven
  calc load weight (run pre).waiting ≤ (run pre).waiting.length * cap := load_le hmem
    _ ≤ 1 * cap := Nat.mul_le_mul_right _ hlen
    _ = cap := Nat.one_mul _

end Within

end Batches
