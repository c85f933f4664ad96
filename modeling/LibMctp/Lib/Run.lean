import Mathlib.Algebra.Order.Ring.Nat
import Mathlib.Data.List.Basic

/-!
# Runs of a step function

A run applies a step to each operation of a list in turn. Where every step from a state that
satisfies the invariant succeeds and keeps it, so does every run. The states a run goes through are
those after the beginnings of its list.
-/

namespace Run

variable {σ α : Type*}

theorem foldlM_invariant {step : σ → α → Option σ} (Inv : σ → Prop) {ops : List α}
    (hstep : ∀ s, Inv s → ∀ op ∈ ops, ∃ s', step s op = some s' ∧ Inv s') (s : σ) (hs : Inv s) :
    ∃ s', ops.foldlM step s = some s' ∧ Inv s' := by
  induction ops generalizing s with
  | nil => exact ⟨s, rfl, hs⟩
  | cons op ops ih =>
      obtain ⟨mid, hmid, hinv⟩ := hstep s hs op List.mem_cons_self
      obtain ⟨s', hrun, hs'⟩ :=
        ih (fun s hs op hop => hstep s hs op (List.mem_cons_of_mem _ hop)) mid hinv
      refine ⟨s', ?_, hs'⟩
      rw [List.foldlM_cons, hmid]
      exact hrun

/-- What holds along a run holds at its start and along the rest of it. -/
theorem forall_along_cons_iff {step : σ → α → σ} {P : σ → Prop} {s : σ} {op : α} {ops : List α} :
    (∀ pre, pre <+: op :: ops → P (pre.foldl step s)) ↔
      P s ∧ ∀ pre, pre <+: ops → P (pre.foldl step (step s op)) := by
  constructor
  · intro h
    exact ⟨h [] List.nil_prefix, fun pre hpre =>
      h (op :: pre) (List.cons_prefix_cons.mpr ⟨rfl, hpre⟩)⟩
  · rintro ⟨hstart, hrest⟩ pre hpre
    cases pre with
    | nil => exact hstart
    | cons op' pre =>
        obtain ⟨rfl, hpre'⟩ := List.cons_prefix_cons.mp hpre
        exact hrest pre hpre'

theorem forall_along_nil_iff {step : σ → α → σ} {P : σ → Prop} {s : σ} :
    (∀ pre, pre <+: [] → P (pre.foldl step s)) ↔ P s := by
  constructor
  · exact fun h => h [] List.nil_prefix
  · intro h pre hpre
    rw [List.prefix_nil.mp hpre]
    exact h

/-- Each operation of a run meets the condition, in the state it is applied to. -/
def Each (step : σ → α → σ) (Q : σ → α → Prop) : σ → List α → Prop
  | _, [] => True
  | s, op :: ops => Q s op ∧ Each step Q (step s op) ops

instance decidableEach {step : σ → α → σ} {Q : σ → α → Prop} [∀ s op, Decidable (Q s op)] :
    (s : σ) → (ops : List α) → Decidable (Each step Q s ops)
  | _, [] => inferInstanceAs (Decidable True)
  | s, op :: ops =>
    have : Decidable (Each step Q (step s op) ops) := decidableEach (step s op) ops
    inferInstanceAs (Decidable (Q s op ∧ Each step Q (step s op) ops))

theorem Each.of_forall {step : σ → α → σ} {Q : σ → α → Prop} (h : ∀ s op, Q s op) (s : σ)
    (ops : List α) : Each step Q s ops := by
  induction ops generalizing s with
  | nil => trivial
  | cons op ops ih => exact ⟨h s op, ih _⟩

/-- Two conditions that agree on the steps from states of an invariant agree on the runs from such a
state. -/
theorem each_iff_each {step : σ → α → σ} {A P Q : σ → α → Prop} {R : σ → Prop}
    (hiff : ∀ s op, A s op → R s → (P s op ↔ Q s op))
    (hkeep : ∀ s op, A s op → R s → Q s op → R (step s op)) {s : σ} {ops : List α}
    (hops : Each step A s ops) (hs : R s) : Each step P s ops ↔ Each step Q s ops := by
  induction ops generalizing s with
  | nil => exact Iff.rfl
  | cons op ops ih =>
      have hop := hiff s op hops.1 hs
      constructor
      · rintro ⟨hp, hrest⟩
        have hq := hop.mp hp
        exact ⟨hq, (ih hops.2 (hkeep s op hops.1 hs hq)).mp hrest⟩
      · rintro ⟨hq, hrest⟩
        exact ⟨hop.mpr hq, (ih hops.2 (hkeep s op hops.1 hs hq)).mpr hrest⟩

/-- Where the strong form of a property holds, a step that meets a condition keeps it, and a step
that does not breaks the property. Then the property holds along a run exactly when each step of the
run meets the condition. -/
theorem forall_along_iff_each {step : σ → α → σ} {P R : σ → Prop} {A Q : σ → α → Prop}
    (hweak : ∀ s, R s → P s) (hbreak : ∀ s op, A s op → R s → P (step s op) → Q s op)
    (hkeep : ∀ s op, A s op → R s → Q s op → R (step s op)) {s : σ} {ops : List α}
    (hops : Each step A s ops) (hs : R s) :
    (∀ pre, pre <+: ops → P (pre.foldl step s)) ↔ Each step Q s ops := by
  induction ops generalizing s with
  | nil =>
      rw [forall_along_nil_iff]
      exact ⟨fun _ => trivial, fun _ => hweak s hs⟩
  | cons op ops ih =>
      rw [forall_along_cons_iff]
      constructor
      · rintro ⟨_, hrest⟩
        have hq := hbreak s op hops.1 hs (hrest [] List.nil_prefix)
        exact ⟨hq, (ih hops.2 (hkeep s op hops.1 hs hq)).mp hrest⟩
      · rintro ⟨hq, hrest⟩
        exact ⟨hweak s hs, (ih hops.2 (hkeep s op hops.1 hs hq)).mpr hrest⟩

end Run
