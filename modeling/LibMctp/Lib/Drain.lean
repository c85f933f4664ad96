import Mathlib.Algebra.Order.Ring.Nat
import Mathlib.Data.List.Basic

/-!
# Steps that run out

Some steps of a system take something that is pending away, and put less in its place. A step with
nothing pending for it changes nothing of what is. Rounds in which each of the steps is made at
least once, in any order, then leave nothing pending, and there need be no more rounds than the load
weighs.
-/

namespace Drain

variable {σ α : Type*}

/-- The steps `kinds` keep the invariant. Where one has something to do, it makes the load less. -/
structure Drains (step : σ → α → σ) (kinds : α → Prop) (Inv : σ → Prop) (pending : σ → α → Prop)
    (load : σ → Nat) : Prop where
  keeps : ∀ {s op}, kinds op → Inv s → Inv (step s op)
  lowers : ∀ {s op}, kinds op → Inv s → pending s op → load (step s op) < load s
  rests : ∀ {s op}, kinds op → Inv s → ¬ pending s op →
    load (step s op) = load s ∧ ∀ op', pending (step s op) op' ↔ pending s op'

/-- Each of the steps at least once, and no others. -/
structure Round (kinds : α → Prop) (ops : List α) : Prop where
  only : ∀ op ∈ ops, kinds op
  each : ∀ op, kinds op → op ∈ ops

variable {step : σ → α → σ} {kinds : α → Prop} {Inv : σ → Prop} {pending : σ → α → Prop}
  {load : σ → Nat}

/-- Several steps: the load is less, or none of them had anything to do. -/
theorem Drains.run (h : Drains step kinds Inv pending load) (ops : List α)
    (hops : ∀ op ∈ ops, kinds op) (s : σ) (hs : Inv s) :
    Inv (ops.foldl step s) ∧
      (load (ops.foldl step s) < load s ∨
        load (ops.foldl step s) = load s ∧ ∀ op ∈ ops, ¬ pending s op) := by
  induction ops generalizing s with
  | nil => exact ⟨hs, .inr ⟨rfl, by simp⟩⟩
  | cons op ops ih =>
      have hop := hops op List.mem_cons_self
      obtain ⟨hinv, hrest⟩ := ih (fun op' hop' => hops op' (List.mem_cons_of_mem _ hop'))
        (step s op) (h.keeps hop hs)
      refine ⟨hinv, ?_⟩
      rw [List.foldl_cons]
      by_cases hpending : pending s op
      · have hlower := h.lowers hop hs hpending
        apply Or.inl
        rcases hrest with hless | ⟨heq, -⟩
        · exact hless.trans hlower
        · exact heq.trans_lt hlower
      · obtain ⟨hload, hsame⟩ := h.rests hop hs hpending
        rcases hrest with hless | ⟨heq, hnone⟩
        · exact .inl (hless.trans_eq hload)
        · refine .inr ⟨heq.trans hload, ?_⟩
          intro op' hop'
          rcases List.mem_cons.mp hop' with rfl | hop'
          · exact hpending
          · exact fun hp => hnone op' hop' ((hsame op').mpr hp)

/-- Where nothing is pending, nothing comes to be. -/
theorem Drains.idle (h : Drains step kinds Inv pending load) (ops : List α)
    (hops : ∀ op ∈ ops, kinds op) (s : σ) (hs : Inv s) (hidle : ∀ op, kinds op → ¬ pending s op) :
    ∀ op, kinds op → ¬ pending (ops.foldl step s) op := by
  induction ops generalizing s with
  | nil => exact hidle
  | cons op ops ih =>
      have hop := hops op List.mem_cons_self
      obtain ⟨-, hsame⟩ := h.rests hop hs (hidle op hop)
      apply ih (fun op' hop' => hops op' (List.mem_cons_of_mem _ hop')) (step s op) (h.keeps hop hs)
      intro op' hop' hpending
      exact hidle op' hop' ((hsame op').mp hpending)

/-- A round lowers the load, or nothing was pending. -/
theorem Drains.round (h : Drains step kinds Inv pending load) {ops : List α}
    (hround : Round kinds ops) {s : σ} (hs : Inv s) :
    load (ops.foldl step s) < load s ∨ ∀ op, kinds op → ¬ pending s op := by
  rcases (h.run ops hround.only s hs).2 with hless | ⟨-, hnone⟩
  · exact .inl hless
  · exact .inr fun op hop => hnone op (hround.each op hop)

/-- **Rounds enough leave nothing pending.** -/
theorem Drains.rounds (h : Drains step kinds Inv pending load) (rounds : List (List α))
    (hrounds : ∀ ops ∈ rounds, Round kinds ops) (s : σ) (hs : Inv s)
    (henough : load s ≤ rounds.length) :
    ∀ op, kinds op → ¬ pending (rounds.flatten.foldl step s) op := by
  induction rounds generalizing s with
  | nil =>
      intro op hop hpending
      have hlower := h.lowers hop hs hpending
      rw [List.length_nil] at henough
      omega
  | cons ops rounds ih =>
      have hround := hrounds ops List.mem_cons_self
      have hrest : ∀ ops ∈ rounds, Round kinds ops :=
        fun ops' hops' => hrounds ops' (List.mem_cons_of_mem _ hops')
      rw [List.flatten_cons, List.foldl_append]
      rw [List.length_cons] at henough
      have hinv := (h.run ops hround.only s hs).1
      rcases h.round hround hs with hless | hidle
      · exact ih hrest (ops.foldl step s) hinv (by omega)
      · apply h.idle rounds.flatten _ (ops.foldl step s) hinv (h.idle ops hround.only s hs hidle)
        intro op hop
        obtain ⟨ops', hops', hmem⟩ := List.mem_flatten.mp hop
        exact (hrest ops' hops').only op hmem

end Drain
