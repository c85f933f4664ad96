import Mathlib.Algebra.Order.Ring.Nat
import Mathlib.Data.List.Perm.Basic
import Mathlib.Data.List.FinRange
import Mathlib.Data.List.Induction
import Mathlib.Logic.Function.Basic

/-!
# Ledgers

A ledger lists what was gained and what was given back. Replaying it fails where something is gained
that is held already, or given back that is not held. A ledger balances with a list of owners if it
can be replayed and leaves just what these own, each thing once.
-/

namespace Ledger

variable {α : Type*} [DecidableEq α]

inductive Entry (α : Type*) where
  | gain (a : α)
  | lose (a : α)

def post (live : List α) : Entry α → Option (List α)
  | .gain a => if a ∈ live then none else some (a :: live)
  | .lose a => if a ∈ live then some (live.erase a) else none

def replay (entries : List (Entry α)) : Option (List α) := entries.foldlM post []

def Balanced (entries : List (Entry α)) (owned : List α) : Prop :=
  ∃ live, replay entries = some live ∧ live.Perm owned

theorem replay_concat (entries : List (Entry α)) (entry : Entry α) :
    replay (entries ++ [entry]) = (replay entries).bind fun live => post live entry := by
  unfold replay
  rw [List.foldlM_append]
  cases entries.foldlM post ([] : List α) with
  | none => rfl
  | some live =>
      rw [Option.bind_eq_bind, Option.bind_some, Option.bind_some, List.foldlM_cons,
        Option.bind_eq_bind]
      simp

section Balanced

variable {entries : List (Entry α)} {owned owned' : List α} {a : α}

theorem balanced_nil : Balanced ([] : List (Entry α)) [] := ⟨[], rfl, List.Perm.refl _⟩

theorem Balanced.perm (h : Balanced entries owned) (hperm : owned.Perm owned') :
    Balanced entries owned' := by
  obtain ⟨live, hreplay, hlive⟩ := h
  exact ⟨live, hreplay, hlive.trans hperm⟩

/-- A ledger leaves one list of things. -/
theorem Balanced.unique (h : Balanced entries owned) (h' : Balanced entries owned') :
    owned.Perm owned' := by
  obtain ⟨live, hreplay, hlive⟩ := h
  obtain ⟨live', hreplay', hlive'⟩ := h'
  rw [hreplay] at hreplay'
  rw [← Option.some.inj hreplay'] at hlive'
  exact hlive.symm.trans hlive'

theorem Balanced.gain (h : Balanced entries owned) (ha : a ∉ owned) :
    Balanced (entries ++ [.gain a]) (a :: owned) := by
  obtain ⟨live, hreplay, hlive⟩ := h
  refine ⟨a :: live, ?_, hlive.cons a⟩
  rw [replay_concat, hreplay, Option.bind_some, post, if_neg fun hmem => ha (hlive.mem_iff.mp hmem)]

theorem Balanced.lose (h : Balanced entries (a :: owned)) :
    Balanced (entries ++ [.lose a]) owned := by
  obtain ⟨live, hreplay, hlive⟩ := h
  have ha : a ∈ live := hlive.mem_iff.mpr List.mem_cons_self
  refine ⟨live.erase a, ?_, ?_⟩
  · rw [replay_concat, hreplay, Option.bind_some, post, if_pos ha]
  · have herase := hlive.erase a
    rw [List.erase_cons_head] at herase
    exact herase

theorem Balanced.lose_all (xs : List α) (h : Balanced entries (xs ++ owned)) :
    Balanced (entries ++ xs.map .lose) owned := by
  induction xs generalizing entries with
  | nil =>
      rw [List.map_nil, List.append_nil]
      exact h
  | cons x xs ih =>
      rw [List.map_cons, List.append_cons]
      exact ih h.lose

end Balanced

/-! ### Owners in a table -/

section Table

variable {β : Type*} {n : Nat}

/-- What the slots of a table own. -/
def slots (t : Fin n → Option β) : List β := (List.finRange n).filterMap t

theorem slots_perm (t : Fin n → Option β) (j : Fin n) :
    (slots t).Perm ((t j).toList ++ slots (Function.update t j none)) := by
  have hfin : (List.finRange n).Perm (j :: (List.finRange n).erase j) :=
    List.perm_cons_erase (List.mem_finRange j)
  have hrest : ((List.finRange n).erase j).filterMap t
      = ((List.finRange n).erase j).filterMap (Function.update t j none) := by
    refine List.filterMap_congr fun i hi => ?_
    have hne : i ≠ j := fun heq => (List.nodup_finRange n).not_mem_erase (heq ▸ hi)
    rw [Function.update_of_ne hne]
  have hcons : ∀ u : Fin n → Option β, (j :: (List.finRange n).erase j).filterMap u
      = (u j).toList ++ ((List.finRange n).erase j).filterMap u := by
    intro u
    cases hu : u j with
    | none => rw [List.filterMap_cons_none hu, Option.toList_none, List.nil_append]
    | some b => rw [List.filterMap_cons_some hu, Option.toList_some, List.singleton_append]
  have hleft := hfin.filterMap t
  have hright := hfin.filterMap (Function.update t j none)
  rw [hcons, hrest] at hleft
  rw [hcons, Function.update_self, Option.toList_none, List.nil_append] at hright
  exact hleft.trans (hright.symm.append_left _)

/-- A slot that gives up what it owns. -/
theorem slots_clear {t : Fin n → Option β} {j : Fin n} {b : β} (hj : t j = some b) :
    (slots t).Perm (b :: slots (Function.update t j none)) := by
  have hperm := slots_perm t j
  rw [hj] at hperm
  exact hperm

/-- A free slot that comes to own something. -/
theorem slots_fill {t : Fin n → Option β} {j : Fin n} (hj : t j = none) (b : β) :
    (slots (Function.update t j (some b))).Perm (b :: slots t) := by
  have hperm := slots_clear (t := Function.update t j (some b)) (j := j) (Function.update_self ..)
  have hsame : Function.update t j none = t := by
    rw [← hj]
    exact Function.update_eq_self j t
  rw [Function.update_idem, hsame] at hperm
  exact hperm

end Table

end Ledger
