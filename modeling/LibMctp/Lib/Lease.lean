import LibMctp.Lib.Table
import Mathlib.Data.Finset.Card
import Mathlib.Data.Fintype.Card

/-!
# Leases

A table of slots that are each given to somebody for a time, and may be given back before it is
over. How many of them are held at any time is bounded by how many were asked for in the time that a
lease lasts, and where none is given back it is just as many.
-/

namespace Table

variable {n : Nat} {α : Type*} {p : α → Bool} {t : Fin n → α}

/-- How many entries satisfy `p`. -/
def count (p : α → Bool) (t : Fin n → α) : Nat := (Finset.univ.filter fun i => p (t i) = true).card

theorem count_le (p : α → Bool) (t : Fin n → α) : count p t ≤ n :=
  (Finset.card_filter_le _ _).trans (Finset.card_fin n).le

theorem count_of_forall (h : ∀ i, p (t i) = true) : count p t = n := by
  rw [count, Finset.filter_true_of_mem fun i _ => h i, Finset.card_fin]

theorem count_of_forall_not (h : ∀ i, p (t i) = false) : count p t = 0 := by
  simp [count, h]

/-- One slot is written. -/
theorem count_update (p : α → Bool) (t : Fin n → α) (j : Fin n) (a : α) :
    count p (Function.update t j a) + (p (t j)).toNat = count p t + (p a).toNat := by
  have hsplit : ∀ u : Fin n →
      α, count p u = (p (u j)).toNat + ((Finset.univ.erase j).filter fun i =>
        p (u i) = true).card := by
    intro u
    rw [count, ← Finset.insert_erase (Finset.mem_univ j), Finset.filter_insert,
      Finset.erase_insert (Finset.notMem_erase j _)]
    cases hj : p (u j)
    · simp
    · rw [if_pos rfl, Finset.card_insert_of_notMem (by simp), Nat.add_comm]
      rfl
  have hrest : ((Finset.univ.erase j).filter fun i => p (Function.update t j a i) = true)
      = (Finset.univ.erase j).filter fun i => p (t i) = true := by
    apply Finset.filter_congr
    intro i hi
    rw [Function.update_of_ne (Finset.ne_of_mem_erase hi)]
  rw [hsplit (Function.update t j a), hsplit t, hrest, Function.update_self]
  omega

/-- There are at least as many entries as values that they take. -/
theorem le_count {m : Nat} (f : α → Nat) (h : ∀ k < m, ∃ i, p (t i) = true ∧ f (t i) = k) :
    m ≤ count p t := by
  rw [← Finset.card_range m]
  apply Finset.card_le_card_of_surjOn fun i => f (t i)
  intro k hk
  obtain ⟨i, hp, hf⟩ := h k (by simpa using hk)
  exact ⟨i, by simpa using hp, hf⟩

/-- Entries that have values of their own are no more than these. -/
theorem count_le_of_injOn {m : Nat} (f : α → Nat) (hlt : ∀ i, p (t i) = true → f (t i) < m)
    (hinj : ∀ i j, p (t i) = true → p (t j) = true → f (t i) = f (t j) → i = j) :
    count p t ≤ m := by
  rw [← Finset.card_range m]
  apply Finset.card_le_card_of_injOn fun i => f (t i)
  · intro i hi
    simpa using hlt i (by simpa using hi)
  · intro i hi j hj
    exact hinj i j (by simpa using hi) (by simpa using hj)

end Table

namespace Lease

open Table

variable {n : Nat} {α κ : Type*}

/-- How many of the entries that are live at `now` belong to somebody that `keep` selects. -/
def held (live : Nat → α → Bool) (who : α → κ) (t : Fin n → α) (now : Nat) (keep : κ → Bool) :
    Nat :=
  count (fun a => live now a && keep (who a)) t

/-- How many of those asked for, each at some time and by somebody, would still be live at `now`. -/
def recent (term : Nat) (asked : List (Nat × κ)) (now : Nat) (keep : κ → Bool) : Nat :=
  asked.countP fun a => decide (now ≤ a.1 + term) && keep a.2

section Bounds

variable (live : Nat → α → Bool) (who : α → κ) (term : Nat)

/-- From `now` on no more are held than were asked for of late. -/
def Bounded (now : Nat) (t : Fin n → α) (asked : List (Nat × κ)) : Prop :=
  ∀ now', now ≤ now' → ∀ keep, held live who t now' keep ≤ recent term asked now' keep

/-- From `now` on all are held that were asked for of late. -/
def Exact (now : Nat) (t : Fin n → α) (asked : List (Nat × κ)) : Prop :=
  ∀ now', now ≤ now' → ∀ keep, held live who t now' keep = recent term asked now' keep

variable {live who term} {now now' : Nat} {t : Fin n → α} {asked : List (Nat × κ)}

theorem recent_concat (term : Nat) (asked : List (Nat × κ)) (a : Nat × κ) (now : Nat)
    (keep : κ → Bool) :
    recent term (asked ++ [a]) now keep
      = recent term asked now keep + (decide (now ≤ a.1 + term) && keep a.2).toNat := by
  rw [recent, List.countP_append, List.countP_singleton]
  cases decide (now ≤ a.1 + term) && keep a.2 <;> rfl

theorem held_of_forall_not {live : Nat → α → Bool} {t : Fin n → α} {now : Nat}
    (h : ∀ i, live now (t i) = false) (who : α → κ) (keep : κ → Bool) :
    held live who t now keep = 0 := by
  apply count_of_forall_not
  intro i
  rw [h i, Bool.false_and]

/-- A slot is written. -/
theorem held_update (live : Nat → α → Bool) (who : α → κ) (t : Fin n → α) (j : Fin n) (a : α)
    (now : Nat) (keep : κ → Bool) :
    held live who (Function.update t j a) now keep + (live now (t j) && keep (who (t j))).toNat
      = held live who t now keep + (live now a && keep (who a)).toNat :=
  count_update _ t j a

theorem Bounded.later (h : Bounded live who term now t asked) (hle : now ≤ now') :
    Bounded live who term now' t asked :=
  fun _ hle' => h _ (hle.trans hle')

theorem Exact.later (h : Exact live who term now t asked) (hle : now ≤ now') :
    Exact live who term now' t asked :=
  fun _ hle' => h _ (hle.trans hle')

theorem Exact.of_empty (h : ∀ now i, live now (t i) = false) : Exact live who term now t [] := by
  intro now' _ keep
  rw [held_of_forall_not (h now')]
  rfl

theorem Exact.bounded (h : Exact live who term now t asked) :
    Bounded live who term now t asked := fun now' hle keep => (h now' hle keep).le

/-- One that is given, for no longer than the term. -/
theorem Bounded.give (h : Bounded live who term now t asked) (j : Fin n) {a : α} {time : Nat}
    (hlive : ∀ now', live now' a = true → now' ≤ time + term) :
    Bounded live who term now (Function.update t j a) (asked ++ [(time, who a)]) := by
  intro now' hle keep
  have hheld := held_update live who t j a now' keep
  have hbound := h now' hle keep
  rw [recent_concat]
  cases ha : live now' a && keep (who a)
  · rw [ha, Bool.toNat_false] at hheld
    omega
  · obtain ⟨hlive', hkeep⟩ := Bool.and_eq_true_iff.mp ha
    rw [hkeep, decide_eq_true (hlive now' hlive')]
    rw [ha] at hheld
    have hone : (true && true).toNat = 1 := rfl
    have hone' : true.toNat = 1 := rfl
    omega

/-- One that is given back. -/
theorem Bounded.free (h : Bounded live who term now t asked) (j : Fin n) {a : α}
    (hdead : ∀ now', live now' a = false) :
    Bounded live who term now (Function.update t j a) asked := by
  intro now' hle keep
  have hheld := held_update live who t j a now' keep
  have hbound := h now' hle keep
  rw [hdead, Bool.false_and, Bool.toNat_false] at hheld
  omega

/-- One that is given for the whole term, in a slot that was not held. -/
theorem Exact.give (h : Exact live who term now t asked) {j : Fin n}
    (hfree : ∀ now', now ≤ now' → live now' (t j) = false) {a : α} {time : Nat}
    (hlive : ∀ now', live now' a = decide (now' ≤ time + term)) :
    Exact live who term now (Function.update t j a) (asked ++ [(time, who a)]) := by
  intro now' hle keep
  have hheld := held_update live who t j a now' keep
  rw [hfree now' hle, Bool.false_and, Bool.toNat_false, Nat.add_zero,
    h now' hle keep, hlive] at hheld
  rw [recent_concat]
  exact hheld

end Bounds

end Lease
