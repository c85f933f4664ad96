import Mathlib.Algebra.Order.Ring.Nat
import Mathlib.Data.List.FinRange
import Mathlib.Data.Fintype.Basic
import Mathlib.Logic.Function.Basic

/-!
# Tables of slots

A table of `n` slots is a function from `Fin n`. The searches of a linear scan over it are `first`,
which stops at the first slot that qualifies, and `last`, which lets a later slot overwrite an
earlier one.
-/

namespace Table

variable {n : Nat} {α : Type*}

/-- The first slot whose entry satisfies `p`. -/
def first (p : α → Bool) (t : Fin n → α) : Option (Fin n) :=
  (List.finRange n).find? fun i => p (t i)

/-- The last slot whose entry satisfies `p`. -/
def last (p : α → Bool) (t : Fin n → α) : Option (Fin n) :=
  (List.finRange n).foldl (fun found i => if p (t i) then some i else found) none

theorem first_eq_none {p : α → Bool} {t : Fin n → α} : first p t = none ↔ ∀ i, p (t i) = false := by
  simp [first]

theorem first_some {p : α → Bool} {t : Fin n → α} {i : Fin n} (h : first p t = some i) :
    p (t i) = true := by
  have hsome := List.find?_some h
  exact hsome

theorem first_isSome_of {p : α → Bool} {t : Fin n → α} {i : Fin n} (h : p (t i) = true) :
    ∃ j, first p t = some j := by
  cases hfirst : first p t with
  | some j => exact ⟨j, rfl⟩
  | none =>
      rw [first_eq_none] at hfirst
      rw [hfirst i] at h
      cases h

theorem first_min {p : α → Bool} {t : Fin n → α} {i : Fin n} (h : first p t = some i) :
    ∀ j, j < i → p (t j) = false := by
  intro j hj
  rw [first, List.find?_eq_some_iff_getElem] at h
  obtain ⟨_, k, hk, hki, hbefore⟩ := h
  rw [List.getElem_finRange] at hki
  have hjk : j.val < k := by
    have hval := congrArg Fin.val hki
    simp only [Fin.val_cast] at hval
    omega
  simpa using hbefore j.val hjk

/-- Where one slot qualifies and no earlier one does, it is the first. -/
theorem first_eq_of {p : α → Bool} {t : Fin n → α} {i : Fin n} (hi : p (t i) = true)
    (hmin : ∀ j, j < i → p (t j) = false) : first p t = some i := by
  obtain ⟨j, hj⟩ := first_isSome_of hi
  have hjp := first_some hj
  have hnot : ¬ i < j := fun hlt => by
    rw [first_min hj i hlt] at hi
    cases hi
  have hnot' : ¬ j < i := fun hlt => by
    rw [hmin j hlt] at hjp
    cases hjp
  rw [hj, le_antisymm (not_lt.mp hnot) (not_lt.mp hnot')]

/-- Where only one slot qualifies, it is the first. -/
theorem first_eq_of_unique {p : α → Bool} {t : Fin n → α} {i : Fin n} (hi : p (t i) = true)
    (huniq : ∀ j, p (t j) = true → j = i) : first p t = some i := by
  refine first_eq_of hi fun j hj => ?_
  by_contra hp
  rw [huniq j (by simpa using hp)] at hj
  exact lt_irrefl i hj

theorem first_congr {p q : α → Bool} {t u : Fin n → α} (h : ∀ i, p (t i) = q (u i)) :
    first p t = first q u := by
  simp only [first, h]

private theorem foldl_last {p : α → Bool} {t : Fin n → α} (is : List (Fin n))
    (start : Option (Fin n)) :
    is.foldl (fun found i => if p (t i) then some i else found) start = none ↔
      start = none ∧ ∀ i ∈ is, p (t i) = false := by
  induction is generalizing start with
  | nil => simp
  | cons i is ih =>
      rw [List.foldl_cons, ih]
      by_cases hp : p (t i) = true
      · simp [hp]
      · simp [hp]

/-- The slot a scan ends with qualifies and none after it does, or it is the start. -/
private theorem foldl_last_split {p : α → Bool} {t : Fin n → α} {j : Fin n} (is : List (Fin n))
    (start : Option (Fin n))
    (h : is.foldl (fun found i => if p (t i) then some i else found) start = some j) :
    (start = some j ∧ ∀ i ∈ is, p (t i) = false) ∨
      ∃ before after, is = before ++ j :: after ∧ p (t j) = true ∧
        ∀ i ∈ after, p (t i) = false := by
  induction is generalizing start with
  | nil => exact .inl ⟨h, by simp⟩
  | cons i is ih =>
      obtain ⟨hstart, hnone⟩ | ⟨before, after, rfl, hp, hafter⟩ := ih _ h
      · dsimp only at hstart
        by_cases hp : p (t i) = true
        · rw [if_pos hp] at hstart
          cases hstart
          exact .inr ⟨[], is, rfl, hp, hnone⟩
        · rw [if_neg hp] at hstart
          exact .inl ⟨hstart, List.forall_mem_cons.mpr ⟨by simpa using hp, hnone⟩⟩
      · exact .inr ⟨i :: before, after, rfl, hp, hafter⟩

theorem last_eq_none {p : α → Bool} {t : Fin n → α} : last p t = none ↔ ∀ i, p (t i) = false := by
  rw [last, foldl_last]
  simp

/-- The last slot qualifies, and no later one does. -/
theorem last_spec {p : α → Bool} {t : Fin n → α} {i : Fin n} (h : last p t = some i) :
    p (t i) = true ∧ ∀ j, i < j → p (t j) = false := by
  obtain ⟨hstart, -⟩ | ⟨before, after, hsplit, hp, hafter⟩ :=
    foldl_last_split (List.finRange n) none h
  · cases hstart
  · refine ⟨hp, fun j hij => hafter j ?_⟩
    have hsorted := List.pairwise_lt_finRange n
    have hmem := List.mem_finRange j
    rw [hsplit] at hsorted hmem
    rw [List.mem_append, List.mem_cons] at hmem
    obtain hbefore | rfl | hafter := hmem
    · have hlt := (List.pairwise_append.mp hsorted).2.2 j hbefore i List.mem_cons_self
      exact absurd hij (lt_asymm hlt)
    · exact absurd hij (lt_irrefl j)
    · exact hafter

/-! ### Tables with keys

Each entry may have a key, and no two entries have the same one. -/

section Keyed

variable {κ : Type*} [DecidableEq κ] (key : α → Option κ)

def Distinct (t : Fin n → α) : Prop := ∀ i j k, key (t i) = some k → key (t j) = some k → i = j

/-- The slot with a key. -/
def slot (t : Fin n → α) (k : κ) : Option (Fin n) := first (fun a => decide (key a = some k)) t

/-- The entry with a key. -/
def get (t : Fin n → α) (k : κ) : Option α := (slot key t k).map t

variable {key}

theorem slot_some {t : Fin n → α} {k : κ} {j : Fin n} (h : slot key t k = some j) :
    key (t j) = some k := by
  simpa using first_some h

theorem slot_eq_none {t : Fin n → α} {k : κ} : slot key t k = none ↔ ∀ i, key (t i) ≠ some k := by
  simp [slot, first_eq_none]

theorem slot_of_distinct {t : Fin n → α} (hd : Distinct key t) {k : κ} {j : Fin n}
    (hj : key (t j) = some k) :
    slot key t k = some j :=
  first_eq_of_unique (by simpa using hj) fun i hi => hd i j k (by simpa using hi) hj

omit [DecidableEq κ] in
theorem Distinct.update_none {t : Fin n → α} (hd : Distinct key t) (j : Fin n) {a : α}
    (ha : key a = none) :
    Distinct key (Function.update t j a) := by
  have hother : ∀ i k, key (Function.update t j a i) = some k → key (t i) = some k := by
    intro i k hi
    by_cases hij : i = j
    · rw [hij, Function.update_self, ha] at hi
      cases hi
    · rw [Function.update_of_ne hij] at hi
      exact hi
  exact fun i i' k hi hi' => hd i i' k (hother i k hi) (hother i' k hi')

/-- A slot that is free or holds `k` may be written with an entry that has no key or has `k`. -/
structure Writable (key : α → Option κ) (t : Fin n → α) (j : Fin n) (k : κ) (a : α) : Prop where
  old : key (t j) = some k ∨ key (t j) = none ∧ slot key t k = none
  new : key a = some k ∨ key a = none

variable {t : Fin n → α} {j : Fin n} {k : κ} {a : α}

theorem Writable.distinct (h : Writable key t j k a) (hd : Distinct key t) :
    Distinct key (Function.update t j a) := by
  -- a key of the new table other than `k` was there before, in the same slot
  have hkeys : ∀ i k', key (Function.update t j a i) = some k' → i = j ∧ k' = k ∨
      i ≠ j ∧ key (t i) = some k' := by
    intro i k' hi
    by_cases hij : i = j
    · rw [hij, Function.update_self] at hi
      cases h.new with
      | inl hnew =>
          rw [hnew] at hi
          exact .inl ⟨hij, (Option.some.inj hi).symm⟩
      | inr hnone =>
          rw [hnone] at hi
          cases hi
    · rw [Function.update_of_ne hij] at hi
      exact .inr ⟨hij, hi⟩
  have hold : ∀ i, i ≠ j → key (t i) ≠ some k := by
    intro i hij hi
    cases h.old with
    | inl hj => exact hij (hd i j k hi hj)
    | inr hnone => exact slot_eq_none.mp hnone.2 i hi
  intro i i' k' hi hi'
  obtain ⟨hij, hk⟩ | ⟨hij, hkey⟩ := hkeys i k' hi
  · obtain ⟨hij', _⟩ | ⟨hij', hkey'⟩ := hkeys i' k' hi'
    · rw [hij, hij']
    · rw [hk] at hkey'
      exact absurd hkey' (hold i' hij')
  · obtain ⟨hij', hk⟩ | ⟨_, hkey'⟩ := hkeys i' k' hi'
    · rw [hk] at hkey
      exact absurd hkey (hold i hij)
    · exact hd i i' k' hkey hkey'

theorem Writable.get_of_ne (h : Writable key t j k a) {k' : κ} (hne : k' ≠ k) :
    get key (Function.update t j a) k' = get key t k' := by
  have holdj : key (t j) ≠ some k' := by
    intro hj
    cases h.old with
    | inl hk => exact hne (Option.some.inj (hj.symm.trans hk))
    | inr hnone =>
        rw [hnone.1] at hj
        cases hj
  have hnewj : key a ≠ some k' := by
    intro ha
    cases h.new with
    | inl hk => exact hne (Option.some.inj (ha.symm.trans hk))
    | inr hnone =>
        rw [hnone] at ha
        cases ha
  have hslot : slot key (Function.update t j a) k' = slot key t k' := by
    refine first_congr fun i => ?_
    by_cases hij : i = j
    · rw [hij, Function.update_self, decide_eq_false hnewj, decide_eq_false holdj]
    · rw [Function.update_of_ne hij]
  rw [get, get, hslot]
  cases hfound : slot key t k' with
  | none => rfl
  | some i =>
      have hij : i ≠ j := by
        rintro rfl
        exact holdj (slot_some hfound)
      rw [Option.map_some, Option.map_some, Function.update_of_ne hij]

theorem Writable.get_self (h : Writable key t j k a) (hd : Distinct key t) :
    get key (Function.update t j a) k = if key a = some k then some a else none := by
  have hd' := h.distinct hd
  by_cases ha : key a = some k
  · have hj : key (Function.update t j a j) = some k := by
      rw [Function.update_self]
      exact ha
    rw [if_pos ha, get, slot_of_distinct hd' hj, Option.map_some, Function.update_self]
  · rw [if_neg ha, get, slot_eq_none.mpr, Option.map_none]
    intro i hi
    by_cases hij : i = j
    · rw [hij, Function.update_self] at hi
      exact ha hi
    · rw [Function.update_of_ne hij] at hi
      cases h.old with
      | inl hj => exact hij (hd i j k hi hj)
      | inr hnone => exact slot_eq_none.mp hnone.2 i hi

/-! ### The entries with a key -/

variable (key) in
/-- In the order of the slots. -/
def entries (t : Fin n → α) : List α := ((List.finRange n).filter fun i => (key (t i)).isSome).map t

variable {β : Type*} {f : α → β}

theorem mem_map_entries (hd : Distinct key t) {b : β} :
    b ∈ (entries key t).map f ↔ ∃ k, (get key t k).map f = some b := by
  rw [entries, List.map_map, List.mem_map]
  constructor
  · rintro ⟨i, hi, rfl⟩
    obtain ⟨k, hk⟩ := Option.isSome_iff_exists.mp (List.mem_filter.mp hi).2
    exact ⟨k, by rw [get, slot_of_distinct hd hk]; rfl⟩
  · rintro ⟨k, hk⟩
    rw [get, Option.map_map, Option.map_eq_some_iff] at hk
    obtain ⟨i, hslot, hb⟩ := hk
    refine ⟨i, List.mem_filter.mpr ⟨List.mem_finRange i, ?_⟩, hb⟩
    rw [slot_some hslot]
    rfl

omit [DecidableEq κ] in
/-- What tells the keys apart tells the entries apart. -/
theorem nodup_map_entries (hd : Distinct key t) (hf : ∀ a a', f a = f a' → key a = key a') :
    ((entries key t).map f).Nodup := by
  rw [entries, List.map_map]
  refine List.Nodup.map_on ?_ ((List.nodup_finRange n).filter _)
  intro i hi j _ hij
  obtain ⟨k, hk⟩ := Option.isSome_iff_exists.mp (List.mem_filter.mp hi).2
  exact hd i j k hk ((hf _ _ hij).symm.trans hk)

/-- **Two tables that agree on some keys**, the first of which has no others, have the same entries
for them up to the slots. -/
theorem entries_perm {t u : Fin n → α} (ht : Distinct key t) (hu : Distinct key u) (keep : κ → Bool)
    {q : β → Bool} (hf : ∀ a a', f a = f a' → key a = key a')
    (hq : ∀ a k, key a = some k → q (f a) = keep k)
    (h : ∀ k, (get key t k).map f = if keep k then (get key u k).map f else none) :
    ((entries key t).map f).Perm (((entries key u).map f).filter q) := by
  rw [List.perm_ext_iff_of_nodup (nodup_map_entries ht hf) ((nodup_map_entries hu hf).filter _)]
  intro b
  rw [List.mem_filter, mem_map_entries ht, mem_map_entries hu]
  have hkeep : ∀ k, (get key u k).map f = some b → q b = keep k := by
    intro k hk
    rw [get, Option.map_map, Option.map_eq_some_iff] at hk
    obtain ⟨i, hslot, rfl⟩ := hk
    exact hq _ k (slot_some hslot)
  constructor
  · rintro ⟨k, hk⟩
    rw [h] at hk
    split at hk
    · rename_i hyes
      exact ⟨⟨k, hk⟩, (hkeep k hk).trans hyes⟩
    · cases hk
  · rintro ⟨⟨k, hk⟩, hb⟩
    refine ⟨k, ?_⟩
    rw [h, if_pos ((hkeep k hk).symm.trans hb)]
    exact hk

end Keyed

end Table
