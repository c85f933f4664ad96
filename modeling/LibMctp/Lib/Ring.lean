import Mathlib.Algebra.Order.Ring.Nat
import Mathlib.Data.Fin.Basic
import Mathlib.Data.List.OfFn
import Mathlib.Data.List.Basic
import Mathlib.Tactic.Common

/-!
# Circular storage

A storage of `N` cells read and written in blocks. `window` is the content of `count` cells from a
position on, going round at the end; `put` writes a list of cells the same way. A transfer in one
block, or in two where it passes the end of the storage, is a `put` or a `window`.
-/

namespace Ring

variable {N : Nat} {α : Type*}

/-- Block copy into the storage. -/
def store (buf : Fin N → α) (off : Nat) (xs : List α) : Fin N → α := fun i =>
  if h : off ≤ i.val ∧ i.val - off < xs.length then xs.get ⟨i.val - off, h.2⟩ else buf i

/-- Block copy out of the storage. -/
def load (buf : Fin N → α) (off len : Nat) (h : off + len ≤ N) : List α :=
  List.ofFn fun k : Fin len => buf ⟨off + k.val, by omega⟩

/-- How far a cell lies after `pos`. -/
def ahead (pos : Nat) (i : Fin N) : Nat := (i.val + (N - pos % N)) % N

/-- The storage with `xs` written from `pos` on. -/
def put (buf : Fin N → α) (pos : Nat) (xs : List α) : Fin N → α := fun i =>
  if h : ahead pos i < xs.length then xs.get ⟨ahead pos i, h⟩ else buf i

/-- Where the base lies in the storage, a cell at or after it is ahead by their difference, and one
before it by a whole turn more. -/
theorem ahead_of_lt {pos : Nat} (hpos : pos < N) (i : Fin N) :
    ahead pos i = if pos ≤ i.val then i.val - pos else i.val + N - pos := by
  rw [ahead, Nat.mod_eq_of_lt hpos]
  have hi := i.isLt
  split
  · rw [show i.val + (N - pos)
      = i.val - pos + N by omega, Nat.add_mod_right, Nat.mod_eq_of_lt (by omega)]
  · rw [Nat.mod_eq_of_lt (by omega)]
    omega

theorem put_mod (buf : Fin N → α) (pos : Nat) (xs : List α) :
    put buf (pos % N) xs = put buf pos xs := by
  funext i
  simp only [put, ahead, Nat.mod_mod]
  rfl

theorem store_eq_put (buf : Fin N → α) {pos : Nat} (xs : List α) (hpos : pos < N)
    (hfit : pos + xs.length ≤ N) :
    store buf pos xs = put buf pos xs := by
  funext i
  have hi := i.isLt
  have hahead := ahead_of_lt hpos i
  by_cases hle : pos ≤ i.val
  · rw [if_pos hle] at hahead
    simp only [store, put, hahead, hle, true_and]
  · rw [if_neg hle] at hahead
    rw [store, put, dif_neg (fun h => hle h.1), dif_neg]
    omega

theorem store_store_eq_put (buf : Fin N → α) {pos n : Nat} (xs : List α) (hpos : pos < N)
    (hn : n = N - pos) (hpast : n < xs.length) (hfit : xs.length ≤ N) :
    store (store buf pos (xs.take n)) 0 (xs.drop n) = put buf pos xs := by
  funext i
  have hi := i.isLt
  have hahead := ahead_of_lt hpos i
  by_cases hle : pos ≤ i.val
  · rw [if_pos hle] at hahead
    have hnot : ¬ (0 ≤ i.val ∧ i.val - 0 < (xs.drop n).length) := by
      rw [List.length_drop]
      omega
    have hin : pos ≤ i.val ∧ i.val - pos < (xs.take n).length := by
      rw [List.length_take]
      omega
    have hput : ahead pos i < xs.length := by omega
    rw [store, dif_neg hnot, store, dif_pos hin, put, dif_pos hput]
    simp only [List.get_eq_getElem, List.getElem_take, hahead]
  · rw [if_neg hle] at hahead
    by_cases hback : i.val < xs.length - n
    · have hin : 0 ≤ i.val ∧ i.val - 0 < (xs.drop n).length := by
        rw [List.length_drop]
        omega
      have hput : ahead pos i < xs.length := by omega
      rw [store, dif_pos hin, put, dif_pos hput]
      simp only [List.get_eq_getElem, List.getElem_drop, hahead]
      congr 1
      omega
    · have hnot : ¬ (0 ≤ i.val ∧ i.val - 0 < (xs.drop n).length) := by
        rw [List.length_drop]
        omega
      have hput : ¬ ahead pos i < xs.length := by omega
      rw [store, dif_neg hnot, store, dif_neg (fun h => hle h.1), put, dif_neg hput]

variable [NeZero N]

/-- The cell `k` places after `pos`. -/
def cell (pos k : Nat) : Fin N := Fin.ofNat N (pos + k)

/-- The `count` cells from `pos` on. -/
def window (buf : Fin N → α) (pos count : Nat) : List α :=
  (List.range count).map fun k => buf (cell pos k)

@[simp] theorem length_window (buf : Fin N → α) (pos count : Nat) :
    (window buf pos count).length = count := by
  simp [window]

theorem cell_add (pos a k : Nat) : cell (N := N) (pos + a) k = cell pos (a + k) := by
  rw [cell, cell, Nat.add_assoc]

theorem cell_mod (pos k : Nat) : cell (N := N) (pos % N) k = cell pos k := by
  apply Fin.ext
  simp [cell]

theorem window_add (buf : Fin N → α) (pos a b : Nat) :
    window buf pos (a + b) = window buf pos a ++ window buf (pos + a) b := by
  simp only [window, List.range_add, List.map_append, List.map_map, cell_add]
  rfl

theorem window_mod (buf : Fin N → α) (pos count : Nat) :
    window buf (pos % N) count = window buf pos count := by
  simp only [window, cell_mod]

theorem take_window (buf : Fin N → α) (pos : Nat) {n count : Nat} (h : n ≤ count) :
    (window buf pos count).take n = window buf pos n := by
  obtain ⟨m, rfl⟩ := Nat.exists_eq_add_of_le h
  rw [window_add, List.take_append_of_le_length (by simp), List.take_of_length_le (by simp)]

theorem drop_window (buf : Fin N → α) (pos : Nat) {n count : Nat} (h : n ≤ count) :
    (window buf pos count).drop n = window buf (pos + n) (count - n) := by
  obtain ⟨m, rfl⟩ := Nat.exists_eq_add_of_le h
  rw [window_add, List.drop_append_of_le_length (by simp), List.drop_of_length_le (by simp)]
  simp

/-! ### Distances -/

theorem ahead_cell (pos k : Nat) (hk : k < N) : ahead pos (cell (N := N) pos k) = k := by
  have hN : 0 < N := Nat.pos_of_ne_zero (NeZero.ne N)
  have hpos : pos % N < N := Nat.mod_lt _ hN
  have hval : (cell (N := N) pos k).val = (pos % N + k) % N := by
    simp [cell]
  rw [ahead, hval]
  rcases Nat.lt_or_ge (pos % N + k) N with hlt | hge
  · rw [Nat.mod_eq_of_lt hlt, show pos % N + k + (N - pos % N) = k + N by omega, Nat.add_mod_right,
      Nat.mod_eq_of_lt hk]
  · rw [Nat.mod_eq_sub_mod hge, Nat.mod_eq_of_lt (by omega : pos % N + k - N < N),
      show pos % N + k - N + (N - pos % N) = k by omega, Nat.mod_eq_of_lt hk]

/-! ### What a write leaves in a window -/

theorem window_put_self (buf : Fin N → α) (pos : Nat) (xs : List α) (hlen : xs.length ≤ N) :
    window (put buf pos xs) pos xs.length = xs := by
  apply List.ext_getElem
  · simp
  · intro k hk hk'
    have hahead := ahead_cell (N := N) pos k (by omega)
    simp only [window, List.getElem_map, List.getElem_range, put, hahead, hk', dif_pos,
      List.get_eq_getElem]

/-- Writing behind a window leaves it as it was, while the two fit the storage together. -/
theorem window_put_behind (buf : Fin N → α) (pos count : Nat) (xs : List α)
    (hfit : count + xs.length ≤ N) :
    window (put buf (pos + count) xs) pos count = window buf pos count := by
  simp only [window, List.map_inj_left, List.mem_range]
  intro k hk
  have hN : 0 < N := Nat.pos_of_ne_zero (NeZero.ne N)
  have hcell : cell (N := N) pos k = cell (pos + count) (N - count + k) := by
    apply Fin.ext
    simp only [cell, Fin.val_ofNat]
    rw [show pos + count + (N - count + k) = pos + k + N by omega, Nat.add_mod_right]
  have hahead : ahead (pos + count) (cell (N := N) pos k) = N - count + k := by
    rw [hcell, ahead_cell _ _ (by omega)]
  rw [put, dif_neg]
  omega

/-- **A write behind the window extends it.** -/
theorem window_put (buf : Fin N → α) (pos count : Nat) (xs : List α)
    (hfit : count + xs.length ≤ N) :
    window (put buf (pos + count) xs) pos (count + xs.length) = window buf pos count ++ xs := by
  rw [window_add, window_put_behind buf pos count xs hfit,
    window_put_self buf (pos + count) xs (by omega)]

theorem load_eq_window (buf : Fin N → α) {pos len : Nat} (h : pos + len ≤ N) :
    load buf pos len h = window buf pos len := by
  apply List.ext_getElem
  · simp [load]
  · intro k hk hk'
    simp only [length_window] at hk'
    have hval : (cell (N := N) pos k) = ⟨pos + k, by omega⟩ := by
      apply Fin.ext
      simp only [cell, Fin.val_ofNat]
      exact Nat.mod_eq_of_lt (by omega)
    simp only [load, List.getElem_ofFn, window, List.getElem_map, List.getElem_range, hval]

end Ring
