import LibMctp.Model.Instance
import LibMctp.Model.Tags
import LibMctp.Proof.Base.Acts
import LibMctp.Proof.Base.Frame
import Mathlib.Algebra.Order.Ring.Nat
import Mathlib.Data.Nat.Bitwise

/-!
# Giving out and freeing a request tag

What one call of `mctp_alloc_tag` and of `mctp_dealloc_tag` does to the table of request tags. An
entry is live where it is taken and has not expired; expired entries stay in the table until their
slot is needed.
-/

namespace LibMctp

variable {δ : Type}

def MctpReqTag.Live (now : Nat) (r : MctpReqTag) : Prop := r.localEid ≠ 0 ∧ now ≤ r.expiry

instance (now : Nat) (r : MctpReqTag) : Decidable (r.Live now) :=
  inferInstanceAs (Decidable (_ ∧ _))

theorem MctpReqTag.spare_eq_false_iff {now : Nat} {r : MctpReqTag} :
    r.spare now = false ↔ r.Live now := by
  simp [MctpReqTag.spare, MctpReqTag.Live]

theorem MctpReqTag.spare_iff {now : Nat} {r : MctpReqTag} : r.spare now = true ↔ ¬ r.Live now := by
  rw [← MctpReqTag.spare_eq_false_iff, Bool.not_eq_false]

theorem MctpReqTag.carries_iff {localEid remote tag : UInt8} {r : MctpReqTag} :
    r.carries localEid remote tag = true ↔ r.localEid = localEid ∧ r.remote = remote ∧
      r.tag = tag := by
  simp [MctpReqTag.carries, and_assoc]

theorem MctpReqTag.not_live_cleared (now : Nat) :
    ¬ MctpReqTag.Live now { localEid := 0, remote := 0, tag := 0, expiry := 0 } :=
  fun h => h.1 rfl

/-! ### The scan -/

section Scan

variable (reqTags : Fin 16 → MctpReqTag) (now : Nat) (localEid remote : UInt8)

theorem allocTagScan_spare (is : List (Fin 16)) (acc : Nat × Option (Fin 16)) :
    (is.foldl (allocTagScan reqTags now localEid remote) acc).2
      = is.foldl (fun found i => if (reqTags i).spare now then some i else found) acc.2 := by
  induction is generalizing acc with
  | nil => rfl
  | cons i is ih =>
      rw [List.foldl_cons, List.foldl_cons, ih]
      unfold allocTagScan
      dsimp only
      split
      · rfl
      · split
        · rfl
        · rfl

theorem allocTagScan_used {t : Nat} (ht : t < 8) (is : List (Fin 16))
    (acc : Nat × Option (Fin 16)) :
    (is.foldl (allocTagScan reqTags now localEid remote) acc).1.testBit t = true ↔
      acc.1.testBit t = true ∨ ∃ i ∈ is, (reqTags i).Live now ∧ (reqTags i).localEid = localEid ∧
        (reqTags i).remote = remote ∧ (reqTags i).tag.toNat = t := by
  induction is generalizing acc with
  | nil => simp
  | cons i is ih =>
      have hstep : (allocTagScan reqTags now localEid remote acc i).1.testBit t = true ↔
          acc.1.testBit t = true ∨ ((reqTags i).Live now ∧ (reqTags i).localEid = localEid ∧
            (reqTags i).remote = remote ∧ (reqTags i).tag.toNat = t) := by
        unfold allocTagScan
        dsimp only
        split
        · rename_i hspare
          rw [MctpReqTag.spare_iff] at hspare
          simp [hspare]
        · rename_i hlive
          rw [MctpReqTag.spare_iff, not_not] at hlive
          split
          · rename_i hpair
            have hmod : (256 : Nat) = 2 ^ 8 := by decide
            dsimp only
            rw [hmod, Nat.testBit_mod_two_pow, Nat.testBit_or, Nat.one_shiftLeft,
              Nat.testBit_two_pow]
            simp [ht, hlive, hpair]
          · rename_i hpair
            have hnot : ¬ ((reqTags i).localEid = localEid ∧ (reqTags i).remote = remote ∧
                (reqTags i).tag.toNat = t) :=
              fun h => hpair ⟨h.1, h.2.1⟩
            simp [hlive, hnot]
      rw [List.foldl_cons, ih, hstep]
      simp only [List.mem_cons, exists_eq_or_imp]
      exact or_assoc

end Scan

/-! ### The two calls -/

/-- `tag` is that of a live entry for the two endpoints. -/
def Mctp.TagUsed (w : Mctp δ) (localEid remote tag : UInt8) : Prop :=
  ∃ i, (w.reqTags i).Live w.platformNow ∧ (w.reqTags i).carries localEid remote tag = true

/-- Every slot of the table is live, or every tag is used for the two endpoints. -/
def Mctp.NoTag (w : Mctp δ) (localEid remote : UInt8) : Prop :=
  (∀ i, (w.reqTags i).Live w.platformNow) ∨ ∀ t < 8, w.TagUsed localEid remote (UInt8.ofNat t)

theorem used_bit {w : Mctp δ} {localEid remote : UInt8} {used : Nat} {spare : Option (Fin 16)}
    (hscan : (List.finRange 16).foldl (allocTagScan w.reqTags w.platformNow localEid remote) (0,
      none) = (used, spare))
    {t : Nat} (ht : t < 8) :
    (used &&& 1 <<< t == 0) = true ↔ ¬ w.TagUsed localEid remote (UInt8.ofNat t) := by
  have hbit := allocTagScan_used w.reqTags w.platformNow localEid remote ht
    (List.finRange 16) (0, none)
  have htag : ∀ tag : UInt8, tag.toNat = t ↔ tag = UInt8.ofNat t := by
    intro tag
    rw [← UInt8.toNat_inj, UInt8.toNat_ofNat', Nat.mod_eq_of_lt (by omega)]
  rw [hscan] at hbit
  simp only [Nat.zero_testBit, Bool.false_eq_true, false_or, List.mem_finRange, true_and, htag,
    ← MctpReqTag.carries_iff] at hbit
  rw [Mctp.TagUsed, ← hbit, Nat.one_shiftLeft, beq_iff_eq, Nat.and_two_pow]
  cases used.testBit t with
  | false => simp
  | true => simp

theorem mctpAllocTag_none {w w' : Mctp δ} {localEid remote : UInt8}
    (h : mctpAllocTag w localEid remote = (w', none)) :
    w' = w.allocChecked localEid ∧
      ((∀ i, (w.reqTags i).Live w.platformNow) ∨
        ∀ t < 8, w.TagUsed localEid remote (UInt8.ofNat t)) := by
  have hspare := allocTagScan_spare w.reqTags w.platformNow localEid remote
    (List.finRange 16) (0, none)
  unfold mctpAllocTag at h
  dsimp only [Mctp.withHist] at h
  cases hscan : (List.finRange 16).foldl (allocTagScan w.reqTags w.platformNow localEid remote)
    (0, none) with
    | mk used spare =>
  rw [hscan] at h hspare
  dsimp only at h hspare
  split at h
  · refine ⟨(Prod.mk.inj h).1.symm, .inl fun i => ?_⟩
    have hnone := Table.last_eq_none.mp hspare.symm i
    exact MctpReqTag.spare_eq_false_iff.mp hnone
  · split at h
    · rename_i hfind
      refine ⟨(Prod.mk.inj h).1.symm, .inr fun t ht => ?_⟩
      -- the round robin visits every tag
      have hvisit : (((t + 8 - w.tagRoundRobin.toNat % 8) % 8) + w.tagRoundRobin.toNat) % 8
          = t := by omega
      rw [List.find?_eq_none] at hfind
      have hbit := hfind ((t + 8 - w.tagRoundRobin.toNat % 8) % 8)
        (List.mem_range.mpr (Nat.mod_lt _ (by decide)))
      rw [hvisit, used_bit hscan ht, not_not] at hbit
      exact hbit
    · cases h

/-- Where it gives out a tag: the last slot that is not live is written, with the first tag from the
round robin on that no live entry for the two endpoints has. -/
theorem mctpAllocTag_spec {w w' : Mctp δ} {localEid remote tag : UInt8}
    (h : mctpAllocTag w localEid remote = (w', some tag)) :
    ∃ j t, Table.last (MctpReqTag.spare w.platformNow) w.reqTags = some j ∧ t < 8 ∧
      tag = UInt8.ofNat ((t + w.tagRoundRobin.toNat) % 8) ∧ ¬ w.TagUsed localEid remote tag ∧
      (∀ s < t, w.TagUsed localEid remote (UInt8.ofNat ((s + w.tagRoundRobin.toNat) % 8))) ∧
      w' = { w.allocChecked localEid with
        reqTags := Function.update w.reqTags j
          ⟨localEid, remote, tag, (w.platformNow + mctpTagTimeout) % 2 ^ 64⟩
        tagRoundRobin := (tag + 1) % 8 } := by
  have hspare := allocTagScan_spare w.reqTags w.platformNow localEid remote
    (List.finRange 16) (0, none)
  have hlt : ∀ s, (s + w.tagRoundRobin.toNat) % 8 < 8 := fun s => Nat.mod_lt _ (by decide)
  unfold mctpAllocTag at h
  dsimp only [Mctp.withHist] at h
  cases hscan : (List.finRange 16).foldl (allocTagScan w.reqTags w.platformNow localEid remote)
    (0, none) with
    | mk used spare =>
  rw [hscan] at h hspare
  dsimp only at h hspare
  split at h
  · cases h
  · rename_i j
    split at h
    · cases h
    · rename_i t hfind
      obtain ⟨hw', htag⟩ := Prod.mk.inj h
      have hbit := List.find?_some hfind
      have hused := (used_bit hscan (hlt t)).mp hbit
      rw [Option.some.inj htag] at hused hw'
      rw [List.find?_range_eq_some] at hfind
      refine ⟨j, t, hspare.symm, List.mem_range.mp hfind.2.1, (Option.some.inj htag).symm, hused,
        fun s hs => ?_, hw'.symm⟩
      have hbefore := hfind.2.2 s hs
      rw [Bool.not_eq_true', ← Bool.not_eq_true, used_bit hscan (hlt s), not_not] at hbefore
      exact hbefore

theorem mctpAllocTag_some {w w' : Mctp δ} {localEid remote tag : UInt8}
    (h : mctpAllocTag w localEid remote = (w', some tag)) :
    tag.toNat < 8 ∧ ¬ w.TagUsed localEid remote tag ∧ ∃ j, ¬ (w.reqTags j).Live w.platformNow ∧
      w' = { w.allocChecked localEid with
        reqTags := Function.update w.reqTags j
          ⟨localEid, remote, tag, (w.platformNow + mctpTagTimeout) % 2 ^ 64⟩
        tagRoundRobin := (tag + 1) % 8 } := by
  obtain ⟨j, t, hlast, -, htag, hunused, -, hw'⟩ := mctpAllocTag_spec h
  refine ⟨?_, hunused, j, MctpReqTag.spare_iff.mp (Table.last_spec hlast).1, hw'⟩
  have hlt : (t + w.tagRoundRobin.toNat) % 8 < 8 := Nat.mod_lt _ (by decide)
  rw [htag, UInt8.toNat_ofNat', Nat.mod_eq_of_lt (by omega)]
  exact hlt

theorem noTag_of_none {w w' : Mctp δ} {localEid remote : UInt8}
    (h : mctpAllocTag w localEid remote = (w', none)) :
    w.NoTag localEid remote := (mctpAllocTag_none h).2

theorem not_noTag_of_some {w w' : Mctp δ} {localEid remote tag : UInt8}
    (h : mctpAllocTag w localEid remote = (w', some tag)) : ¬ w.NoTag localEid remote := by
  obtain ⟨hlt, hunused, j, hdead, -⟩ := mctpAllocTag_some h
  rintro (hlive | hused)
  · exact hdead (hlive j)
  · have htag := hused tag.toNat hlt
    rw [UInt8.ofNat_toNat] at htag
    exact hunused htag

/-- What giving out a tag does: the tag is the first from the round robin on that no live entry for
the two endpoints has, one slot that was not live is written, and the round robin goes on after the
tag. -/
structure TagGiven (w w' : Mctp δ) (localEid remote tag : UInt8) : Prop where
  first : ∃ t < 8, tag = UInt8.ofNat ((t + w.tagRoundRobin.toNat) % 8) ∧
    ¬ w.TagUsed localEid remote tag ∧
    ∀ s < t, w.TagUsed localEid remote (UInt8.ofNat ((s + w.tagRoundRobin.toNat) % 8))
  written : ∃ j, ¬ (w.reqTags j).Live w.platformNow ∧
    w' = { w with
      reqTags := Function.update w.reqTags j
        ⟨localEid, remote, tag, (w.platformNow + mctpTagTimeout) % 2 ^ 64⟩
      tagRoundRobin := (tag + 1) % 8 }

/-- **The choice of a tag.** The call fails, and leaves the instance as it is, where there is no tag
to be had and nowhere else. -/
theorem mctpAllocTag_gives_iff (w : Mctp δ) {localEid : UInt8} (heid : localEid ≠ 0)
    (remote : UInt8) :
    (mctpAllocTag w localEid remote = (w, none) ↔ w.NoTag localEid remote) ∧
      (¬ w.NoTag localEid remote →
        ∃ w' tag, mctpAllocTag w localEid remote = (w', some tag) ∧
          TagGiven w w' localEid remote tag) := by
  have hchecked : w.allocChecked localEid = w := by
    unfold Mctp.allocChecked
    rw [decide_eq_true heid]
    rfl
  cases halloc : mctpAllocTag w localEid remote with
    | mk w' found =>
  cases found with
  | none =>
      have hno := noTag_of_none halloc
      have hw' := (mctpAllocTag_none halloc).1
      rw [hchecked] at hw'
      subst hw'
      exact ⟨⟨fun _ => hno, fun _ => rfl⟩, fun h => absurd hno h⟩
  | some tag =>
      have hno := not_noTag_of_some halloc
      obtain ⟨j, t, hlast, hlt, htag, hunused, hbefore, hw'⟩ := mctpAllocTag_spec halloc
      have hdead := MctpReqTag.spare_iff.mp (Table.last_spec hlast).1
      rw [hchecked] at hw'
      refine ⟨⟨fun h => by simp at h, fun h => absurd h hno⟩, fun _ => ⟨w', tag, rfl, ?_⟩⟩
      exact ⟨⟨t, hlt, htag, hunused, hbefore⟩, ⟨j, hdead, hw'⟩⟩

/-- A live entry for EIDs 8 and 9, one for another pair, and one for 8 and 9 that has expired. -/
def mixedTags : Mctp Unit :=
  { mctpSetup (fun _ => default) 5000 () with
    reqTags := fun i =>
      if i = 0 then ⟨8, 9, 0, 7000⟩ else if i = 1 then ⟨8, 10, 1, 7000⟩
      else if i = 2 then ⟨8, 9, 1, 3000⟩ else {} }

theorem mctpAllocTag_gives_iff_mixed :
    ((8 : UInt8) ≠ 0 ∧ ¬ mixedTags.NoTag 8 9) ∧ ∃ w', mctpAllocTag mixedTags 8 9 = (w', some 1) ∧
      TagGiven mixedTags w' 8 9 1 := by
  obtain ⟨hfails, hgives⟩ := mctpAllocTag_gives_iff mixedTags (show (8 : UInt8) ≠ 0 by decide) 9
  have htag : (mctpAllocTag mixedTags 8 9).2 = some 1 := by decide
  have hno : ¬ mixedTags.NoTag 8 9 := by
    intro h
    rw [hfails.mpr h] at htag
    cases htag
  obtain ⟨w', tag, halloc, hgiven⟩ := hgives hno
  rw [halloc] at htag
  cases htag
  exact ⟨⟨by decide, hno⟩, w', halloc, hgiven⟩

theorem mctpDeallocTag_reqTags (w : Mctp δ) (i : Fin 2) (localEid remote tag : UInt8) :
    (mctpDeallocTag w i localEid remote tag).reqTags
      = if localEid = 0 then w.reqTags
        else match Table.first (MctpReqTag.carries localEid remote tag) w.reqTags with
          | none => w.reqTags
          | some j =>
              Function.update w.reqTags j
                { localEid := 0, remote := 0, tag := 0, expiry := 0 } := by
  unfold mctpDeallocTag
  dsimp only [Mctp.withHist]
  split
  · rfl
  · cases Table.first (MctpReqTag.carries localEid remote tag) w.reqTags with
    | none => rfl
    | some j => rfl

theorem mctpDeallocTag_live {w : Mctp δ} {i : Fin 2} {localEid remote tag : UInt8} {now : Nat}
    {k : Fin 16} (hlive : ((mctpDeallocTag w i localEid remote tag).reqTags k).Live now) :
    (mctpDeallocTag w i localEid remote tag).reqTags k = w.reqTags k := by
  rw [mctpDeallocTag_reqTags] at hlive ⊢
  by_cases hzero : localEid = 0
  · rw [if_pos hzero]
  · rw [if_neg hzero] at hlive ⊢
    cases hslot : Table.first (MctpReqTag.carries localEid remote tag) w.reqTags with
    | none => rfl
    | some j =>
        rw [hslot] at hlive
        dsimp only at hlive ⊢
        have hkj : k ≠ j := by
          rintro rfl
          rw [Function.update_self] at hlive
          exact MctpReqTag.not_live_cleared _ hlive
        rw [Function.update_of_ne hkj]

end LibMctp
