import LibMctp.Proof.Tags.Unique
import Mathlib.Algebra.Order.Ring.Nat
import Mathlib.Data.List.Range
import Mathlib.Data.List.Perm.Subperm

/-!
# Responses free their tag

`mctp_dealloc_tag` clears the first entry with the triple of a response and does not ask whether it
is live. Where an expired entry with that triple comes first, the live one stays and its tag is lost
until it expires too. Otherwise the response frees its tag, and as long as every response did, the
live entries are just those of the requests that wait.
-/

namespace LibMctp

variable {δ : Type}

/-- No live entry with the triple is left, and the other live entries are as they were. -/
structure Frees (w w' : Mctp δ) (localEid remote tag : UInt8) : Prop where
  freed : ∀ i, (w'.reqTags i).Live w.platformNow →
    (w'.reqTags i).carries localEid remote tag = false
  others : ∀ i, (w.reqTags i).Live w.platformNow →
    (w.reqTags i).carries localEid remote tag = false →
    w'.reqTags i = w.reqTags i

/-- No expired entry with the triple comes before a live one. -/
def LiveFirst (w : Mctp δ) (localEid remote tag : UInt8) : Prop :=
  ∀ i j, (w.reqTags i).Live w.platformNow → (w.reqTags i).carries localEid remote tag = true →
    (w.reqTags j).carries localEid remote tag = true → j < i → (w.reqTags j).Live w.platformNow

section Dealloc

variable {w w' : Mctp δ} {localEid remote tag : UInt8}

/-- **When a response frees its tag**, in a state whose live entries are unique. -/
theorem TagTable.frees_iff (h : TagTable w) (hlocal : localEid ≠ 0)
    (htags : w'.reqTags = (mctpDeallocTag w 0 localEid remote tag).reqTags) :
    Frees w w' localEid remote tag ↔ LiveFirst w localEid remote tag := by
  rw [mctpDeallocTag_reqTags, if_neg hlocal] at htags
  constructor
  · intro hfrees i j hlive hi hj hlt
    obtain ⟨k, hfirst⟩ := Table.first_isSome_of (p := MctpReqTag.carries localEid remote tag)
      (t := w.reqTags) hi
    rw [hfirst] at htags
    dsimp only at htags
    -- the slot cleared is that of the live entry, so nothing with the triple comes before it
    have hki : i = k := by
      by_contra hik
      have hkept : w'.reqTags i = w.reqTags i := by rw [htags, Function.update_of_ne hik]
      have hfreed := hfrees.freed i (by rw [hkept]; exact hlive)
      rw [hkept, hi] at hfreed
      cases hfreed
    rw [hki] at hlt
    have hmin := Table.first_min hfirst j hlt
    rw [hj] at hmin
    cases hmin
  · intro hfirst
    cases hslot : Table.first (MctpReqTag.carries localEid remote tag) w.reqTags with
    | none =>
        rw [hslot] at htags
        dsimp only at htags
        rw [Table.first_eq_none] at hslot
        refine ⟨fun i _ => ?_, fun i _ _ => by rw [htags]⟩
        rw [htags]
        exact hslot i
    | some k =>
        rw [hslot] at htags
        dsimp only at htags
        have hk := Table.first_some hslot
        refine ⟨fun i hlive => ?_, fun i _ hi => ?_⟩
        · have hik : i ≠ k := by
            rintro rfl
            rw [htags, Function.update_self] at hlive
            exact MctpReqTag.not_live_cleared _ hlive
          have hkept : w'.reqTags i = w.reqTags i := by rw [htags, Function.update_of_ne hik]
          rw [hkept] at hlive ⊢
          by_contra hi
          rw [Bool.not_eq_false] at hi
          have hki : k < i := by
            by_contra hnot
            have hmin := Table.first_min hslot i (lt_of_le_of_ne (not_lt.mp hnot) hik)
            rw [hi] at hmin
            cases hmin
          have hlivek := hfirst i k hlive hi hk hki
          obtain ⟨hlocali, hremotei, htagi⟩ := MctpReqTag.carries_iff.mp hi
          rw [← hlocali, ← hremotei, ← htagi] at hk
          exact hik (h.unique k i hlivek hlive hk).symm
        · have hik : i ≠ k := by
            rintro rfl
            rw [hk] at hi
            cases hi
          rw [htags, Function.update_of_ne hik]

end Dealloc

/-! ### Runs in which every response frees its tag -/

/-- Every live entry is that of a request that waits. -/
def Accounted (w : Mctp δ) (waiting : List MctpReqTag) : Prop :=
  ∀ i, (w.reqTags i).Live w.platformNow → w.reqTags i ∈ waiting

/-- The requests from the present endpoint id to `remote` that wait and have not expired. -/
def waitingFor (w : Mctp δ) (waiting : List MctpReqTag) (remote : UInt8) : List MctpReqTag :=
  waiting.filter fun r => r.localEid = (w.busses 0).eid ∧ r.remote = remote ∧
    w.platformNow ≤ r.expiry

section Run

variable {env : Env δ} {b : Nat}

theorem TagMove.accounted {st st' : Mctp δ × List MctpReqTag} {op : TagOp}
    (hmove : TagMove st st' op) (h : Accounted st.1 st.2) (hinv : TagTable st.1)
    (hfirst : ∀ src dest tag bytes, op = .response src dest tag bytes →
      mctpRxDestIsLocal (st.1.busses 0) dest = true → LiveFirst st.1 dest src tag) :
    Accounted st'.1 st'.2 := by
  intro i hlive
  cases hmove with
  | keep htags hwaiting hnow =>
      rw [htags] at hlive ⊢
      rw [hwaiting]
      exact h i (hlive.mono hnow)
  | give j r hdead htags hwaiting hnow =>
      rw [htags, hnow] at hlive
      rw [htags, hwaiting]
      by_cases hij : i = j
      · -- an entry whose expiry time wrapped is not live
        rw [hij, Function.update_self] at hlive ⊢
        have hexpiry : (st.1.platformNow + mctpTagTimeout) % 2 ^ 64
            = st.1.platformNow + mctpTagTimeout := by
          have hnow := hlive.2
          dsimp only [mctpTagTimeout] at hnow ⊢
          omega
        rw [hexpiry]
        exact List.mem_append_right _ List.mem_cons_self
      · rw [Function.update_of_ne hij] at hlive ⊢
        exact List.mem_append_left _ (h i hlive)
  | @free src dest tag bytes hlocal htags hwaiting hnow =>
      rw [hnow] at hlive
      have hnot : (st'.1.reqTags i).carries dest src tag = false := by
        by_cases hzero : dest = 0
        · have hne : (st'.1.reqTags i).localEid ≠ dest := by
            rw [hzero]
            exact hlive.1
          simp [MctpReqTag.carries, hne]
        · exact ((hinv.frees_iff hzero htags).mpr (hfirst src dest tag bytes rfl hlocal)).freed
            i hlive
      have hkept : st'.1.reqTags i = st.1.reqTags i := by
        rw [htags] at hlive ⊢
        exact mctpDeallocTag_live hlive
      rw [hkept] at hlive hnot
      rw [hwaiting, hkept]
      refine List.mem_filter.mpr ⟨h i hlive, ?_⟩
      rw [hnot]
      rfl

/-- With fewer than 8 requests that wait for an endpoint, one of the 8 tags is unused there. -/
theorem Accounted.tag_free {w : Mctp δ} {waiting : List MctpReqTag} (h : Accounted w waiting)
    {remote : UInt8} (hfew : (waitingFor w waiting remote).length < 8) :
    ¬ ∀ t < 8, w.TagUsed (w.busses 0).eid remote (UInt8.ofNat t) := by
  intro hused
  have hsub : List.range 8 ⊆ (waitingFor w waiting remote).map fun r => r.tag.toNat := by
    intro t ht
    have hlt : t < 8 := List.mem_range.mp ht
    obtain ⟨i, hlive, hcarries⟩ := hused t hlt
    obtain ⟨hlocal, hremote, htag⟩ := MctpReqTag.carries_iff.mp hcarries
    refine List.mem_map.mpr ⟨w.reqTags i, List.mem_filter.mpr ⟨h i hlive, ?_⟩, ?_⟩
    · simp [hlocal, hremote, hlive.2]
    · rw [htag, UInt8.toNat_ofNat', Nat.mod_eq_of_lt (by omega)]
  have hlength := (List.nodup_range.subperm hsub).length_le
  rw [List.length_range, List.length_map] at hlength
  omega

theorem Accounted.run (ops : List TagOp) :
    ∀ st : Mctp δ × List MctpReqTag, Accounted st.1 st.2 → TagTable st.1 →
    (∀ pre src dest tag bytes, pre ++ [.response src dest tag bytes] <+: ops →
      mctpRxDestIsLocal ((pre.foldl (tagStep env b) st).1.busses 0) dest = true →
      LiveFirst (pre.foldl (tagStep env b) st).1 dest src tag) →
    Accounted (ops.foldl (tagStep env b) st).1 (ops.foldl (tagStep env b) st).2 := by
  induction ops with
  | nil => exact fun st h _ _ => h
  | cons op ops ih =>
      intro st h hinv hfirst
      refine ih _ ((tagStep_moves hinv op).accounted h hinv ?_) (hinv.step op) ?_
      · rintro src dest tag bytes rfl hlocal
        exact hfirst [] src dest tag bytes (List.cons_prefix_cons.mpr ⟨rfl, List.nil_prefix⟩) hlocal
      · intro pre src dest tag bytes hpre hlocal
        exact hfirst (op :: pre) src dest tag bytes (List.cons_prefix_cons.mpr ⟨rfl, hpre⟩) hlocal

theorem accounted_registered {bindings : Nat → MctpBinding} {now : Nat} {dev : δ} {eid : UInt8}
    (hreg : 0 ≤ (mctpRegisterBus env (mctpSetup bindings now dev) b eid).2) :
    Accounted (mctpRegisterBus env (mctpSetup bindings now dev) b eid).1 [] := by
  refine mctpRegisterBus_invariant env rfl hreg (fun w => Accounted w []) ?_ ?_
  · intro w₁ hw₁ i hlive
    rw [hw₁.reqTags] at hlive
    exact absurd rfl hlive.1
  · intro w₁ enable hw₁ i
    have honly := mctpBindingSetTxEnabled_txOnly env w₁ b enable
    rw [honly.reqTags, honly.platformNow]
    exact hw₁ i

end Run

/-- **When responses free their tags.** In every state reached, a response frees its tag if and only
if no expired entry with its triple comes before a live one. Where that was so for every response
handled, an endpoint for which fewer than 8 requests wait is never refused for want of a tag, but
only for want of a slot. -/
theorem tagRun_frees_iff (env : Env δ) (bindings : Nat → MctpBinding) (now : Nat) (dev : δ)
    (b : Nat) (eid : UInt8) (ops : List TagOp) (heid : eid ≠ 0)
    (hreg : 0 ≤ (mctpRegisterBus env (mctpSetup bindings now dev) b eid).2) :
    let run := fun pre : List TagOp =>
      pre.foldl (tagStep env b) ((mctpRegisterBus env (mctpSetup bindings now dev) b eid).1, [])
    (∀ src dest tag bytes, mctpRxDestIsLocal ((run ops).1.busses 0) dest = true → dest ≠ 0 →
        (Frees (run ops).1 (mctpRx env (run ops).1 0 ⟨src, dest, false, tag, bytes⟩) dest src tag ↔
          LiveFirst (run ops).1 dest src tag)) ∧
      ((∀ pre src dest tag bytes, pre ++ [.response src dest tag bytes] <+: ops →
          mctpRxDestIsLocal ((run pre).1.busses 0) dest = true →
          LiveFirst (run pre).1 dest src tag) →
        ∀ remote msg msgLen, (waitingFor (run ops).1 (run ops).2 remote).length < 8 →
          (mctpMessageTxRequest env (run ops).1 remote msg msgLen).2 = (-ebusy, none) →
          ∀ i, ((run ops).1.reqTags i).Live (run ops).1.platformNow) := by
  have hstart := tagTable_registered heid hreg
  have hinv := TagTable.run env b ops (_, []) hstart
  refine ⟨?_, ?_⟩
  · intro src dest tag bytes hlocal hdest
    obtain ⟨_, htags⟩ := mctpRx_response env (ops.foldl (tagStep env b) (_, [])).1 0
      ⟨src, dest, false, tag, bytes⟩ rfl hinv.endpoint
    rw [if_pos hlocal] at htags
    exact hinv.frees_iff hdest htags
  · intro hfirst remote msg msgLen hfew hrefused
    have haccounted := Accounted.run ops _ (accounted_registered hreg) hstart hfirst
    cases hcall : mctpMessageTxRequest env (ops.foldl (tagStep env b) (_, [])).1 remote msg
      msgLen with | mk w' result =>
    obtain ⟨rc, tag⟩ := result
    dsimp only at hrefused
    rw [hcall] at hrefused
    obtain ⟨rfl, rfl⟩ := Prod.mk.inj hrefused
    obtain ⟨_, _, ⟨_, _, hbusy⟩ | ⟨t, _, ht, _⟩⟩ := mctpMessageTxRequest_cases env hcall
    · cases halloc : mctpAllocTag (ops.foldl (tagStep env b) (_, [])).1
        ((ops.foldl (tagStep env b) (_, [])).1.busses 0).eid remote with | mk w₁ given =>
      have hnone := hbusy rfl
      rw [halloc] at hnone
      dsimp only at hnone
      rw [hnone] at halloc
      obtain hfull | hused := (mctpAllocTag_none halloc).2
      · exact hfull
      · exact absurd hused (haccounted.tag_free hfew)
    · cases ht

/-- A response to the first of two requests, which come from endpoint 8 and go to endpoint 9. -/
theorem tagRun_frees_first :
    let st := ([.request 9 ⟨0, 4, [1, 2, 3, 4]⟩ 4, .request 9 ⟨1, 4, [5, 6, 7, 8]⟩ 4] :
      List TagOp).foldl
      (tagStep everyOther 0)
      ((mctpRegisterBus everyOther (mctpSetup (fun _ => smallBinding) 0 0) 0 8).1, [])
    Frees st.1 (mctpRx everyOther st.1 0 ⟨9, 8, false, 0, [1]⟩) 8 9 0 := by
  refine ((tagRun_frees_iff everyOther (fun _ => smallBinding) 0 0 0 8
    [.request 9 ⟨0, 4, [1, 2, 3, 4]⟩ 4, .request 9 ⟨1, 4, [5, 6, 7, 8]⟩ 4]
    (by decide) (by decide)).1 9 8 0 [1] (by decide) (by decide)).mpr ?_
  unfold LiveFirst
  decide

/-- Two requests of which the second expires with tag 1 in slot 14, and eight more that each expire
in slot 15 but the last, which has tag 1 again. -/
def staleOps : List TagOp :=
  [.request 9 ⟨0, 4, [1, 2, 3, 4]⟩ 4, .request 9 ⟨1, 4, [1, 2, 3, 4]⟩ 4] ++
    ((List.range 8).map fun _ => [.elapse 7000, .request 9 ⟨2, 4, [1, 2, 3, 4]⟩ 4]).flatten

def staleRun : Mctp Nat × List MctpReqTag :=
  staleOps.foldl (tagStep everyOther 0)
    ((mctpRegisterBus everyOther (mctpSetup (fun _ => smallBinding) 0 0) 0 8).1, [])

/-- The response for tag 1 clears the expired entry of slot 14 and leaves the live one of slot
15. -/
theorem tagRun_keeps_tag : (staleRun.1.busses 0).eid = 8 ∧
    ¬ Frees staleRun.1 (mctpRx everyOther staleRun.1 0 ⟨9, 8, false, 1, [1]⟩) 8 9 1 := by
  refine ⟨by decide +kernel, fun hfrees => ?_⟩
  exact absurd (hfrees.freed 15 (by decide +kernel)) (by decide +kernel)

end LibMctp
