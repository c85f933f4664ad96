import LibMctp.Proof.Instance.Linkage
import LibMctp.Proof.Tags.Unique

/-!
# A request that is not sent

`mctp_message_tx_request` reserves a tag before it tries to send, and keeps it when the bus then
refuses the message. Without a bus it reports success and sets no tag. So a request is all or
nothing only where there is a bus that takes the message, or no tag to be had.
-/

namespace LibMctp

variable {δ : Type}

/-- Bus `i` takes a message: it is started, its packets have the size the standard asks for, and
none is pending. -/
structure Mctp.TakesMessage (w : Mctp δ) (i : Fin 2) : Prop where
  started : (w.busses i).state ≠ .constructed
  mtu : mctpBtu ≤ mctpBodySize (w.busBinding i).pktSize
  idle : (w.busses i).txMsg = none

/-- One entry was added, live from now on, and no other that is or was live changed. -/
structure TagAdded (w w' : Mctp δ) (localEid remote tag : UInt8) : Prop where
  added : ∃ j, ¬ (w.reqTags j).Live w.platformNow ∧ (w'.reqTags j).Live w.platformNow ∧
    w'.reqTags j = ⟨localEid, remote, tag, w.platformNow + mctpTagTimeout⟩ ∧
    ∀ i, i ≠ j → (w.reqTags i).Live w.platformNow ∨ (w'.reqTags i).Live w.platformNow →
      w'.reqTags i = w.reqTags i

/-- A request that fails leaves the tags as they were, and one that succeeds adds an entry for the
tag it returns. `ret` says whether the caller passes a place for the tag. -/
structure RequestAtomic (env : Env δ) (w : Mctp δ) (ret : Bool) (eid : UInt8) (msg : MsgBuf)
    (msgLen : Nat) : Prop where
  failed : (mctpMessageTxRequest env w eid msg msgLen).2.1 ≠ 0 →
    (mctpMessageTxRequest env w eid msg msgLen).1.reqTags = w.reqTags ∧
      (mctpMessageTxRequest env w eid msg msgLen).1.tagRoundRobin = w.tagRoundRobin
  sent : (mctpMessageTxRequest env w eid msg msgLen).2.1 = 0 → ret = true →
    ∃ tag, (mctpMessageTxRequest env w eid msg msgLen).2.2 = some tag ∧
      TagAdded w (mctpMessageTxRequest env w eid msg msgLen).1 (w.busses 0).eid eid tag

/-- The last slot that is not live holds an entry for the two endpoints that has expired before it
was written, its tag is the only one free for them, and the round robin stands after it. -/
def Mctp.TagStands (w : Mctp δ) (localEid remote : UInt8) : Prop :=
  ∃ j tag, tag.toNat < 8 ∧
    w.reqTags j = ⟨localEid, remote, tag, (w.platformNow + mctpTagTimeout) % 2 ^ 64⟩ ∧
    ¬ (w.reqTags j).Live w.platformNow ∧ (∀ i, j < i → (w.reqTags i).Live w.platformNow) ∧
    (∀ t < 8, w.TagUsed localEid remote (UInt8.ofNat t) ↔ t ≠ tag.toNat) ∧
    w.tagRoundRobin = (tag + 1) % 8

/-- There is a bus that takes the message before the clock wraps, or no tag to be had. Without a bus
no tag is asked for. A bus that refuses the message leaves the tags alone only where the entry for
it stands already. -/
def Mctp.CanRequest (w : Mctp δ) (ret : Bool) (eid : UInt8) : Prop :=
  if w.nBusses = 0 then ret = false
  else w.NoTag (w.busses 0).eid eid ∨
  (w.TakesMessage 0 ∧ (ret = true → w.platformNow + mctpTagTimeout < 2 ^ 64)) ∨
    (¬ w.TakesMessage 0 ∧ w.TagStands (w.busses 0).eid eid)

/-! ### Allocating -/

section Alloc

variable {w w' : Mctp δ} {localEid remote tag : UInt8}

theorem roundRobin_before {t s : Nat} (htag : tag.toNat < 8) (hs : s < 8) (hne : s ≠ tag.toNat)
    (ht : tag = UInt8.ofNat ((t + ((tag + 1) % 8).toNat) % 8)) :
    ∃ k < t, (k + ((tag + 1) % 8).toNat) % 8 = s := by
  have hround : ((tag + 1) % 8).toNat = (tag.toNat + 1) % 8 := by
    rw [UInt8.toNat_mod, UInt8.toNat_add]
    exact Nat.mod_mod_of_dvd _ (by decide)
  have hnat := congrArg UInt8.toNat ht
  rw [UInt8.toNat_ofNat', hround] at hnat
  rw [hround]
  refine ⟨(s + 7 - tag.toNat) % 8, ?_, ?_⟩
  · omega
  · omega

/-- Giving out a tag leaves the table as it was only where its entry stands there already. -/
theorem mctpAllocTag_unchanged_iff (h : mctpAllocTag w localEid remote = (w', some tag)) :
    (w'.reqTags = w.reqTags ∧ w'.tagRoundRobin = w.tagRoundRobin) ↔
      w.TagStands localEid remote := by
  obtain ⟨j, t, hlast, -, htag, hunused, hbefore, hw'⟩ := mctpAllocTag_spec h
  obtain ⟨hlt, -⟩ := mctpAllocTag_some h
  obtain ⟨hspare, hlater⟩ := Table.last_spec hlast
  rw [MctpReqTag.spare_iff] at hspare
  rw [hw']
  dsimp only
  constructor
  · rintro ⟨htags, hround⟩
    have hj := congrFun htags j
    rw [Function.update_self] at hj
    refine ⟨j, tag, hlt, hj.symm, hspare, fun i hij =>
      MctpReqTag.spare_eq_false_iff.mp (hlater i hij), fun s hs => ?_, hround.symm⟩
    constructor
    · rintro hused rfl
      rw [UInt8.ofNat_toNat] at hused
      exact hunused hused
    · intro hne
      rw [← hround] at htag hbefore
      obtain ⟨k, hk, hks⟩ := roundRobin_before hlt hs hne htag
      rw [← hks]
      exact hbefore k hk
  · rintro ⟨i, tag', hlt', hentry, hdead, hlive, hused, hround⟩
    have htags : tag = tag' := by
      by_contra hne
      refine hunused ?_
      have huse := (hused tag.toNat hlt).mpr fun heq => hne (UInt8.toNat_inj.mp heq)
      rw [UInt8.ofNat_toNat] at huse
      exact huse
    have hij : j = i := by
      refine le_antisymm (not_lt.mp fun hlt => hspare (hlive j hlt)) (not_lt.mp fun hlt => hdead ?_)
      exact MctpReqTag.spare_eq_false_iff.mp (hlater i hlt)
    rw [htags, hij, ← hentry, Function.update_eq_self, hround]
    exact ⟨rfl, rfl⟩

end Alloc

/-! ### Sending -/

section Send

variable (env : Env δ) {w : Mctp δ} {eid tag : UInt8} {msg : MsgBuf} {msgLen : Nat}

theorem mctpMessageTxOnBus_rc (i : Fin 2) (src : UInt8) (htag : tag &&& mctpHdrTagMask = tag) :
    (mctpMessageTxOnBus env w i src eid true tag msg msgLen).2 = 0 ↔ w.TakesMessage i := by
  unfold mctpMessageTxOnBus
  dsimp only
  by_cases hstate : (w.busses i).state = .constructed
  · rw [if_pos hstate]
    exact ⟨fun h => absurd h (by decide : -enxio ≠ 0), fun h => absurd hstate h.started⟩
  · rw [if_neg hstate, if_neg (not_not.mpr htag)]
    by_cases hmtu : mctpBtu ≤ mctpBodySize (w.busBinding i).pktSize
    · rw [if_neg (by simpa using hmtu)]
      cases hpending : (w.busses i).txMsg with
      | none =>
          rw [if_neg (by decide)]
          exact ⟨fun _ => ⟨hstate, hmtu, hpending⟩, fun _ => rfl⟩
      | some pending =>
          rw [Option.isSome_some, if_pos rfl]
          refine ⟨fun h => absurd h (by decide : -ebusy ≠ 0), fun h => ?_⟩
          have hidle := h.idle
          rw [hpending] at hidle
          cases hidle
    · rw [if_pos (by simpa using hmtu)]
      exact ⟨fun h => absurd h (by decide : -einval ≠ 0), fun h => absurd h.mtu hmtu⟩

theorem tag_masked (htag : tag.toNat < 8) : tag &&& mctpHdrTagMask = tag := by
  have hmask : mctpHdrTagMask.toNat = 2 ^ 3 - 1 := rfl
  rw [← UInt8.toNat_inj, UInt8.toNat_and, hmask, Nat.and_two_pow_sub_one_eq_mod]
  exact Nat.mod_eq_of_lt htag

theorem mctpMessageTxRequest_tagged (hbus : w.nBusses ≠ 0) {w₁ : Mctp δ}
    (halloc : mctpAllocTag w (w.busses 0).eid eid = (w₁, some tag)) :
    (mctpMessageTxRequest env w eid msg msgLen).2.2 = some tag ∧
      ((mctpMessageTxRequest env w eid msg msgLen).2.1 = 0 ↔ w.TakesMessage 0) ∧
      (mctpMessageTxRequest env w eid msg msgLen).1.reqTags = w₁.reqTags ∧
      (mctpMessageTxRequest env w eid msg msgLen).1.tagRoundRobin = w₁.tagRoundRobin := by
  obtain ⟨htag, -, j, -, hw₁⟩ := mctpAllocTag_some halloc
  have hmask := tag_masked htag
  have hfind : findBusForEid w eid = some 0 := if_neg hbus
  have hfind₁ : findBusForEid w₁ eid = some 0 := by
    rw [hw₁]
    exact if_neg hbus
  have htakes : w₁.TakesMessage 0 ↔ w.TakesMessage 0 := by
    rw [hw₁]
    exact ⟨fun h => ⟨h.started, h.mtu, h.idle⟩, fun h => ⟨h.started, h.mtu, h.idle⟩⟩
  have honly := mctpMessageTxAlloced_txOnly env w₁ eid true tag msg msgLen
  have hrequest : mctpMessageTxRequest env w eid msg msgLen
      = ((mctpMessageTxAlloced env w₁ eid true tag msg msgLen).1,
        (mctpMessageTxAlloced env w₁ eid true tag msg msgLen).2, some tag) := by
    unfold mctpMessageTxRequest
    rw [hfind]
    dsimp only
    rw [halloc]
  have hrc : (mctpMessageTxAlloced env w₁ eid true tag msg msgLen).2 = 0 ↔ w.TakesMessage 0 := by
    unfold mctpMessageTxAlloced
    rw [if_neg (not_not.mpr hmask), hfind₁]
    exact (mctpMessageTxOnBus_rc env 0 _ hmask).trans htakes
  rw [hrequest]
  exact ⟨rfl, hrc, honly.reqTags, honly.tagRoundRobin⟩

theorem mctpMessageTxRequest_untagged (hbus : w.nBusses ≠ 0) {w₁ : Mctp δ}
    (halloc : mctpAllocTag w (w.busses 0).eid eid = (w₁, none)) :
    (mctpMessageTxRequest env w eid msg msgLen).2.1 = -ebusy ∧
      (mctpMessageTxRequest env w eid msg msgLen).1.reqTags = w.reqTags ∧
      (mctpMessageTxRequest env w eid msg msgLen).1.tagRoundRobin = w.tagRoundRobin := by
  obtain ⟨rfl, -⟩ := mctpAllocTag_none halloc
  have hfind : findBusForEid w eid = some 0 := if_neg hbus
  have hfree := mctpMsgFree_txOnly env (w.allocChecked (w.busses 0).eid) msg (some ())
  unfold mctpMessageTxRequest
  rw [hfind]
  dsimp only
  rw [halloc]
  exact ⟨rfl, hfree.reqTags, hfree.tagRoundRobin⟩

theorem mctpMessageTxRequest_noBus (eid : UInt8) (msg : MsgBuf) (msgLen : Nat)
    (hbus : w.nBusses = 0) :
    (mctpMessageTxRequest env w eid msg msgLen).2 = (0, none) := by
  have hfind : findBusForEid w eid = none := if_pos hbus
  unfold mctpMessageTxRequest
  rw [hfind]

end Send

/-! ### All or nothing -/

section Atomic

variable {env : Env δ} {w w₁ : Mctp δ} {eid tag : UInt8} {msg : MsgBuf} {msgLen : Nat}

theorem tagAdded_iff {w' : Mctp δ} {localEid : UInt8} (heid : localEid ≠ 0)
    (halloc : mctpAllocTag w localEid eid = (w₁, some tag)) (htags : w'.reqTags = w₁.reqTags) :
    TagAdded w w' localEid eid tag ↔ w.platformNow + mctpTagTimeout < 2 ^ 64 := by
  obtain ⟨-, -, j, hdead, hw₁⟩ := mctpAllocTag_some halloc
  rw [hw₁] at htags
  dsimp only at htags
  constructor
  · rintro ⟨k, hdead', hlive, hentry, -⟩
    by_cases hkj : k = j
    · have hexpiry := congrArg MctpReqTag.expiry hentry
      rw [htags, hkj, Function.update_self] at hexpiry
      dsimp only at hexpiry
      rw [← hexpiry]
      exact Nat.mod_lt _ (by decide)
    · rw [htags, Function.update_of_ne hkj] at hlive
      exact absurd hlive hdead'
  · intro hclock
    have hentry : w'.reqTags j = ⟨localEid, eid, tag, w.platformNow + mctpTagTimeout⟩ := by
      rw [htags, Function.update_self, Nat.mod_eq_of_lt hclock]
    refine ⟨j, hdead, ?_, hentry, fun i hij _ => ?_⟩
    · rw [hentry]
      exact ⟨heid, Nat.le_add_right _ _⟩
    · rw [htags, Function.update_of_ne hij]

theorem requestAtomic_noBus (env : Env δ) {ret : Bool} (hbus : w.nBusses = 0) :
    RequestAtomic env w ret eid msg msgLen ↔ ret = false := by
  have hresult := mctpMessageTxRequest_noBus env eid msg msgLen hbus
  have hrc := congrArg Prod.fst hresult
  have htag := congrArg Prod.snd hresult
  dsimp only at hrc htag
  constructor
  · intro h
    cases ret with
    | false => rfl
    | true =>
        obtain ⟨tag, hsome, -⟩ := h.sent hrc rfl
        rw [htag] at hsome
        cases hsome
  · rintro rfl
    exact ⟨fun h => absurd hrc h, fun _ hret => by cases hret⟩

theorem requestAtomic_untagged (env : Env δ) (ret : Bool) (hbus : w.nBusses ≠ 0)
    (halloc : mctpAllocTag w (w.busses 0).eid eid = (w₁, none)) :
    RequestAtomic env w ret eid msg msgLen := by
  obtain ⟨hrc, htags⟩ := mctpMessageTxRequest_untagged env hbus halloc
  refine ⟨fun _ => htags, fun hzero => ?_⟩
  rw [hrc] at hzero
  exact absurd hzero (by decide : -ebusy ≠ 0)

/-- A message that is taken: its entry is live from now on while the clock does not wrap. -/
theorem requestAtomic_taken (env : Env δ) (heid : (w.busses 0).eid ≠ 0) {ret : Bool}
    (hbus : w.nBusses ≠ 0) (halloc : mctpAllocTag w (w.busses 0).eid eid = (w₁, some tag))
    (htakes : w.TakesMessage 0) :
    RequestAtomic env w ret eid msg msgLen ↔
      (ret = true → w.platformNow + mctpTagTimeout < 2 ^ 64) := by
  obtain ⟨htag, hrc, htags, -⟩ := mctpMessageTxRequest_tagged env hbus halloc
  have hzero := hrc.mpr htakes
  have hadded := tagAdded_iff heid halloc htags
  constructor
  · intro h hret
    obtain ⟨tag', htag', hadd⟩ := h.sent hzero hret
    rw [htag] at htag'
    cases htag'
    exact hadded.mp hadd
  · intro hclock
    exact ⟨fun hne => absurd hzero hne, fun _ hret => ⟨tag, htag, hadded.mpr (hclock hret)⟩⟩

theorem requestAtomic_refused (env : Env δ) (ret : Bool) (hbus : w.nBusses ≠ 0)
    (halloc : mctpAllocTag w (w.busses 0).eid eid = (w₁, some tag)) (htakes : ¬ w.TakesMessage 0) :
    RequestAtomic env w ret eid msg msgLen ↔ w.TagStands (w.busses 0).eid eid := by
  obtain ⟨-, hrc, htags, hround⟩ := mctpMessageTxRequest_tagged env hbus halloc
  have hne := fun hzero => htakes (hrc.mp hzero)
  rw [← mctpAllocTag_unchanged_iff halloc, ← htags, ← hround]
  exact ⟨fun h => h.failed hne, fun h => ⟨fun _ => h, fun hzero => absurd hzero hne⟩⟩

/-- **When a request is all or nothing.** -/
theorem mctpMessageTxRequest_atomic_iff (env : Env δ) (w : Mctp δ)
    (heid : w.nBusses ≠ 0 → (w.busses 0).eid ≠ 0) (ret : Bool) (eid : UInt8) (msg : MsgBuf)
    (msgLen : Nat) : RequestAtomic env w ret eid msg msgLen ↔ w.CanRequest ret eid := by
  unfold Mctp.CanRequest
  by_cases hbus : w.nBusses = 0
  · rw [if_pos hbus]
    exact requestAtomic_noBus env hbus
  · rw [if_neg hbus]
    cases halloc : mctpAllocTag w (w.busses 0).eid eid with
      | mk w₁ found =>
    cases found with
    | none =>
        have hatomic : RequestAtomic env w ret eid msg msgLen :=
          requestAtomic_untagged env ret hbus halloc
        exact iff_of_true hatomic (.inl (noTag_of_none halloc))
    | some tag =>
        rw [or_iff_right (not_noTag_of_some halloc)]
        by_cases htakes : w.TakesMessage 0
        · rw [requestAtomic_taken env (heid hbus) hbus halloc htakes]
          simp [htakes]
        · rw [requestAtomic_refused env ret hbus halloc htakes]
          simp [htakes]

end Atomic

def slowEndpoint : Mctp Nat :=
  (mctpRegisterBus everyOther (mctpSetup (fun _ => smallBinding) 0 0) 0 8).1

def byteMsg : MsgBuf := ⟨0, 1, [7]⟩

/-- The message is queued and keeps its tag. -/
theorem mctpMessageTxRequest_atomic_iff_queued :
    (slowEndpoint.nBusses ≠ 0 → (slowEndpoint.busses 0).eid ≠ 0) ∧
      RequestAtomic everyOther slowEndpoint true 9 byteMsg 1 := by
  have heid : slowEndpoint.nBusses ≠ 0 → (slowEndpoint.busses 0).eid ≠ 0 := fun _ => by decide
  refine ⟨heid,
    (mctpMessageTxRequest_atomic_iff everyOther slowEndpoint heid true 9 byteMsg 1).mpr
    (.inr (.inl ⟨?_, fun _ => ?_⟩))⟩
  · exact ⟨by decide, by decide, rfl⟩
  · decide

/-- A second message is refused while the first is pending, and one to a bus that is not started
too: each keeps a tag. Without a bus a request succeeds and has no tag. -/
theorem mctpMessageTxRequest_not_atomic :
    (mctpMessageTxRequest everyOther (mctpMessageTxRequest everyOther slowEndpoint 9 byteMsg 1).1 9
      byteMsg 1).2 = (-ebusy, some 1) ∧
      ¬ RequestAtomic everyOther (mctpMessageTxRequest everyOther slowEndpoint 9 byteMsg 1).1
        true 9 byteMsg 1 ∧
      (mctpMessageTxRequest plainEnv (mctpRegisterBus plainEnv plainInstance 0 8).1 9 byteMsg 1).2
        = (-enxio, some 0) ∧
      ¬ RequestAtomic plainEnv (mctpRegisterBus plainEnv plainInstance 0 8).1 true 9 byteMsg 1 ∧
      (mctpMessageTxRequest plainEnv plainInstance 9 byteMsg 1).2 = (0, none) ∧
      ¬ RequestAtomic plainEnv plainInstance true 9 byteMsg 1 := by
  refine ⟨by decide +kernel, fun h => ?_, by decide +kernel, fun h => ?_, rfl, fun h => ?_⟩
  · have hround := (h.failed (by decide +kernel)).2
    exact absurd hround (by decide +kernel)
  · have hround := (h.failed (by decide +kernel)).2
    exact absurd hround (by decide +kernel)
  · obtain ⟨tag, htag, -⟩ := h.sent rfl rfl
    cases htag

end LibMctp
