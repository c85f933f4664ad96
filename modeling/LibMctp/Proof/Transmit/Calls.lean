import LibMctp.Model.Instance
import LibMctp.Proof.Base.Frame
import LibMctp.Proof.Transmit.Loop

/-!
# What a call on a bus does

The calls that send are taken apart once: each either changes nothing a bus has, or changes the
state of the bus alone, or runs the transmit loop on it.
-/

namespace LibMctp

open Fragment

variable {δ : Type}

/-- Bus 0 and binding `b` point at each other, and `b` is `binding`. -/
structure Linked (w : Mctp δ) (b : Nat) (binding : MctpBinding) : Prop where
  nBusses : w.nBusses = 1
  bus : (w.busses 0).binding = some b
  mctp : (w.busses 0).mctp = some ()
  eq : w.bindings b = binding
  back : binding.bus = some 0
  owner : binding.mctp = some ()

section Linked

variable {env : Env δ} {w w' : Mctp δ} {b : Nat} {binding : MctpBinding}

theorem Linked.of_sameSetup (h : Linked w b binding) (hsame : SameSetup env w w') :
    Linked w' b binding where
  nBusses := hsame.nBusses.trans h.nBusses
  bus := (hsame.binding 0).trans h.bus
  mctp := (hsame.mctp 0).trans h.mctp
  eq := (congrFun hsame.bindings b).trans h.eq
  back := h.back
  owner := h.owner

theorem Linked.busBinding (h : Linked w b binding) : w.busBinding 0 = binding := by
  rw [Mctp.busBinding, h.bus]
  exact h.eq

theorem Linked.back_eq (h : Linked w b binding) : (w.bindings b).bus = some 0 := by
  rw [h.eq, h.back]

theorem Linked.findBusForEid (h : Linked w b binding) (dest : UInt8) :
    findBusForEid w dest = some 0 := by
  rw [LibMctp.findBusForEid, h.nBusses]
  rfl

end Linked

/-- Nothing a bus has changed. -/
structure NothingSent (w w' : Mctp δ) : Prop where
  busses : w'.busses = w.busses
  busLog : w'.busLog = w.busLog
  dev : w'.dev = w.dev
  terminated : w.hist.Terminated → w'.hist.Terminated

theorem NothingSent.refl (w : Mctp δ) : NothingSent w w := ⟨rfl, rfl, rfl, id⟩

theorem NothingSent.trans {w w' w'' : Mctp δ} (h : NothingSent w w') (h' : NothingSent w' w'') :
    NothingSent w w'' :=
  ⟨h'.busses.trans h.busses, h'.busLog.trans h.busLog, h'.dev.trans h.dev,
    h'.terminated ∘ h.terminated⟩

theorem mctpMsgFree_nothingSent (w : Mctp δ) (ptr : MsgBuf) (mctp : Option Unit) :
    NothingSent w (mctpMsgFree w ptr mctp) :=
  ⟨rfl, rfl, rfl, fun h => h.mctpMsgFree ptr mctp⟩

theorem nothingSent_assert (w : Mctp δ) (holds : Bool) (fault : Fault) (hfault : fault ≠ .hang) :
    NothingSent w (w.withHist (w.hist.assert holds fault)) :=
  ⟨rfl, rfl, rfl, fun h => h.assert holds hfault⟩

theorem mctpMsgAlloc_nothingSent (env : Env δ) (w : Mctp δ) (size : Nat) (mctp : Option Unit) :
    NothingSent w (mctpMsgAlloc env w size mctp).1 := by
  unfold mctpMsgAlloc
  dsimp only
  split
  · exact ⟨rfl, rfl, rfl, fun h => h.deref mctp⟩
  · exact ⟨rfl, rfl, rfl, fun h => h.deref mctp⟩

theorem mctpMsgDup_nothingSent (env : Env δ) (w : Mctp δ) (msg : List UInt8) (mctp : Option Unit) :
    NothingSent w (mctpMsgDup env w msg mctp).1 := by
  have halloc := mctpMsgAlloc_nothingSent env w msg.length mctp
  unfold mctpMsgDup
  split <;> rename_i hcase <;> rw [hcase] at halloc <;> exact halloc

theorem mctpMsgDup_bytes {env : Env δ} {w w' : Mctp δ} {msg : List UInt8} {mctp : Option Unit}
    {copy : MsgBuf} (h : mctpMsgDup env w msg mctp = (w', some copy)) : copy.bytes = msg := by
  unfold mctpMsgDup at h
  split at h
  · cases h
  · rw [← Option.some.inj (Prod.mk.inj h).2]

/-! ### The calls -/

variable (env : Env δ)

/-- The loop of `mctp_send_tx_queue` ends, and has sent as `Sends` says. -/
theorem mctpSendTxQueue_sends (w : Mctp δ) (i : Fin 2) {n : Nat}
    (hchunk : 0 < (w.busBinding i).chunk) (hok : (w.busses i).Ok)
    (hseq : (w.busses i).txSeq.toNat = n % 4) :
    ∃ s', Sends env ((w.busses i).binding.getD 0) (w.busBinding i) n (w.busIo i) s' ∧
      mctpSendTxQueue env w i = w.putBusIo i s' := by
  refine ⟨_, mctpSendTxQueueLoop_sends hchunk _ n (w.busIo i) hok hseq ?_, rfl⟩
  rw [MctpBus.rest]
  split
  · exact Nat.zero_le _
  · rename_i msg hmsg
    have hlen := hok.length msg hmsg
    have hcut := length_cut_le (m := 4) (n := (w.busBinding i).chunk)
      (decide ((w.busses i).txMsgpos = 0)) n (msg.bytes.drop (w.busses i).txMsgpos)
    rw [List.length_drop, hlen] at hcut
    exact hcut

/-- The message was taken by an idle bus, and as much of it sent as the binding took. -/
structure TxTaken (env : Env δ) (w : Mctp δ) (i : Fin 2) (msg : Message) (w' : Mctp δ) : Prop where
  state : (w.busses i).state ≠ .constructed
  tag : msg.tag &&& mctpHdrTagMask = msg.tag
  mtu : mctpBtu ≤ mctpBodySize (w.busBinding i).pktSize
  free : (w.busses i).txMsg = none
  sent : ∃ w₁ buf, NothingSent w w₁ ∧ TxOnly env w w₁ ∧ buf.bytes = msg.bytes ∧
    w' = mctpSendTxQueue env (w₁.take i msg.src msg.dest msg.tagOwner msg.tag buf
      msg.bytes.length) i

theorem mctpSendTxQueue_accepted (w : Mctp δ) (i : Fin 2) :
    ((mctpSendTxQueue env w i).busLog i).accepted = (w.busLog i).accepted := by
  dsimp only [mctpSendTxQueue, Mctp.putBusIo]
  rw [Function.update_self]
  exact (mctpSendTxQueueLoop_frame env _ _ _ _ (w.busIo i)).accepted

theorem TxTaken.accepted {env : Env δ} {w w' : Mctp δ} {i : Fin 2} {msg : Message}
    (h : TxTaken env w i msg w') :
    (w'.busLog i).accepted = (w.busLog i).accepted ++ [msg] := by
  obtain ⟨w₁, buf, hsent, -, hbuf, rfl⟩ := h.sent
  rw [mctpSendTxQueue_accepted]
  simp [Mctp.take, BusLog.accept, hsent.busLog, hbuf]

theorem mctpMessageTxOnBus_cases {w w' : Mctp δ} {i : Fin 2} (msg : Message) {buf : MsgBuf}
    {rc : Int} (hbuf : buf.bytes = msg.bytes)
    (h : mctpMessageTxOnBus env w i msg.src msg.dest msg.tagOwner msg.tag buf msg.bytes.length
      = (w', rc)) :
    rc ≠ 0 ∧ NothingSent w w' ∧ (rc = -ebusy → (w.busses i).txMsg.isSome = true) ∨
      rc = 0 ∧ TxTaken env w i msg w' := by
  have hassert := nothingSent_assert w (decide (mctpBodySize (w.busBinding i).pktSize ≥ mctpBtu))
    .assertValidMtu (by decide)
  unfold mctpMessageTxOnBus mctpMessageTxErr at h
  dsimp only at h
  split at h
  · obtain ⟨rfl, rfl⟩ := Prod.mk.inj h
    exact .inl ⟨by decide, mctpMsgFree_nothingSent w _ _, fun h => absurd h (by decide)⟩
  · rename_i hstate
    split at h
    · obtain ⟨rfl, rfl⟩ := Prod.mk.inj h
      exact .inl ⟨by decide, mctpMsgFree_nothingSent w _ _, fun h => absurd h (by decide)⟩
    · rename_i htag
      split at h
      · obtain ⟨rfl, rfl⟩ := Prod.mk.inj h
        exact .inl ⟨by decide, hassert.trans (mctpMsgFree_nothingSent _ _
          _), fun h => absurd h (by decide)⟩
      · rename_i hmtu
        split at h
        · rename_i hbusy
          obtain ⟨rfl, rfl⟩ := Prod.mk.inj h
          exact .inl ⟨by decide, hassert.trans (mctpMsgFree_nothingSent _ _ _), fun _ => hbusy⟩
        · rename_i hfree
          obtain ⟨rfl, rfl⟩ := Prod.mk.inj h
          exact .inr ⟨rfl, hstate, not_not.mp htag, by simpa using hmtu, by simpa using hfree,
            _, buf, hassert, txOnly_withHist env w (by simp) (by simp), hbuf, rfl⟩

/-- An idle bus that was started takes every message whose tag is one. -/
theorem mctpMessageTxOnBus_taken {w : Mctp δ} {i : Fin 2} (msg : Message) {buf : MsgBuf}
    (hbuf : buf.bytes = msg.bytes) (hstate : (w.busses i).state ≠ .constructed)
    (htag : msg.tag &&& mctpHdrTagMask = msg.tag)
    (hmtu : mctpBtu ≤ mctpBodySize (w.busBinding i).pktSize) (hfree : (w.busses i).txMsg = none) :
    ∃ w', mctpMessageTxOnBus env w i msg.src msg.dest msg.tagOwner msg.tag buf msg.bytes.length
      = (w', 0) ∧
      TxTaken env w i msg w' := by
  have hvalid : decide (mctpBodySize (w.busBinding i).pktSize ≥ mctpBtu) = true :=
    decide_eq_true hmtu
  refine ⟨_, ?_, hstate, htag, hmtu, hfree, _, buf,
    nothingSent_assert w (decide (mctpBodySize (w.busBinding i).pktSize ≥ mctpBtu))
    .assertValidMtu (by decide),
    txOnly_withHist env w (by simp) (by simp), hbuf, rfl⟩
  unfold mctpMessageTxOnBus
  dsimp only
  rw [if_neg hstate, if_neg (not_not.mpr htag), if_neg (by rw [hvalid]; decide),
    if_neg (by rw [hfree]; decide)]

theorem mctpMessageTxAlloced_cases {w w' : Mctp δ} {b : Nat} {binding : MctpBinding}
    (hlinked : Linked w b binding) {eid : UInt8} {tagOwner : Bool} {msgTag : UInt8} {buf : MsgBuf}
    {bytes : List UInt8} {rc : Int} (hbuf : buf.bytes = bytes)
    (h : mctpMessageTxAlloced env w eid tagOwner msgTag buf bytes.length = (w', rc)) :
    rc ≠ 0 ∧ NothingSent w w' ∧ (rc = -ebusy → (w.busses 0).txMsg.isSome = true) ∨
      rc = 0 ∧ TxTaken env w 0 ⟨(w.busses 0).eid, eid, tagOwner, msgTag, bytes⟩ w' := by
  unfold mctpMessageTxAlloced at h
  rw [hlinked.findBusForEid] at h
  split at h
  · obtain ⟨rfl, rfl⟩ := Prod.mk.inj h
    exact .inl ⟨by decide, mctpMsgFree_nothingSent w _ _, fun h => absurd h (by decide)⟩
  · exact mctpMessageTxOnBus_cases env ⟨(w.busses 0).eid, eid, tagOwner, msgTag, bytes⟩ hbuf h

/-- A message is refused and nothing changes, or it is taken. -/
theorem mctpMessageTx_cases {w w' : Mctp δ} {b : Nat} {binding : MctpBinding}
    (hlinked : Linked w b binding) {eid : UInt8} {tagOwner : Bool} {msgTag : UInt8}
    {bytes : List UInt8} {rc : Int} (h : mctpMessageTx env w eid tagOwner msgTag bytes = (w', rc)) :
    rc ≠ 0 ∧ NothingSent w w' ∧ (rc = -ebusy → (w.busses 0).txMsg.isSome = true) ∨
      rc = 0 ∧ TxTaken env w 0 ⟨(w.busses 0).eid, eid, tagOwner, msgTag, bytes⟩ w' := by
  have hdup := mctpMsgDup_nothingSent env w bytes (some ())
  have honly := mctpMsgDup_txOnly env w bytes (some ())
  unfold mctpMessageTx at h
  split at h
  · rename_i hcase
    rw [hcase] at hdup
    obtain ⟨rfl, rfl⟩ := Prod.mk.inj h
    exact .inl ⟨by decide, hdup, fun h => absurd h (by decide)⟩
  · rename_i w₁ copy hcase
    rw [hcase] at hdup honly
    have hlinked₁ := hlinked.of_sameSetup honly.toSameSetup
    obtain ⟨hrc, hsent, hbusy⟩ | ⟨hrc, htaken⟩ :=
      mctpMessageTxAlloced_cases env hlinked₁ (mctpMsgDup_bytes hcase) h
    · rw [hdup.busses] at hbusy
      exact .inl ⟨hrc, hdup.trans hsent, hbusy⟩
    · obtain ⟨hstate, htag, hmtu, hfree, w₂, buf, hsent, honly₂, hbuf, hw'⟩ := htaken
      rw [hdup.busses] at hstate hfree hbuf hw'
      rw [honly.busBinding 0] at hmtu
      exact .inr ⟨hrc, hstate, htag, hmtu, hfree, w₂, buf, hdup.trans hsent,
        honly.trans honly₂, hbuf, hw'⟩

variable {env} in
/-- An idle bus that was started takes every message with a buffer and a tag. -/
theorem mctpMessageTx_taken {w : Mctp δ} {b : Nat} {binding : MctpBinding}
    (hlinked : Linked w b binding) (halloc : env.msgAlloc w.nMsgAlloc = true)
    (hstate : (w.busses 0).state ≠ .constructed) (hmtu : mctpPacketSize mctpBtu ≤ binding.pktSize)
    (hidle : (w.busses 0).txMsg = none) (eid : UInt8) (tagOwner : Bool) {msgTag : UInt8}
    (htag : msgTag &&& mctpHdrTagMask = msgTag) (bytes : List UInt8) :
    ∃ w', mctpMessageTx env w eid tagOwner msgTag bytes = (w', 0) ∧
      TxTaken env w 0 ⟨(w.busses 0).eid, eid, tagOwner, msgTag, bytes⟩ w' := by
  cases hcall : mctpMessageTx env w eid tagOwner msgTag bytes with
    | mk w' rc =>
  obtain ⟨hrc, -, -⟩ | ⟨rfl, htaken⟩ := mctpMessageTx_cases env hlinked hcall
  · exfalso
    have hsent := mctpMsgDup_nothingSent env w bytes (some ())
    have honly := mctpMsgDup_txOnly env w bytes (some ())
    have hcopy : ∃ w₁ copy, mctpMsgDup env w bytes (some ()) = (w₁, some copy) := by
      unfold mctpMsgDup mctpMsgAlloc
      rw [if_pos halloc]
      exact ⟨_, _, rfl⟩
    obtain ⟨w₁, copy, hdup⟩ := hcopy
    rw [hdup] at hsent honly
    have hlinked₁ := hlinked.of_sameSetup honly.toSameSetup
    unfold mctpPacketSize mctpBtu at hmtu
    have hbody : mctpBtu ≤ mctpBodySize (w₁.busBinding 0).pktSize := by
      rw [hlinked₁.busBinding, mctpBodySize_eq binding (by omega)]
      unfold mctpBtu MctpBinding.chunk
      omega
    obtain ⟨w₂, hsend, -⟩ :=
      mctpMessageTxOnBus_taken env ⟨(w₁.busses 0).eid, eid, tagOwner, msgTag, bytes⟩
      (mctpMsgDup_bytes hdup)
      (by rw [hsent.busses]; exact hstate) htag hbody (by rw [hsent.busses]; exact hidle)
    unfold mctpMessageTx mctpMessageTxAlloced at hcall
    rw [hdup] at hcall
    dsimp only at hcall
    rw [if_neg (not_not.mpr htag), hlinked₁.findBusForEid] at hcall
    exact hrc (Prod.mk.inj (hcall.symm.trans hsend)).2
  · exact ⟨w', rfl, htaken⟩

/-- The state of the bus alone changes, or an enabled bus goes on sending. -/
theorem mctpBindingSetTxEnabled_cases {w : Mctp δ} {b : Nat} {binding : MctpBinding}
    (hlinked : Linked w b binding) (enable : Bool) :
    (∃ state, mctpBindingSetTxEnabled env w b enable
      = w.setBus 0 { w.busses 0 with state := state } ∧
        (state = .txEnabled → (w.busses 0).state ≠ .txDisabled) ∧
        ((w.busses 0).state = .constructed → state ≠ .constructed →
          mctpPacketSize mctpBtu ≤ binding.pktSize) ∧
        (state = .constructed → (w.busses 0).state = .constructed)) ∨
      (w.busses 0).state = .txDisabled ∧
        mctpBindingSetTxEnabled env w b enable
          = mctpSendTxQueue env (w.setBus 0 { w.busses 0 with state := .txEnabled }) 0 := by
  have hsame : w = w.setBus 0 { w.busses 0 with state := (w.busses 0).state } := by
    rw [Mctp.setBus, Function.update_eq_self]
  unfold mctpBindingSetTxEnabled
  rw [hlinked.back_eq]
  dsimp only
  split
  · rename_i hstate
    split
    · refine .inl ⟨(w.busses 0).state, hsame, ?_, ?_, ?_⟩ <;> simp [hstate]
    · split
      · refine .inl ⟨(w.busses 0).state, hsame, ?_, ?_, ?_⟩ <;> simp [hstate]
      · rename_i hsize
        rw [hlinked.eq] at hsize
        refine .inl ⟨.txEnabled, rfl, ?_, fun _ _ => by omega, ?_⟩ <;> simp [hstate]
  · rename_i hstate
    split
    · refine .inl ⟨(w.busses 0).state, hsame, ?_, ?_, ?_⟩ <;> simp [hstate]
    · refine .inl ⟨.txDisabled, rfl, ?_, ?_, ?_⟩ <;> simp [hstate]
  · rename_i hstate
    split
    · refine .inl ⟨(w.busses 0).state, hsame, ?_, ?_, ?_⟩ <;> simp [hstate]
    · exact .inr ⟨hstate, rfl⟩

theorem mctpSendTxQueue_of_idle {w : Mctp δ} {i : Fin 2} (hidle : (w.busses i).txMsg = none) :
    mctpSendTxQueue env w i = w := by
  have hloop : ∀ rounds b binding capture, mctpSendTxQueueLoop env b binding capture rounds (w.busIo
      i) = w.busIo i := by
    intro rounds b binding capture
    have hmsg : (w.busIo i).bus.txMsg = none := hidle
    cases rounds with
    | zero => rw [mctpSendTxQueueLoop, if_neg (by simp [hmsg])]
    | succ rounds => simp [mctpSendTxQueueLoop, mctpNextTxPkt, hmsg]
  rw [mctpSendTxQueue, hloop]
  simp [Mctp.putBusIo, Mctp.busIo]

/-- On an idle bus, enabling and disabling change its state alone. -/
theorem mctpBindingSetTxEnabled_of_idle {w : Mctp δ} {b : Nat} {binding : MctpBinding}
    (hlinked : Linked w b binding) (hidle : (w.busses 0).txMsg = none) (enable : Bool) :
    ∃ state, mctpBindingSetTxEnabled env w b enable
      = w.setBus 0 { w.busses 0 with state := state } := by
  obtain ⟨state, hw', _⟩ | ⟨_, hw'⟩ := mctpBindingSetTxEnabled_cases env hlinked enable
  · exact ⟨state, hw'⟩
  · rw [mctpSendTxQueue_of_idle env (by simpa [Mctp.setBus] using hidle)] at hw'
    exact ⟨.txEnabled, hw'⟩

/-! ### Registration -/

/-- The instance `w` with bus 0 made for binding `b`, before the binding is started. -/
structure Registered (w : Mctp δ) (b : Nat) (eid : UInt8) (w₁ : Mctp δ) : Prop where
  linked : Linked w₁ b { w.bindings b with bus := some 0, mctp := some () }
  bus : w₁.busses 0 = { eid := eid, binding := some b, mctp := some () }
  busLog : w₁.busLog 0 = {}
  routePolicy : w₁.routePolicy = .endpoint
  msgCtxs : w₁.msgCtxs = w.msgCtxs
  reqTags : w₁.reqTags = w.reqTags
  maxMessageSize : w₁.maxMessageSize = w.maxMessageSize
  platformNow : w₁.platformNow = w.platformNow
  handed : w₁.hist.handed = w.hist.handed
  terminated : w.hist.Terminated → w₁.hist.Terminated

/-- What is kept by every call the start of a binding makes holds once it has started. -/
theorem bindingStart_invariant {w : Mctp δ} {b : Nat} {P : Mctp δ → Prop}
    (hinit : ∀ dev, P { w with dev := dev })
    (hset : ∀ w₁ enable, P w₁ → P (mctpBindingSetTxEnabled env w₁ b enable)) :
    P (bindingStart env w b).1 := by
  have hfold : ∀ (enables : List Bool) (w₁ : Mctp δ), P w₁ →
      P (enables.foldl (fun w enable => mctpBindingSetTxEnabled env w b enable) w₁) := by
    intro enables
    induction enables with
    | nil => exact fun w₁ hw₁ => hw₁
    | cons enable enables ih => exact fun w₁ hw₁ => ih _ (hset w₁ enable hw₁)
  unfold bindingStart
  split
  · exact hinit w.dev
  · exact hfold _ _ (hinit _)

/-- What holds of the registered bus and is kept by every call the start of the binding makes holds
once the registration succeeds. -/
theorem mctpRegisterBus_invariant {w w₀ : Mctp δ} {b : Nat} {eid : UInt8} {rc : Int}
    (h : mctpRegisterBus env w b eid = (w₀, rc)) (hrc : 0 ≤ rc) (P : Mctp δ → Prop)
    (hinit : ∀ w₁, Registered w b eid w₁ → P w₁)
    (hset : ∀ w₁ enable, P w₁ → P (mctpBindingSetTxEnabled env w₁ b enable)) : P w₀ := by
  have hreg : ∀ dev, P { w.initBus b eid with dev := dev } := by
    intro dev
    refine hinit _ ⟨⟨rfl, ?_, ?_, ?_, rfl, rfl⟩, ?_, ?_, rfl, rfl, rfl, rfl, rfl, ?_, ?_⟩
    · simp [Mctp.initBus, Mctp.linkBinding, Mctp.setBinding, Mctp.setBus]
    · simp [Mctp.initBus, Mctp.linkBinding, Mctp.setBinding, Mctp.setBus]
    · simp [Mctp.initBus, Mctp.linkBinding, Mctp.setBinding, Mctp.setBus]
    · simp [Mctp.initBus, Mctp.linkBinding, Mctp.setBinding, Mctp.setBus]
    · simp [Mctp.initBus, Mctp.linkBinding, Mctp.setBinding, Mctp.setBus]
    · simp [Mctp.initBus, Mctp.linkBinding, Mctp.setBinding, Mctp.setBus]
    · intro hterm
      exact (hterm.assert _ (by decide)).assert _ (by decide)
  have hstarted : P (bindingStart env (w.initBus b eid) b).1 := bindingStart_invariant env hreg hset
  unfold mctpRegisterBus at h
  dsimp only at h
  split at h
  · rename_i hneg
    rw [(Prod.mk.inj h).2] at hneg
    omega
  · rw [← (Prod.mk.inj h).1]
    exact hstarted

end LibMctp
