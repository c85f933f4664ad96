import LibMctp.Model.Receive
import Mathlib.Algebra.Order.Ring.Nat
import Mathlib.Logic.Relation

/-!
# What receiving and transmitting leave alone

Three relations between the state before and after a call. `SameSetup` holds across everything that
sends or receives: the configuration and the links between busses and bindings stay, and the device
has only been given packets. `TxOnly` holds across everything that only sends: also the reassembly
contexts, the request tags, the endpoint ids and what was handed up stay. `RxOnly` sits between the
two, for the handling of one complete message, which may free a request tag, set an endpoint id and
make upcalls.
-/

namespace LibMctp

variable {δ : Type}

/-- The device after one more packet. -/
def DevStep (env : Env δ) (d d' : δ) : Prop := ∃ b pkt, d' = (env.tx b d pkt).1

structure IoFrame (env : Env δ) (s s' : BusIo δ) : Prop where
  eid : s'.bus.eid = s.bus.eid
  binding : s'.bus.binding = s.bus.binding
  mctp : s'.bus.mctp = s.bus.mctp
  accepted : s'.log.accepted = s.log.accepted
  handed : s'.hist.handed = s.hist.handed
  upcalls : s'.hist.upcalls = s.hist.upcalls
  dev : Relation.ReflTransGen (DevStep env) s.dev s'.dev

structure SameSetup (env : Env δ) (w w' : Mctp δ) : Prop where
  nBusses : w'.nBusses = w.nBusses
  bindings : w'.bindings = w.bindings
  messageRx : w'.messageRx = w.messageRx
  capture : w'.capture = w.capture
  routePolicy : w'.routePolicy = w.routePolicy
  maxMessageSize : w'.maxMessageSize = w.maxMessageSize
  control : w'.control = w.control
  platformNow : w'.platformNow = w.platformNow
  nPktAlloc : w'.nPktAlloc = w.nPktAlloc
  binding : ∀ i, (w'.busses i).binding = (w.busses i).binding
  mctp : ∀ i, (w'.busses i).mctp = (w.busses i).mctp
  dev : Relation.ReflTransGen (DevStep env) w.dev w'.dev

structure RxOnly (env : Env δ) (w w' : Mctp δ) : Prop extends SameSetup env w w' where
  msgCtxs : w'.msgCtxs = w.msgCtxs
  tagRoundRobin : w'.tagRoundRobin = w.tagRoundRobin
  handed : w'.hist.handed = w.hist.handed

structure TxOnly (env : Env δ) (w w' : Mctp δ) : Prop extends RxOnly env w w' where
  eid : ∀ i, (w'.busses i).eid = (w.busses i).eid
  reqTags : w'.reqTags = w.reqTags
  upcalls : w'.hist.upcalls = w.hist.upcalls

variable {env : Env δ}

theorem IoFrame.refl (s : BusIo δ) : IoFrame env s s := ⟨rfl, rfl, rfl, rfl, rfl, rfl, .refl⟩

theorem IoFrame.trans {s t u : BusIo δ} (h : IoFrame env s t) (h' : IoFrame env t u) :
    IoFrame env s u :=
  ⟨h'.eid.trans h.eid, h'.binding.trans h.binding, h'.mctp.trans h.mctp,
    h'.accepted.trans h.accepted,
    h'.handed.trans h.handed, h'.upcalls.trans h.upcalls, h.dev.trans h'.dev⟩

theorem SameSetup.refl (w : Mctp δ) : SameSetup env w w :=
  ⟨rfl, rfl, rfl, rfl, rfl, rfl, rfl, rfl, rfl, fun _ => rfl, fun _ => rfl, .refl⟩

theorem SameSetup.trans {w w' w'' : Mctp δ} (h : SameSetup env w w') (h' : SameSetup env w' w'') :
    SameSetup env w w'' where
  nBusses := h'.nBusses.trans h.nBusses
  bindings := h'.bindings.trans h.bindings
  messageRx := h'.messageRx.trans h.messageRx
  capture := h'.capture.trans h.capture
  routePolicy := h'.routePolicy.trans h.routePolicy
  maxMessageSize := h'.maxMessageSize.trans h.maxMessageSize
  control := h'.control.trans h.control
  platformNow := h'.platformNow.trans h.platformNow
  nPktAlloc := h'.nPktAlloc.trans h.nPktAlloc
  binding := fun i => (h'.binding i).trans (h.binding i)
  mctp := fun i => (h'.mctp i).trans (h.mctp i)
  dev := h.dev.trans h'.dev

theorem RxOnly.refl (w : Mctp δ) : RxOnly env w w := ⟨.refl w, rfl, rfl, rfl⟩

theorem RxOnly.trans {w w' w'' : Mctp δ} (h : RxOnly env w w') (h' : RxOnly env w' w'') :
    RxOnly env w w'' :=
  ⟨h.toSameSetup.trans h'.toSameSetup, h'.msgCtxs.trans h.msgCtxs,
    h'.tagRoundRobin.trans h.tagRoundRobin, h'.handed.trans h.handed⟩

theorem TxOnly.refl (w : Mctp δ) : TxOnly env w w := ⟨.refl w, fun _ => rfl, rfl, rfl⟩

theorem TxOnly.trans {w w' w'' : Mctp δ} (h : TxOnly env w w') (h' : TxOnly env w' w'') :
    TxOnly env w w'' :=
  ⟨h.toRxOnly.trans h'.toRxOnly, fun i => (h'.eid i).trans (h.eid i), h'.reqTags.trans h.reqTags,
    h'.upcalls.trans h.upcalls⟩

/-- What every packet given to the device keeps true of it stays true. -/
theorem SameSetup.dev_invariant {w w' : Mctp δ} (h : SameSetup env w w') {P : δ → Prop}
    (htx : ∀ b d pkt, P d → P (env.tx b d pkt).1) (hw : P w.dev) : P w'.dev := by
  have hdev := h.dev
  generalize w'.dev = d at hdev ⊢
  induction hdev with
  | refl => exact hw
  | tail _ hstep ih =>
      obtain ⟨b, pkt, rfl⟩ := hstep
      exact htx b _ pkt ih

theorem SameSetup.busBinding {w w' : Mctp δ} (h : SameSetup env w w') (i : Fin 2) :
    w'.busBinding i = w.busBinding i := by
  rw [Mctp.busBinding, Mctp.busBinding, h.binding i, h.bindings]

/-! ### The history -/

section History

variable (hist : History)

@[simp] theorem History.handed_fault (fault : Fault) :
    (hist.fault fault).handed = hist.handed := rfl
@[simp] theorem History.upcalls_fault (fault : Fault) :
    (hist.fault fault).upcalls = hist.upcalls := rfl

@[simp] theorem History.handed_deref (mctp : Option Unit) :
    (hist.deref mctp).handed = hist.handed := by
  cases mctp <;> rfl

@[simp] theorem History.upcalls_deref (mctp : Option Unit) :
    (hist.deref mctp).upcalls = hist.upcalls := by
  cases mctp <;> rfl

@[simp] theorem History.handed_assert (holds : Bool) (fault : Fault) :
    (hist.assert holds fault).handed = hist.handed := by
  cases holds <;> rfl

@[simp] theorem History.upcalls_assert (holds : Bool) (fault : Fault) :
    (hist.assert holds fault).upcalls = hist.upcalls := by
  cases holds <;> rfl

@[simp] theorem History.handed_capture (set : Bool) (pkt : MctpPktbuf) (outgoing : Bool) :
    (hist.capture set pkt outgoing).handed = hist.handed := by
  cases set <;> rfl

@[simp] theorem History.upcalls_capture (set : Bool) (pkt : MctpPktbuf) (outgoing : Bool) :
    (hist.capture set pkt outgoing).upcalls = hist.upcalls := by
  cases set <;> rfl

@[simp] theorem History.handed_mctpMsgFree (ptr : MsgBuf) (mctp : Option Unit) :
    (hist.mctpMsgFree ptr mctp).handed = hist.handed := hist.handed_deref mctp

@[simp] theorem History.upcalls_mctpMsgFree (ptr : MsgBuf) (mctp : Option Unit) :
    (hist.mctpMsgFree ptr mctp).upcalls = hist.upcalls := hist.upcalls_deref mctp

theorem History.heap_deref (mctp : Option Unit) : (hist.deref mctp).heap = hist.heap := by
  cases mctp <;> rfl

theorem History.heap_assert (holds : Bool) (fault : Fault) :
    (hist.assert holds fault).heap = hist.heap := by
  cases holds <;> rfl

end History

/-! ### Transmitting on a bus -/

variable (env)

section Bus

variable (b : Nat) (binding : MctpBinding) (capture : Bool)

theorem mctpNextTxPkt_some {bus bus' : MctpBus} {pkt : MctpPktbuf}
    (h : mctpNextTxPkt binding bus = some (pkt, bus')) :
    ∃ n, bus' = { bus with txPktlen := n } := by
  unfold mctpNextTxPkt at h
  split at h
  · cases h
  · exact ⟨_, (congrArg Prod.snd (Option.some.inj h)).symm⟩

theorem mctpPacketTx_frame (s : BusIo δ) (pkt : MctpPktbuf) :
    IoFrame env s (mctpPacketTx env b binding capture s pkt).1 := by
  unfold mctpPacketTx
  split
  · exact .refl s
  · have hbus : ∀ disables : Bool, (if disables then s.bus.txDisable else s.bus).eid = s.bus.eid ∧
        (if disables then s.bus.txDisable else s.bus).binding = s.bus.binding ∧
        (if disables then s.bus.txDisable else s.bus).mctp = s.bus.mctp := by
      intro disables
      unfold MctpBus.txDisable
      split
      · split <;> exact ⟨rfl, rfl, rfl⟩
      · exact ⟨rfl, rfl, rfl⟩
    obtain ⟨heid, hbinding, hmctp⟩ := hbus (env.tx b s.dev pkt).2.disables
    exact ⟨heid, hbinding, hmctp, rfl, by simp, by simp, .single ⟨b, pkt, rfl⟩⟩

theorem mctpTxComplete_frame (s : BusIo δ) : IoFrame env s (mctpTxComplete binding s) := by
  unfold mctpTxComplete
  split
  · exact .refl s
  · dsimp only
    split
    · exact ⟨rfl, rfl, rfl, rfl, by simp, by simp, .refl⟩
    · exact ⟨rfl, rfl, rfl, rfl, rfl, rfl, .refl⟩

theorem mctpSendTxQueueLoop_frame (rounds : Nat) (s : BusIo δ) :
    IoFrame env s (mctpSendTxQueueLoop env b binding capture rounds s) := by
  induction rounds generalizing s with
  | zero =>
      rw [mctpSendTxQueueLoop]
      split
      · exact ⟨rfl, rfl, rfl, rfl, rfl, rfl, .refl⟩
      · exact .refl s
  | succ rounds ih =>
      rw [mctpSendTxQueueLoop]
      split
      · exact .refl s
      · split
        · exact .refl s
        · rename_i pkt bus hnext
          obtain ⟨n, rfl⟩ := mctpNextTxPkt_some binding hnext
          have hpkt : IoFrame env s { s with bus := { s.bus with txPktlen := n } } :=
            ⟨rfl, rfl, rfl, rfl, rfl, rfl, .refl⟩
          have htx := hpkt.trans
            (mctpPacketTx_frame env b binding capture
              { s with bus := { s.bus with txPktlen := n } } pkt)
          have hdone := htx.trans (mctpTxComplete_frame env binding _)
          dsimp only
          split
          · exact hdone.trans (ih _)
          · split
            · exact htx
            · exact hdone

end Bus

/-- Where one bus was written, a field that is as it was there is as it was on each bus. -/
theorem bus_update {α : Type} (f : MctpBus → α) {busses : Fin 2 → MctpBus} {i : Fin 2}
    {bus : MctpBus} (h : f bus = f (busses i)) (k : Fin 2) :
    f (Function.update busses i bus k) = f (busses k) := by
  by_cases hk : k = i
  · rw [hk, Function.update_self]
    exact h
  · rw [Function.update_of_ne hk]

theorem txOnly_putBusIo {w : Mctp δ} {i : Fin 2} {s : BusIo δ} (h : IoFrame env (w.busIo i) s) :
    TxOnly env w (w.putBusIo i s) :=
  ⟨⟨⟨rfl, rfl, rfl, rfl, rfl, rfl, rfl, rfl, rfl, bus_update MctpBus.binding h.binding,
    bus_update MctpBus.mctp h.mctp, h.dev⟩,
    rfl, rfl, h.handed⟩, bus_update MctpBus.eid h.eid, rfl, h.upcalls⟩

theorem mctpSendTxQueue_txOnly (w : Mctp δ) (i : Fin 2) : TxOnly env w (mctpSendTxQueue env w i) :=
  txOnly_putBusIo env (mctpSendTxQueueLoop_frame env _ _ _ _ _)

theorem txOnly_setState (w : Mctp δ) (i : Fin 2) (state : MctpBusState) :
    TxOnly env w (w.setBus i { w.busses i with state := state }) :=
  ⟨⟨⟨rfl, rfl, rfl, rfl, rfl, rfl, rfl, rfl, rfl, bus_update MctpBus.binding rfl,
    bus_update MctpBus.mctp rfl, .refl⟩, rfl, rfl, rfl⟩, bus_update MctpBus.eid rfl, rfl, rfl⟩

theorem txOnly_take (w : Mctp δ) (i : Fin 2) (src dest : UInt8) (tagOwner : Bool) (msgTag : UInt8)
    (msg : MsgBuf) (msgLen : Nat) : TxOnly env w (w.take i src dest tagOwner msgTag msg msgLen) :=
  ⟨⟨⟨rfl, rfl, rfl, rfl, rfl, rfl, rfl, rfl, rfl, bus_update MctpBus.binding rfl,
    bus_update MctpBus.mctp rfl, .refl⟩, rfl, rfl, rfl⟩, bus_update MctpBus.eid rfl, rfl, rfl⟩

/-! The busses and logs after a bus took a message, and after its queue was worked on. -/

section Take

variable (w : Mctp δ) (i : Fin 2) (src dest : UInt8) (tagOwner : Bool) (msgTag : UInt8)
  (msg : MsgBuf) (msgLen : Nat)

theorem Mctp.take_bus : (w.take i src dest tagOwner msgTag msg msgLen).busses i
    = (w.busses i).take src dest tagOwner msgTag msg msgLen :=
  Function.update_self ..

theorem Mctp.take_log : (w.take i src dest tagOwner msgTag msg msgLen).busLog i
    = (w.busLog i).accept ⟨src, dest, tagOwner, msgTag, msg.bytes.take msgLen⟩ :=
  Function.update_self ..

theorem Mctp.take_others {k : Fin 2} (hk : k ≠ i) :
    (w.take i src dest tagOwner msgTag msg msgLen).busses k = w.busses k ∧
    (w.take i src dest tagOwner msgTag msg msgLen).busLog k = w.busLog k :=
  ⟨Function.update_of_ne hk _ _, Function.update_of_ne hk _ _⟩

theorem Mctp.putBusIo_others (s : BusIo δ) {k : Fin 2} (hk : k ≠ i) :
    (w.putBusIo i s).busses k = w.busses k ∧ (w.putBusIo i s).busLog k = w.busLog k :=
  ⟨Function.update_of_ne hk _ _, Function.update_of_ne hk _ _⟩

end Take

theorem txOnly_withHist (w : Mctp δ) {hist : History} (hhanded : hist.handed = w.hist.handed)
    (hupcalls : hist.upcalls = w.hist.upcalls) : TxOnly env w (w.withHist hist) :=
  ⟨⟨⟨rfl, rfl, rfl, rfl, rfl, rfl, rfl, rfl, rfl, fun _ => rfl, fun _ => rfl, .refl⟩,
    rfl, rfl, hhanded⟩,
    fun _ => rfl, rfl, hupcalls⟩

theorem rxOnly_upcall (w : Mctp δ) (call : Upcall) : RxOnly env w (w.upcall call) :=
  ⟨⟨rfl, rfl, rfl, rfl, rfl, rfl, rfl, rfl, rfl, fun _ => rfl, fun _ => rfl, .refl⟩, rfl, rfl, rfl⟩

theorem mctpMsgFree_txOnly (w : Mctp δ) (ptr : MsgBuf) (mctp : Option Unit) :
    TxOnly env w (mctpMsgFree w ptr mctp) :=
  txOnly_withHist env w (by simp) (by simp)

theorem mctpMsgAlloc_txOnly (w : Mctp δ) (size : Nat) (mctp : Option Unit) :
    TxOnly env w (mctpMsgAlloc env w size mctp).1 := by
  unfold mctpMsgAlloc
  dsimp only
  split
  · exact ⟨⟨⟨rfl, rfl, rfl, rfl, rfl, rfl, rfl, rfl, rfl, fun _ => rfl, fun _ => rfl, .refl⟩,
      rfl, rfl, by simp⟩,
      fun _ => rfl, rfl, by simp⟩
  · exact ⟨⟨⟨rfl, rfl, rfl, rfl, rfl, rfl, rfl, rfl, rfl, fun _ => rfl, fun _ => rfl, .refl⟩,
      rfl, rfl, by simp⟩,
      fun _ => rfl, rfl, by simp⟩

theorem mctpMsgDup_txOnly (w : Mctp δ) (msg : List UInt8) (mctp : Option Unit) :
    TxOnly env w (mctpMsgDup env w msg mctp).1 := by
  have halloc := mctpMsgAlloc_txOnly env w msg.length mctp
  unfold mctpMsgDup
  split <;> rename_i hcase <;> rw [hcase] at halloc <;> exact halloc

theorem mctpMessageTxOnBus_txOnly (w : Mctp δ) (i : Fin 2) (src dest : UInt8) (tagOwner : Bool)
    (msgTag : UInt8) (msg : MsgBuf) (msgLen : Nat) :
    TxOnly env w (mctpMessageTxOnBus env w i src dest tagOwner msgTag msg msgLen).1 := by
  unfold mctpMessageTxOnBus mctpMessageTxErr
  dsimp only
  split
  · exact mctpMsgFree_txOnly env w _ _
  · split
    · exact mctpMsgFree_txOnly env w _ _
    · have hassert : TxOnly env w (w.withHist (w.hist.assert
          (decide (mctpBodySize (w.busBinding i).pktSize ≥ mctpBtu)) .assertValidMtu)) :=
        txOnly_withHist env w (by simp) (by simp)
      split
      · exact hassert.trans (mctpMsgFree_txOnly env _ _ _)
      · split
        · exact hassert.trans (mctpMsgFree_txOnly env _ _ _)
        · exact (hassert.trans (txOnly_take env _ i src dest tagOwner msgTag msg msgLen)).trans
            (mctpSendTxQueue_txOnly env _ i)

theorem mctpMessageTxAlloced_txOnly (w : Mctp δ) (eid : UInt8) (tagOwner : Bool) (msgTag : UInt8)
    (msg : MsgBuf) (msgLen : Nat) :
    TxOnly env w (mctpMessageTxAlloced env w eid tagOwner msgTag msg msgLen).1 := by
  unfold mctpMessageTxAlloced
  split
  · exact mctpMsgFree_txOnly env w _ _
  · split
    · exact mctpMsgFree_txOnly env w _ _
    · exact mctpMessageTxOnBus_txOnly env w _ _ _ _ _ _ _

theorem mctpMessageTx_txOnly (w : Mctp δ) (eid : UInt8) (tagOwner : Bool) (msgTag : UInt8)
    (msg : List UInt8) :
    TxOnly env w (mctpMessageTx env w eid tagOwner msgTag msg).1 := by
  have hdup := mctpMsgDup_txOnly env w msg (some ())
  unfold mctpMessageTx
  split <;> rename_i hcase <;> rw [hcase] at hdup
  · exact hdup
  · exact hdup.trans (mctpMessageTxAlloced_txOnly env _ _ _ _ _ _)

theorem mctpBindingSetTxEnabled_txOnly (w : Mctp δ) (b : Nat) (enable : Bool) :
    TxOnly env w (mctpBindingSetTxEnabled env w b enable) := by
  unfold mctpBindingSetTxEnabled
  split
  · exact txOnly_withHist env w rfl rfl
  · dsimp only
    split
    · split
      · exact .refl w
      · split
        · exact .refl w
        · exact txOnly_setState env w _ _
    · split
      · exact .refl w
      · exact txOnly_setState env w _ _
    · split
      · exact .refl w
      · exact (txOnly_setState env w _ _).trans (mctpSendTxQueue_txOnly env _ _)

theorem sendResp_txOnly (w : Mctp δ) (mctp : Option Unit) (srcEid msgTag : UInt8)
    (resp : List UInt8) :
    TxOnly env w (sendResp env w mctp srcEid msgTag resp).1 := by
  have halloc := mctpMsgAlloc_txOnly env w resp.length mctp
  unfold sendResp
  split <;> rename_i hcase <;> rw [hcase] at halloc
  · exact halloc
  · exact halloc.trans (mctpMessageTxAlloced_txOnly env _ _ _ _ _ _)

/-! ### Handling a complete message -/

theorem rxOnly_setEid {w : Mctp δ} (i : Fin 2) (eid : UInt8) :
    RxOnly env w (w.setBus i { w.busses i with eid := eid }) :=
  ⟨⟨rfl, rfl, rfl, rfl, rfl, rfl, rfl, rfl, rfl, bus_update MctpBus.binding rfl,
    bus_update MctpBus.mctp rfl, .refl⟩, rfl, rfl, rfl⟩

theorem mctpBusSetEid_rxOnly (w : Mctp δ) (b : Nat) (eid : UInt8) :
    RxOnly env w (mctpBusSetEid w b eid).1 := by
  unfold mctpBusSetEid
  split
  · exact .refl w
  · split
    · exact (txOnly_withHist env w (by simp) (by simp)).toRxOnly
    · exact rxOnly_setEid env _ _

theorem mctpCtrlSetEndpointId_rxOnly (w : Mctp δ) (i : Fin 2) (srcEid msgTag : UInt8)
    (data : List UInt8) :
    RxOnly env w (mctpCtrlSetEndpointId env w i srcEid msgTag data).1 := by
  unfold mctpCtrlSetEndpointId
  dsimp only
  split
  · exact .refl w
  · split
    · exact .refl w
    · have hset := mctpBusSetEid_rxOnly env w ((w.busses i).binding.getD 0) (data.getD 4 0)
      split
      · exact hset
      · exact hset.trans (sendResp_txOnly env _ _ _ _ _).toRxOnly

theorem mctpCtrlGetEndpointId_txOnly (w : Mctp δ) (i : Fin 2) (srcEid msgTag : UInt8)
    (data : List UInt8) :
    TxOnly env w (mctpCtrlGetEndpointId env w i srcEid msgTag data).1 := by
  unfold mctpCtrlGetEndpointId
  split
  · exact .refl w
  · exact sendResp_txOnly env _ _ _ _ _

theorem mctpCtrlGetVersion_txOnly (w : Mctp δ) (i : Fin 2) (srcEid msgTag : UInt8)
    (data : List UInt8) :
    TxOnly env w (mctpCtrlGetVersion env w i srcEid msgTag data).1 := by
  unfold mctpCtrlGetVersion
  split
  · exact .refl w
  · split
    · exact .refl w
    · exact sendResp_txOnly env _ _ _ _ _

theorem mctpCtrlGetTypes_txOnly (w : Mctp δ) (i : Fin 2) (srcEid msgTag : UInt8)
    (data : List UInt8) :
    TxOnly env w (mctpCtrlGetTypes env w i srcEid msgTag data).1 := by
  unfold mctpCtrlGetTypes
  split
  · exact .refl w
  · exact sendResp_txOnly env _ _ _ _ _

theorem ctrlDispatch_rxOnly (w : Mctp δ) (i : Fin 2) (srcEid msgTag : UInt8) (data : List UInt8) :
    RxOnly env w (ctrlDispatch env w i srcEid msgTag data).1 := by
  unfold ctrlDispatch
  dsimp only
  split
  · exact mctpCtrlSetEndpointId_rxOnly env w i srcEid msgTag data
  · split
    · exact (mctpCtrlGetEndpointId_txOnly env w i srcEid msgTag data).toRxOnly
    · split
      · exact (mctpCtrlGetVersion_txOnly env w i srcEid msgTag data).toRxOnly
      · split
        · exact (mctpCtrlGetTypes_txOnly env w i srcEid msgTag data).toRxOnly
        · exact .refl w

theorem mctpControlHandler_rxOnly (w : Mctp δ) (i : Fin 2) (srcEid : UInt8) (tagOwner : Bool)
    (msgTag : UInt8) (data : List UInt8) :
    RxOnly env w (mctpControlHandler env w i srcEid tagOwner msgTag data).1 := by
  have hdispatch := ctrlDispatch_rxOnly env w i srcEid msgTag data
  unfold mctpControlHandler replyError
  dsimp only
  split_ifs
  all_goals first
    | exact .refl w
    | exact hdispatch.trans (sendResp_txOnly env _ _ _ _ _).toRxOnly
    | exact hdispatch

theorem mctpCtrlHandleMsg_rxOnly (w : Mctp δ) (i : Fin 2) (src msgTag : UInt8) (tagOwner : Bool)
    (buffer : List UInt8) :
    RxOnly env w (mctpCtrlHandleMsg env w i src msgTag tagOwner buffer).1 := by
  unfold mctpCtrlHandleMsg
  split
  · split
    · exact rxOnly_upcall env w _
    · exact .refl w
  · exact mctpControlHandler_rxOnly env w i src tagOwner msgTag buffer

theorem mctpDeallocTag_rxOnly (w : Mctp δ) (i : Fin 2) (localEid remote tag : UInt8) :
    RxOnly env w (mctpDeallocTag w i localEid remote tag) := by
  have hderef : RxOnly env w (w.withHist (w.hist.deref (w.busBinding i).mctp)) :=
    (txOnly_withHist env w (by simp) (by simp)).toRxOnly
  unfold mctpDeallocTag
  dsimp only
  split
  · exact hderef
  · split
    · exact hderef
    · exact hderef.trans
        ⟨⟨rfl, rfl, rfl, rfl, rfl, rfl, rfl, rfl, rfl, fun _ => rfl, fun _ => rfl, .refl⟩,
          rfl, rfl, rfl⟩

theorem mctpRxControl_rxOnly (w : Mctp δ) (i : Fin 2) (msg : Message) :
    RxOnly env w (mctpRxControl env w i msg).1 := by
  unfold mctpRxControl
  split
  · exact mctpCtrlHandleMsg_rxOnly env w i msg.src msg.tag msg.tagOwner msg.bytes
  · exact .refl w

theorem mctpRxEndpoint_rxOnly (w : Mctp δ) (i : Fin 2) (msg : Message) :
    RxOnly env w (mctpRxEndpoint env w i msg) := by
  have hdealloc : RxOnly env w
      (if !msg.tagOwner then mctpDeallocTag w i msg.dest msg.src msg.tag else w) := by
    split
    · exact mctpDeallocTag_rxOnly env w i msg.dest msg.src msg.tag
    · exact .refl w
  have hctrl := hdealloc.trans (mctpRxControl_rxOnly env _ i msg)
  unfold mctpRxEndpoint
  dsimp only
  split <;> rename_i hcase <;> rw [hcase] at hctrl
  · exact hctrl
  · split
    · exact hctrl.trans (rxOnly_upcall env _ _)
    · exact hctrl

theorem mctpRxBridge_txOnly (i : Fin 2) (msg : Message) (ks : List (Fin 2)) (w : Mctp δ) :
    TxOnly env w (mctpRxBridge env i msg ks w) := by
  induction ks generalizing w with
  | nil => exact .refl w
  | cons k ks ih =>
      have hdup := mctpMsgDup_txOnly env w msg.bytes (some ())
      rw [mctpRxBridge]
      split
      · exact .refl w
      · split
        · exact ih w
        · split <;> rename_i hcase <;> rw [hcase] at hdup
          · exact hdup
          · exact (hdup.trans (mctpMessageTxOnBus_txOnly env _ _ _ _ _ _ _ _)).trans (ih _)

/-- **What handling a message leaves alone.** The message itself is what was handed up. -/
theorem mctpRx_rxOnly (w : Mctp δ) (i : Fin 2) (msg : Message) :
    RxOnly env (w.handUp msg) (mctpRx env w i msg) := by
  unfold mctpRx
  dsimp only
  split
  · split
    · exact mctpRxEndpoint_rxOnly env _ i msg
    · exact .refl _
  · exact (mctpRxBridge_txOnly env i msg _ _).toRxOnly

theorem mctpRx_handed (w : Mctp δ) (i : Fin 2) (msg : Message) :
    (mctpRx env w i msg).hist.handed = w.hist.handed ++ [msg] :=
  (mctpRx_rxOnly env w i msg).handed

theorem mctpRx_msgCtxs (w : Mctp δ) (i : Fin 2) (msg : Message) :
    (mctpRx env w i msg).msgCtxs = w.msgCtxs :=
  (mctpRx_rxOnly env w i msg).msgCtxs

theorem mctpRx_sameSetup (w : Mctp δ) (i : Fin 2) (msg : Message) :
    SameSetup env w (mctpRx env w i msg) := by
  have hhandUp : SameSetup env w (w.handUp msg) :=
    ⟨rfl, rfl, rfl, rfl, rfl, rfl, rfl, rfl, rfl, fun _ => rfl, fun _ => rfl, .refl⟩
  exact hhandUp.trans (mctpRx_rxOnly env w i msg).toSameSetup

/-! ### Receiving a packet -/

theorem sameSetup_withHist (w : Mctp δ) (hist : History) : SameSetup env w (w.withHist hist) :=
  ⟨rfl, rfl, rfl, rfl, rfl, rfl, rfl, rfl, rfl, fun _ => rfl, fun _ => rfl, .refl⟩

theorem sameSetup_setCtx (w : Mctp δ) (j : Fin 16) (ctx : MctpMsgCtx) :
    SameSetup env w (w.setCtx j ctx) :=
  ⟨rfl, rfl, rfl, rfl, rfl, rfl, rfl, rfl, rfl, fun _ => rfl, fun _ => rfl, .refl⟩

theorem mctpMsgCtxDrop_sameSetup (w : Mctp δ) (i : Fin 2) (j : Fin 16) :
    SameSetup env w (mctpMsgCtxDrop w i j) :=
  (sameSetup_setCtx env w j _).trans (sameSetup_withHist env _ _)

theorem mctpMsgCtxCreate_sameSetup (w : Mctp δ) (src dest tag : UInt8) :
    SameSetup env w (mctpMsgCtxCreate env w src dest tag).1 := by
  unfold mctpMsgCtxCreate
  split
  · exact .refl w
  · have halloc := (mctpMsgAlloc_txOnly env w w.maxMessageSize.toNat (some ())).toSameSetup
    dsimp only
    split <;> rename_i hcase <;> rw [hcase] at halloc
    · exact halloc.trans (sameSetup_setCtx env _ _ _)
    · exact halloc.trans (sameSetup_setCtx env _ _ _)

theorem busRxStart_sameSetup (w : Mctp δ) (i : Fin 2) (pkt : MctpPktbuf) (j : Fin 16) :
    SameSetup env w (busRxStart w i pkt j) := by
  unfold busRxStart
  dsimp only
  cases mctpMsgCtxAddPkt { w.msgCtxs j with fragmentSize := mctpPktbufSize pkt } pkt with
  | none => exact (sameSetup_setCtx env w _ _).trans (mctpMsgCtxDrop_sameSetup env _ _ _)
  | some ctx => exact sameSetup_setCtx env w _ _

theorem busRxSingle_sameSetup (w : Mctp δ) (i : Fin 2) (pkt : MctpPktbuf) :
    SameSetup env w (busRxSingle env w i pkt) := by
  unfold busRxSingle
  dsimp only
  have hdup :=
    (mctpMsgDup_txOnly env w
      (mctpPktbufData pkt (subSize (subSize pkt.end_ pkt.mctpHdrOff) mctpHdrSize))
    (some ())).toSameSetup
  split <;> rename_i hcase <;> rw [hcase] at hdup
  · exact hdup
  · exact (hdup.trans (mctpRx_sameSetup env _ _ _)).trans (mctpMsgFree_txOnly env _ _ _).toSameSetup

theorem busRxSom_sameSetup (w : Mctp δ) (i : Fin 2) (pkt : MctpPktbuf) :
    SameSetup env w (busRxSom env w i pkt) := by
  unfold busRxSom
  dsimp only
  split
  · exact (sameSetup_setCtx env w _ _).trans (busRxStart_sameSetup env _ _ _ _)
  · have hcreate := mctpMsgCtxCreate_sameSetup env w (mctpPktbufHdr pkt).src
      (mctpPktbufHdr pkt).dest (hdrTag (mctpPktbufHdr pkt))
    split <;> rename_i hcase <;> rw [hcase] at hcreate
    · exact hcreate
    · exact hcreate.trans (busRxStart_sameSetup env _ _ _ _)

theorem busRxEom_sameSetup (w : Mctp δ) (i : Fin 2) (pkt : MctpPktbuf) :
    SameSetup env w (busRxEom env w i pkt) := by
  unfold busRxEom
  dsimp only
  split
  · exact .refl w
  · rename_i j _
    split
    · exact mctpMsgCtxDrop_sameSetup env _ _ _
    · split
      · exact mctpMsgCtxDrop_sameSetup env _ _ _
      · cases mctpMsgCtxAddPkt (w.msgCtxs j) pkt with
        | none => exact mctpMsgCtxDrop_sameSetup env _ _ _
        | some ctx =>
            exact ((sameSetup_setCtx env w _ _).trans (mctpRx_sameSetup env _ _ _)).trans
              (mctpMsgCtxDrop_sameSetup env _ _ _)

theorem busRxMiddle_sameSetup (w : Mctp δ) (i : Fin 2) (pkt : MctpPktbuf) :
    SameSetup env w (busRxMiddle w i pkt) := by
  unfold busRxMiddle
  dsimp only
  split
  · exact .refl w
  · split
    · exact mctpMsgCtxDrop_sameSetup env _ _ _
    · split
      · exact mctpMsgCtxDrop_sameSetup env _ _ _
      · split
        · exact mctpMsgCtxDrop_sameSetup env _ _ _
        · exact sameSetup_setCtx env w _ _

theorem mctpBusRx_sameSetup (w : Mctp δ) (b : Nat) (pkt : MctpPktbuf) :
    SameSetup env w (mctpBusRx env w b pkt) := by
  unfold mctpBusRx
  split
  · exact sameSetup_withHist env w _
  · dsimp only
    split
    · exact .refl w
    · have hcapture :=
        sameSetup_withHist env w ((w.hist.deref (w.bindings b).mctp).capture w.capture pkt false)
      split_ifs
      · exact hcapture
      · exact hcapture
      · exact hcapture.trans (busRxSingle_sameSetup env _ _ _)
      · exact hcapture.trans (busRxSom_sameSetup env _ _ _)
      · exact hcapture.trans (busRxEom_sameSetup env _ _ _)
      · exact hcapture.trans (busRxMiddle_sameSetup env _ _ _)

end LibMctp
