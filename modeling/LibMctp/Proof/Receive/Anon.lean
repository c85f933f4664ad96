import LibMctp.Model.Receive

/-!
# What does not depend on reassembly

Handling a complete message neither looks at the reassembly contexts nor at which allocation made a
buffer. `Mctp.anon` forgets these, together with the parts of the history that tell of them, and
every function below `mctp_rx` does the same before as after forgetting. So two instances that
differ in them only answer a message alike.

All allocations succeed here.
-/

namespace LibMctp

variable {δ : Type}

def MsgBuf.anon (buf : MsgBuf) : MsgBuf := { buf with addr := 0 }

def MctpBus.anon (bus : MctpBus) : MctpBus := { bus with txMsg := bus.txMsg.map MsgBuf.anon }

/-- The calls into the code above and the packets captured. -/
def History.anon (hist : History) : History :=
  { captured := hist.captured, upcalls := hist.upcalls }

def BusIo.anon (s : BusIo δ) : BusIo δ := ⟨s.bus.anon, s.dev, s.log, s.hist.anon⟩

/-- The instance without its contexts, the addresses of its buffers and what the history tells of
them. -/
def Mctp.anon (w : Mctp δ) : Mctp δ :=
  { w with
    busses := fun i => (w.busses i).anon
    msgCtxs := fun _ => {}
    nMsgAlloc := 0
    hist := w.hist.anon }

/-- The results of two calls, up to what `Mctp.anon` forgets. -/
structure Alike {α : Type} (r r' : Mctp δ × α) : Prop where
  state : r.1.anon = r'.1.anon
  out : r.2 = r'.2

/-- What does not depend on the forgotten parts is the same. -/
theorem Mctp.eq_of_anon {α : Type} (f : Mctp δ → α) (hf : ∀ w, f w.anon = f w) {w w' : Mctp δ}
    (h : w.anon = w'.anon) : f w = f w' := by
  rw [← hf w, h, hf w']

section Forget

variable (w : Mctp δ)

@[simp] theorem MsgBuf.anon_anon (buf : MsgBuf) : buf.anon.anon = buf.anon := rfl

@[simp] theorem MctpBus.anon_anon (bus : MctpBus) : bus.anon.anon = bus.anon := by
  unfold anon
  dsimp only
  rw [Option.map_map]
  rfl

@[simp] theorem History.anon_anon (hist : History) : hist.anon.anon = hist.anon := rfl

@[simp] theorem Mctp.anon_anon : w.anon.anon = w.anon := by
  unfold Mctp.anon
  simp only [MctpBus.anon_anon]
  rfl

@[simp] theorem History.anon_deref (hist : History) (p : Option Unit) :
    (hist.deref p).anon = hist.anon := by
  cases p <;> rfl

@[simp] theorem History.anon_assert (hist : History) (holds : Bool) (fault : Fault) :
    (hist.assert holds fault).anon = hist.anon := by
  cases holds <;> rfl

@[simp] theorem History.anon_capture (hist : History) (set : Bool) (pkt : MctpPktbuf)
    (outgoing : Bool) :
    (hist.capture set pkt outgoing).anon = hist.anon.capture set pkt outgoing := by
  cases set <;> rfl

@[simp] theorem History.anon_mctpMsgFree (hist : History) (ptr : MsgBuf) (p : Option Unit) :
    (hist.mctpMsgFree ptr p).anon = hist.anon := by
  cases p <;> rfl

theorem Mctp.anon_withHist (hist : History) :
    (w.withHist hist).anon = w.anon.withHist hist.anon := rfl

/-- Only forgotten parts of the history change. -/
theorem Mctp.anon_withHist_eq {hist : History} (h : hist.anon = w.hist.anon) :
    (w.withHist hist).anon = w.anon := by
  rw [Mctp.anon_withHist, h]
  rfl

@[simp] theorem Mctp.anon_setCtx (j : Fin 16) (ctx : MctpMsgCtx) :
    (w.setCtx j ctx).anon = w.anon := rfl

theorem anon_update (busses : Fin 2 → MctpBus) (i : Fin 2) (bus : MctpBus) :
    (fun k => (Function.update busses i bus k).anon)
      = Function.update (fun k => (busses k).anon) i bus.anon :=
  Function.comp_update MctpBus.anon busses i bus

theorem Mctp.anon_setBus (i : Fin 2) (bus : MctpBus) :
    (w.setBus i bus).anon = w.anon.setBus i bus.anon := by
  unfold Mctp.setBus Mctp.anon
  rw [anon_update]

@[simp] theorem Mctp.anon_upcall (call : Upcall) : (w.upcall call).anon = w.anon.upcall call := rfl

@[simp] theorem Mctp.anon_handUp (msg : Message) : (w.handUp msg).anon = w.anon := rfl

@[simp] theorem mctpMsgFree_anon (ptr : MsgBuf) (p : Option Unit) :
    (mctpMsgFree w ptr p).anon = w.anon :=
  Mctp.anon_withHist_eq w (History.anon_mctpMsgFree _ ptr p)

end Forget

/-! ### Transmitting -/

section Bus

variable (env : Env δ) (b : Nat) (binding : MctpBinding) (capture : Bool)

theorem mctpNextTxPkt_anon (bus : MctpBus) :
    mctpNextTxPkt binding bus.anon = (mctpNextTxPkt binding bus).map fun r => (r.1, r.2.anon) := by
  unfold mctpNextTxPkt MctpBus.anon
  cases bus.txMsg with
  | none => rfl
  | some msg => rfl

theorem MctpBus.anon_txDisable (bus : MctpBus) : bus.anon.txDisable = bus.txDisable.anon := by
  unfold MctpBus.txDisable
  cases h : bus.state with
  | constructed =>
      have hanon : bus.anon.state = .constructed := h
      rw [hanon]
  | txEnabled =>
      have hanon : bus.anon.state = .txEnabled := h
      rw [hanon]
      rfl
  | txDisabled =>
      have hanon : bus.anon.state = .txDisabled := h
      rw [hanon]

theorem mctpPacketTx_anon (s : BusIo δ) (pkt : MctpPktbuf) :
    (mctpPacketTx env b binding capture s.anon pkt).1.anon
      = (mctpPacketTx env b binding capture s pkt).1.anon ∧
      (mctpPacketTx env b binding capture s.anon pkt).2
        = (mctpPacketTx env b binding capture s pkt).2 := by
  unfold mctpPacketTx
  have hstate : s.anon.bus.state = s.bus.state := rfl
  rw [hstate]
  split
  · refine ⟨?_, rfl⟩
    simp [BusIo.anon]
  · refine ⟨?_, rfl⟩
    unfold BusIo.anon
    dsimp only
    simp only [History.anon_capture, History.anon_deref, MctpBus.anon_txDisable]
    split
    · simp
    · simp

theorem mctpTxComplete_anon (s : BusIo δ) :
    (mctpTxComplete binding s.anon).anon = (mctpTxComplete binding s).anon := by
  obtain ⟨bus, dev, log, hist⟩ := s
  unfold mctpTxComplete
  cases hmsg : bus.txMsg with
  | none => simp [BusIo.anon, MctpBus.anon, hmsg]
  | some msg =>
      simp only [BusIo.anon, MctpBus.anon, hmsg, Option.map_some]
      split
      · simp
      · simp

theorem mctpSendTxQueueLoop_anon (rounds : Nat) (s : BusIo δ) :
    (mctpSendTxQueueLoop env b binding capture rounds s.anon).anon
      = (mctpSendTxQueueLoop env b binding capture rounds s).anon := by
  have hself : ∀ s : BusIo δ, s.anon.anon = s.anon := by
    intro s
    simp [BusIo.anon]
  induction rounds generalizing s with
  | zero =>
      have hmsg : s.anon.bus.txMsg.isSome = s.bus.txMsg.isSome := by simp [BusIo.anon, MctpBus.anon]
      have hstate : s.anon.bus.state = s.bus.state := rfl
      rw [mctpSendTxQueueLoop, mctpSendTxQueueLoop, hmsg, hstate]
      split
      · exact hself s
      · exact hself s
  | succ rounds ih =>
      have hstate : s.anon.bus.state = s.bus.state := rfl
      have hbus : s.anon.bus = s.bus.anon := rfl
      rw [mctpSendTxQueueLoop, mctpSendTxQueueLoop, hstate, hbus, mctpNextTxPkt_anon]
      split
      · exact hself s
      · cases hnext : mctpNextTxPkt binding s.bus with
        | none => exact hself s
        | some r =>
            obtain ⟨pkt, bus⟩ := r
            obtain ⟨htx, hrc⟩ := mctpPacketTx_anon env b binding capture { s with bus := bus } pkt
            have hstart : ({ s.anon with bus := bus.anon } : BusIo δ)
                = BusIo.anon { s with bus := bus } := rfl
            dsimp only [Option.map_some]
            rw [hstart, hrc]
            generalize mctpPacketTx env b binding capture (BusIo.anon { s with bus := bus }) pkt
              = forgot at htx
            generalize mctpPacketTx env b binding capture { s with bus := bus } pkt = kept at htx
            have hdone : (mctpTxComplete binding forgot.1).anon
                = (mctpTxComplete binding kept.1).anon := by
              rw [← mctpTxComplete_anon, htx, mctpTxComplete_anon]
            split
            · rw [← ih, hdone, ih]
            · split
              · exact htx
              · exact hdone

end Bus

section Transmit

variable (env : Env δ) (w : Mctp δ)

theorem Mctp.anon_putBusIo (i : Fin 2) (s : BusIo δ) :
    (w.putBusIo i s).anon = w.anon.putBusIo i s.anon := by
  unfold Mctp.putBusIo Mctp.anon
  rw [anon_update]
  rfl

theorem mctpSendTxQueue_anon (i : Fin 2) :
    (mctpSendTxQueue env w.anon i).anon = (mctpSendTxQueue env w i).anon := by
  unfold mctpSendTxQueue
  dsimp only
  rw [Mctp.anon_putBusIo, Mctp.anon_putBusIo, Mctp.anon_anon]
  congr 1
  exact mctpSendTxQueueLoop_anon env ((w.busses i).binding.getD 0) (w.busBinding i)
    w.capture _ (w.busIo i)

/-- Forgetting before is as good as forgetting after. -/
theorem mctpSendTxQueue_alike {w w' : Mctp δ} (h : w.anon = w'.anon) (i : Fin 2) :
    (mctpSendTxQueue env w i).anon = (mctpSendTxQueue env w' i).anon := by
  rw [← mctpSendTxQueue_anon env w, h, mctpSendTxQueue_anon env w']

theorem Mctp.anon_take (i : Fin 2) (src dest : UInt8) (tagOwner : Bool) (msgTag : UInt8)
    (msg : MsgBuf) (msgLen : Nat) :
    (w.anon.take i src dest tagOwner msgTag msg.anon msgLen).anon
      = (w.take i src dest tagOwner msgTag msg msgLen).anon := by
  unfold Mctp.take Mctp.anon
  rw [anon_update, anon_update]
  simp only [MctpBus.anon_anon]
  rfl

theorem mctpMessageTxErr_alike {w w' : Mctp δ} (h : w.anon = w'.anon) (i : Fin 2)
    (msg msg' : MsgBuf) (rc : Int) :
    Alike (mctpMessageTxErr w i msg rc) (mctpMessageTxErr w' i msg' rc) := by
  refine ⟨?_, rfl⟩
  unfold mctpMessageTxErr
  rw [mctpMsgFree_anon, mctpMsgFree_anon, h]

theorem mctpMessageTxOnBus_anon (i : Fin 2) (src dest : UInt8) (tagOwner : Bool) (msgTag : UInt8)
    (msg : MsgBuf) (msgLen : Nat) :
    Alike (mctpMessageTxOnBus env w.anon i src dest tagOwner msgTag msg.anon msgLen)
      (mctpMessageTxOnBus env w i src dest tagOwner msgTag msg msgLen) := by
  have hstate : (w.anon.busses i).state = (w.busses i).state := rfl
  have hmsg : (w.anon.busses i).txMsg.isSome
      = (w.busses i).txMsg.isSome := by simp [Mctp.anon, MctpBus.anon]
  have hbinding : w.anon.busBinding i = w.busBinding i := rfl
  have hchecked :
    (w.anon.withHist (w.anon.hist.assert (decide (mctpBodySize (w.busBinding i).pktSize ≥ mctpBtu))
      .assertValidMtu)).anon
      = (w.withHist (w.hist.assert (decide (mctpBodySize (w.busBinding i).pktSize ≥ mctpBtu))
        .assertValidMtu)).anon := by
    rw [Mctp.anon_withHist_eq _ (History.anon_assert _ _ _),
      Mctp.anon_withHist_eq _ (History.anon_assert _ _ _), Mctp.anon_anon]
  unfold mctpMessageTxOnBus
  dsimp only
  rw [hstate, hmsg, hbinding]
  split
  · exact mctpMessageTxErr_alike (Mctp.anon_anon w) i _ _ _
  · split
    · exact mctpMessageTxErr_alike (Mctp.anon_anon w) i _ _ _
    · split
      · exact mctpMessageTxErr_alike hchecked i _ _ _
      · split
        · exact mctpMessageTxErr_alike hchecked i _ _ _
        · refine ⟨mctpSendTxQueue_alike env ?_ i, rfl⟩
          have htake := Mctp.anon_take (w.anon.withHist (w.anon.hist.assert
            (decide (mctpBodySize (w.busBinding i).pktSize ≥ mctpBtu)) .assertValidMtu)) i src dest
            tagOwner msgTag msg.anon msgLen
          rw [hchecked, MsgBuf.anon_anon, Mctp.anon_take] at htake
          exact htake.symm

theorem mctpMessageTxAlloced_anon (eid : UInt8) (tagOwner : Bool) (msgTag : UInt8) (msg : MsgBuf)
    (msgLen : Nat) :
    Alike (mctpMessageTxAlloced env w.anon eid tagOwner msgTag msg.anon msgLen)
      (mctpMessageTxAlloced env w eid tagOwner msgTag msg msgLen) := by
  unfold mctpMessageTxAlloced
  split
  · exact ⟨by simp, rfl⟩
  · have hbus : findBusForEid w.anon eid = findBusForEid w eid := rfl
    rw [hbus]
    cases findBusForEid w eid with
    | none => exact ⟨by simp, rfl⟩
    | some i =>
        exact mctpMessageTxOnBus_anon env w i (w.busses i).eid eid tagOwner msgTag msg msgLen

end Transmit

/-! ### Control messages -/

theorem mctpBusSetEid_anon (w : Mctp δ) (b : Nat) (eid : UInt8) :
    Alike (mctpBusSetEid w.anon b eid) (mctpBusSetEid w b eid) := by
  unfold mctpBusSetEid
  split
  · exact ⟨Mctp.anon_anon w, rfl⟩
  · have hbindings : w.anon.bindings = w.bindings := rfl
    rw [hbindings]
    cases (w.bindings b).bus with
    | none => exact ⟨by rw [Mctp.anon_withHist, Mctp.anon_withHist, Mctp.anon_anon]; rfl, rfl⟩
    | some i =>
        refine ⟨?_, rfl⟩
        dsimp only
        rw [Mctp.anon_setBus, Mctp.anon_setBus, Mctp.anon_anon]
        congr 1
        exact MctpBus.anon_anon { w.busses i with eid := eid }

theorem mctpBusSetEid_alike {w w' : Mctp δ} (h : w.anon = w'.anon) (b : Nat) (eid : UInt8) :
    Alike (mctpBusSetEid w b eid) (mctpBusSetEid w' b eid) := by
  have hleft := mctpBusSetEid_anon w b eid
  have hright := mctpBusSetEid_anon w' b eid
  rw [h] at hleft
  exact ⟨hleft.state.symm.trans hright.state, hleft.out.symm.trans hright.out⟩

section Control

variable {env : Env δ} (halloc : ∀ n, env.msgAlloc n = true)

include halloc

theorem mctpMsgAlloc_anon (w : Mctp δ) (size : Nat) (p : Option Unit) :
    ∃ w' buf, mctpMsgAlloc env w size p = (w', some buf) ∧ w'.anon = w.anon ∧
      buf.anon = ⟨0, size, []⟩ := by
  unfold mctpMsgAlloc
  dsimp only
  rw [if_pos (halloc _)]
  refine ⟨_, _, rfl, ?_, rfl⟩
  have hhist : (w.hist.deref p).anon = w.hist.anon := History.anon_deref _ p
  unfold Mctp.anon
  dsimp only
  rw [← hhist]
  rfl

/-- A response is sent as from the forgotten instance, from a buffer without an address. -/
theorem sendResp_anon (w : Mctp δ) (p : Option Unit) (srcEid msgTag : UInt8) (resp : List UInt8) :
    (sendResp env w p srcEid msgTag resp).1.anon
        = (mctpMessageTxAlloced env w.anon srcEid false msgTag ⟨0, resp.length, resp⟩
          resp.length).1.anon ∧
      (sendResp env w p srcEid msgTag resp).2 = mctpCtrlCcSuccess := by
  obtain ⟨w₁, buf, hbuf, hw₁, hanon⟩ := mctpMsgAlloc_anon halloc w resp.length p
  have hmsg : MsgBuf.anon { buf with bytes := resp } = ⟨0, resp.length, resp⟩ := by
    have hsize : buf.size = resp.length := congrArg MsgBuf.size hanon
    rw [MsgBuf.anon, hsize]
  unfold sendResp
  rw [hbuf]
  refine ⟨?_, rfl⟩
  dsimp only
  rw [← (mctpMessageTxAlloced_anon env w₁ srcEid false msgTag { buf with bytes := resp }
    resp.length).state, hw₁, hmsg]

variable {w w' : Mctp δ} (h : w.anon = w'.anon) (i : Fin 2) (srcEid msgTag : UInt8)

include h

theorem sendResp_alike (p p' : Option Unit) (resp : List UInt8) :
    Alike (sendResp env w p srcEid msgTag resp) (sendResp env w' p' srcEid msgTag resp) := by
  obtain ⟨hstate, hout⟩ := sendResp_anon halloc w p srcEid msgTag resp
  obtain ⟨hstate', hout'⟩ := sendResp_anon halloc w' p' srcEid msgTag resp
  rw [h] at hstate
  exact ⟨hstate.trans hstate'.symm, hout.trans hout'.symm⟩

theorem mctpCtrlSetEndpointId_alike (data : List UInt8) :
    Alike (mctpCtrlSetEndpointId env w i srcEid msgTag data)
      (mctpCtrlSetEndpointId env w' i srcEid msgTag data) := by
  have hbinding : (w.busses i).binding = (w'.busses i).binding :=
    Mctp.eq_of_anon (fun w => (w.busses i).binding) (fun _ => rfl) h
  unfold mctpCtrlSetEndpointId
  split
  · exact ⟨h, rfl⟩
  · dsimp only
    split
    · exact ⟨h, rfl⟩
    · rw [hbinding]
      obtain ⟨hstate, hrc⟩ := mctpBusSetEid_alike h ((w'.busses i).binding.getD 0) (data.getD 4 0)
      rw [hrc]
      split
      · exact ⟨hstate, rfl⟩
      · exact sendResp_alike halloc hstate srcEid msgTag _ _ _

theorem mctpCtrlGetEndpointId_alike (data : List UInt8) :
    Alike (mctpCtrlGetEndpointId env w i srcEid msgTag data)
      (mctpCtrlGetEndpointId env w' i srcEid msgTag data) := by
  have heid : (w.busses i).eid = (w'.busses i).eid :=
    Mctp.eq_of_anon (fun w => (w.busses i).eid) (fun _ => rfl) h
  unfold mctpCtrlGetEndpointId
  rw [heid]
  split
  · exact ⟨h, rfl⟩
  · exact sendResp_alike halloc h srcEid msgTag _ _ _

theorem mctpCtrlGetVersion_alike (data : List UInt8) :
    Alike (mctpCtrlGetVersion env w i srcEid msgTag data)
      (mctpCtrlGetVersion env w' i srcEid msgTag data) := by
  unfold mctpCtrlGetVersion
  split
  · exact ⟨h, rfl⟩
  · split
    · exact ⟨h, rfl⟩
    · exact sendResp_alike halloc h srcEid msgTag _ _ _

theorem mctpCtrlGetTypes_alike (data : List UInt8) :
    Alike (mctpCtrlGetTypes env w i srcEid msgTag data)
      (mctpCtrlGetTypes env w' i srcEid msgTag data) := by
  have hcontrol : w.control = w'.control := Mctp.eq_of_anon Mctp.control (fun _ => rfl) h
  unfold mctpCtrlGetTypes
  rw [hcontrol]
  split
  · exact ⟨h, rfl⟩
  · exact sendResp_alike halloc h srcEid msgTag _ _ _

theorem ctrlDispatch_alike (data : List UInt8) :
    Alike (ctrlDispatch env w i srcEid msgTag data) (ctrlDispatch env w' i srcEid msgTag data) := by
  unfold ctrlDispatch
  dsimp only
  split
  · exact mctpCtrlSetEndpointId_alike halloc h i srcEid msgTag data
  · split
    · exact mctpCtrlGetEndpointId_alike halloc h i srcEid msgTag data
    · split
      · exact mctpCtrlGetVersion_alike halloc h i srcEid msgTag data
      · split
        · exact mctpCtrlGetTypes_alike halloc h i srcEid msgTag data
        · exact ⟨h, rfl⟩

theorem mctpControlHandler_alike (tagOwner : Bool) (data : List UInt8) :
    Alike (mctpControlHandler env w i srcEid tagOwner msgTag data)
      (mctpControlHandler env w' i srcEid tagOwner msgTag data) := by
  obtain ⟨hstate, hcc⟩ := ctrlDispatch_alike halloc h i srcEid msgTag data
  unfold mctpControlHandler
  dsimp only
  rw [hcc]
  split_ifs
  · exact ⟨h, rfl⟩
  · exact ⟨h, rfl⟩
  · exact ⟨h, rfl⟩
  · exact ⟨h, rfl⟩
  · exact ⟨h, rfl⟩
  · exact ⟨(sendResp_alike halloc hstate srcEid msgTag _ _ _).state, rfl⟩
  · exact ⟨hstate, rfl⟩

end Control

/-! ### Complete messages -/

section Tags

variable (i : Fin 2) (localEid remote tag : UInt8)

/-- Releasing a tag changes the tags alone. -/
theorem mctpDeallocTag_anon (w : Mctp δ) :
    (mctpDeallocTag w i localEid remote tag).anon
      = { w.anon with reqTags := (mctpDeallocTag w i localEid remote tag).reqTags } := by
  have hseen : (w.withHist (w.hist.deref (w.busBinding i).mctp)).anon = w.anon :=
    Mctp.anon_withHist_eq w (History.anon_deref _ _)
  unfold mctpDeallocTag
  dsimp only
  split
  · exact hseen
  · split
    · exact hseen
    · rw [← hseen]
      rfl

theorem mctpDeallocTag_reqTags_congr {w w' : Mctp δ} (h : w.reqTags = w'.reqTags) :
    (mctpDeallocTag w i localEid remote tag).reqTags
      = (mctpDeallocTag w' i localEid remote tag).reqTags := by
  unfold mctpDeallocTag Mctp.withHist
  dsimp only
  rw [h]
  split
  · rfl
  · split
    · rfl
    · rfl

theorem mctpDeallocTag_alike {w w' : Mctp δ} (h : w.anon = w'.anon) :
    (mctpDeallocTag w i localEid remote tag).anon
      = (mctpDeallocTag w' i localEid remote tag).anon := by
  have htags : w.reqTags = w'.reqTags := Mctp.eq_of_anon Mctp.reqTags (fun _ => rfl) h
  rw [mctpDeallocTag_anon, mctpDeallocTag_anon, h,
    mctpDeallocTag_reqTags_congr i localEid remote tag htags]

end Tags

section Messages

variable {env : Env δ} (halloc : ∀ n, env.msgAlloc n = true) {w w' : Mctp δ}
  (h : w.anon = w'.anon) (i : Fin 2)

include halloc h

theorem mctpCtrlHandleMsg_alike (src msgTag : UInt8) (tagOwner : Bool) (buffer : List UInt8) :
    Alike (mctpCtrlHandleMsg env w i src msgTag tagOwner buffer)
      (mctpCtrlHandleMsg env w' i src msgTag tagOwner buffer) := by
  have hbinding : w.busBinding i = w'.busBinding i :=
    Mctp.eq_of_anon (fun w => w.busBinding i) (fun _ => rfl) h
  unfold mctpCtrlHandleMsg
  rw [hbinding]
  split
  · split
    · exact ⟨by rw [Mctp.anon_upcall, Mctp.anon_upcall, h], rfl⟩
    · exact ⟨h, rfl⟩
  · exact mctpControlHandler_alike halloc h i src msgTag tagOwner buffer

theorem mctpRxControl_alike (msg : Message) :
    Alike (mctpRxControl env w i msg) (mctpRxControl env w' i msg) := by
  unfold mctpRxControl
  split
  · exact mctpCtrlHandleMsg_alike halloc h i msg.src msg.tag msg.tagOwner msg.bytes
  · exact ⟨h, rfl⟩

theorem mctpRxEndpoint_alike (msg : Message) :
    (mctpRxEndpoint env w i msg).anon = (mctpRxEndpoint env w' i msg).anon := by
  have hnoted : (if !msg.tagOwner then mctpDeallocTag w i msg.dest msg.src msg.tag else w).anon
      = (if !msg.tagOwner then mctpDeallocTag w' i msg.dest msg.src msg.tag else w').anon := by
    split
    · exact mctpDeallocTag_alike i msg.dest msg.src msg.tag h
    · exact h
  obtain ⟨hstate, hhandled⟩ := mctpRxControl_alike halloc hnoted i msg
  unfold mctpRxEndpoint
  dsimp only
  generalize mctpRxControl env
    (if !msg.tagOwner then mctpDeallocTag w i msg.dest msg.src msg.tag else w) i msg = r at *
  generalize mctpRxControl env
    (if !msg.tagOwner then mctpDeallocTag w' i msg.dest msg.src msg.tag else w') i msg = r' at *
  obtain ⟨w₁, handled⟩ := r
  obtain ⟨w₁', handled'⟩ := r'
  dsimp only at hstate hhandled
  have hrx : w₁.messageRx = w₁'.messageRx := Mctp.eq_of_anon Mctp.messageRx (fun _ => rfl) hstate
  subst hhandled
  cases handled with
  | true => exact hstate
  | false =>
      dsimp only
      rw [hrx]
      split
      · rw [Mctp.anon_upcall, Mctp.anon_upcall, hstate]
      · exact hstate

/-- **An endpoint answers a message alike** whatever contexts it has. -/
theorem mctpRx_alike (hpolicy : w.routePolicy = .endpoint) (msg : Message) :
    (mctpRx env w i msg).anon = (mctpRx env w' i msg).anon := by
  have hpolicy' : w.routePolicy = w'.routePolicy :=
    Mctp.eq_of_anon Mctp.routePolicy (fun _ => rfl) h
  have heid : (w.busses i).eid = (w'.busses i).eid :=
    Mctp.eq_of_anon (fun w => (w.busses i).eid) (fun _ => rfl) h
  have hlocal : mctpRxDestIsLocal ((w.handUp msg).busses i) msg.dest
      = mctpRxDestIsLocal ((w'.handUp msg).busses i) msg.dest := by
    unfold mctpRxDestIsLocal Mctp.handUp Mctp.withHist
    rw [heid]
  have hhanded : (w.handUp msg).anon = (w'.handUp msg).anon := by
    rw [Mctp.anon_handUp, Mctp.anon_handUp, h]
  have hboth : (w.handUp msg).routePolicy = .endpoint ∧ (w'.handUp msg).routePolicy = .endpoint :=
    ⟨hpolicy, hpolicy'.symm.trans hpolicy⟩
  unfold mctpRx
  dsimp only
  rw [hboth.1, hboth.2]
  dsimp only
  rw [hlocal]
  split
  · exact mctpRxEndpoint_alike halloc hhanded i msg
  · exact hhanded

end Messages

/-- A message for another endpoint is ignored. -/
theorem mctpRx_foreign (env : Env δ) {w : Mctp δ} (hpolicy : w.routePolicy = .endpoint) (i : Fin 2)
    {msg : Message} (hdest : mctpRxDestIsLocal (w.busses i) msg.dest = false) :
    (mctpRx env w i msg).anon = w.anon := by
  have hpolicy' : (w.handUp msg).routePolicy = .endpoint := hpolicy
  have hdest' : mctpRxDestIsLocal ((w.handUp msg).busses i) msg.dest = false := hdest
  unfold mctpRx
  dsimp only
  rw [hpolicy']
  dsimp only
  rw [hdest', if_neg Bool.false_ne_true]
  exact Mctp.anon_handUp w msg

end LibMctp
