import LibMctp.Proof.Receive.Dispatch

/-!
# The one message a packet completes

Collecting packets calls no handler and touches no request tag. All of that happens in `mctp_rx`,
which a packet leads to at most once, for the message that it completes.
-/

namespace LibMctp

variable {δ : Type}

/-- Nothing was sent or handed up, no handler was called, and the request tags are as they were. -/
structure Silent (env : Env δ) (w w' : Mctp δ) : Prop extends Passive env w w' where
  upcalls : w'.hist.upcalls = w.hist.upcalls
  reqTags : w'.reqTags = w.reqTags
  roundRobin : w'.tagRoundRobin = w.tagRoundRobin

variable {env : Env δ}

theorem Silent.trans {w w' w'' : Mctp δ} (h : Silent env w w') (h' : Silent env w' w'') :
    Silent env w w'' :=
  ⟨h.toPassive.trans h'.toPassive, h'.upcalls.trans h.upcalls, h'.reqTags.trans h.reqTags,
    h'.roundRobin.trans h.roundRobin⟩

theorem Passive.silent_of_txOnly {w w' : Mctp δ} (h : Passive env w w') (honly : TxOnly env w w') :
    Silent env w w' :=
  ⟨h, honly.upcalls, honly.reqTags, honly.tagRoundRobin⟩

section Silent

variable (env : Env δ) (w : Mctp δ)

theorem silent_refl : Silent env w w := ⟨passive_refl env w, rfl, rfl, rfl⟩

theorem silent_setCtx (j : Fin 16) (ctx : MctpMsgCtx) : Silent env w (w.setCtx j ctx) :=
  ⟨passive_setCtx env w j ctx, rfl, rfl, rfl⟩

theorem silent_seen (b : Nat) (pkt : MctpPktbuf) : Silent env w (w.seen b pkt) := by
  refine ⟨passive_seen env w b pkt, ?_, rfl, rfl⟩
  simp [Mctp.seen, Mctp.withHist]

theorem mctpMsgDup_silent (msg : List UInt8) (mctp : Option Unit) :
    Silent env w (mctpMsgDup env w msg mctp).1 :=
  (mctpMsgDup_passive env w msg mctp).silent_of_txOnly (mctpMsgDup_txOnly env w msg mctp)

theorem mctpMsgFree_silent (ptr : MsgBuf) (mctp : Option Unit) :
    Silent env w (mctpMsgFree w ptr mctp) :=
  (mctpMsgFree_passive env w ptr mctp).silent_of_txOnly (mctpMsgFree_txOnly env w ptr mctp)

theorem mctpMsgCtxDrop_silent (i : Fin 2) (j : Fin 16) : Silent env w (mctpMsgCtxDrop w i j) := by
  refine ⟨mctpMsgCtxDrop_passive env w i j, ?_, rfl, rfl⟩
  unfold mctpMsgCtxDrop
  dsimp only [Mctp.withHist]
  split
  · exact History.upcalls_mctpMsgFree _ _ _
  · exact History.upcalls_deref _ _

theorem mctpMsgCtxCreate_silent (src dest tag : UInt8) :
    Silent env w (mctpMsgCtxCreate env w src dest tag).1 := by
  unfold mctpMsgCtxCreate
  split
  · exact silent_refl env w
  · have halloc := (mctpMsgAlloc_passive env w w.maxMessageSize.toNat (some ())).silent_of_txOnly
      (mctpMsgAlloc_txOnly env w w.maxMessageSize.toNat (some ()))
    dsimp only
    split <;> rename_i hcase <;> rw [hcase] at halloc
    · exact halloc.trans (silent_setCtx env _ _ _)
    · exact halloc.trans (silent_setCtx env _ _ _)

theorem busRxStart_silent (i : Fin 2) (pkt : MctpPktbuf) (j : Fin 16) :
    Silent env w (busRxStart w i pkt j) := by
  unfold busRxStart
  dsimp only
  cases mctpMsgCtxAddPkt { w.msgCtxs j with fragmentSize := mctpPktbufSize pkt } pkt with
  | none => exact (silent_setCtx env w _ _).trans (mctpMsgCtxDrop_silent env _ i j)
  | some ctx => exact silent_setCtx env w _ _

theorem busRxSom_silent (i : Fin 2) (pkt : MctpPktbuf) : Silent env w (busRxSom env w i pkt) := by
  unfold busRxSom
  dsimp only
  split
  · exact (silent_setCtx env w _ _).trans (busRxStart_silent env _ i pkt _)
  · have hcreate := mctpMsgCtxCreate_silent env w (mctpPktbufHdr pkt).src (mctpPktbufHdr pkt).dest
      (hdrTag (mctpPktbufHdr pkt))
    split <;> rename_i hcase <;> rw [hcase] at hcreate
    · exact hcreate
    · exact hcreate.trans (busRxStart_silent env _ i pkt _)

theorem busRxMiddle_silent (i : Fin 2) (pkt : MctpPktbuf) : Silent env w (busRxMiddle w i pkt) := by
  unfold busRxMiddle
  dsimp only
  split
  · exact silent_refl env w
  · rename_i j _
    split
    · exact mctpMsgCtxDrop_silent env w i j
    · split
      · exact mctpMsgCtxDrop_silent env w i j
      · cases mctpMsgCtxAddPkt (w.msgCtxs j) pkt with
        | none => exact mctpMsgCtxDrop_silent env w i j
        | some ctx => exact silent_setCtx env w _ _

end Silent

/-! ### The message -/

/-- The call did what `mctp_rx` does with the message, and nothing else that can be seen. -/
def Delivers (env : Env δ) (i : Fin 2) (msg : Message) (w w' : Mctp δ) : Prop :=
  ∃ w₁, Silent env w w₁ ∧ Silent env (mctpRx env w₁ i msg) w'

theorem Delivers.handed {i : Fin 2} {msg : Message} {w w' : Mctp δ} (h : Delivers env i msg w w') :
    w'.hist.handed = w.hist.handed ++ [msg] := by
  obtain ⟨w₁, hbefore, hafter⟩ := h
  rw [hafter.handed, mctpRx_handed, hbefore.handed]

section Delivers

variable (env : Env δ) (w : Mctp δ)

theorem busRxSingle_delivers (i : Fin 2) (pkt : MctpPktbuf) :
    Silent env w (busRxSingle env w i pkt) ∨
      ∃ msg, msg.label = pktLabel pkt ∧ Delivers env i msg w (busRxSingle env w i pkt) := by
  unfold busRxSingle
  dsimp only
  have hdup := mctpMsgDup_silent env w
    (mctpPktbufData pkt (subSize (subSize pkt.end_ pkt.mctpHdrOff) mctpHdrSize)) (some ())
  split <;> rename_i hcase <;> rw [hcase] at hdup
  · exact .inl hdup
  · exact .inr ⟨_, rfl, _, hdup, mctpMsgFree_silent env _ _ _⟩

theorem busRxEom_delivers (i : Fin 2) (pkt : MctpPktbuf) :
    Silent env w (busRxEom env w i pkt) ∨
      ∃ msg, msg.label = pktLabel pkt ∧ Delivers env i msg w (busRxEom env w i pkt) := by
  unfold busRxEom
  dsimp only
  split <;> rename_i hlookup
  · exact .inl (silent_refl env w)
  · rename_i j
    have hdrop := mctpMsgCtxDrop_silent env w i j
    split
    · exact .inl hdrop
    · split
      · exact .inl hdrop
      · cases hadd : mctpMsgCtxAddPkt (w.msgCtxs j) pkt with
        | none => exact .inl hdrop
        | some ctx =>
            obtain ⟨hsrc, hdest, -⟩ := mctpMsgCtxAddPkt_key hadd
            rw [lookup_pkt] at hlookup
            obtain ⟨-, hsrc', hdest', -⟩ := MctpMsgCtx.buf_of_key (Table.slot_some hlookup)
            refine .inr ⟨_, ?_, _, silent_setCtx env w j ctx, mctpMsgCtxDrop_silent env _ i j⟩
            dsimp only [Message.label]
            rw [hsrc, hdest, hsrc', hdest']
            rfl

theorem busRxSwitch_delivers (i : Fin 2) (pkt : MctpPktbuf) :
    Silent env w (busRxSwitch env w i pkt) ∨
      ∃ msg, msg.label = pktLabel pkt ∧ Delivers env i msg w (busRxSwitch env w i pkt) := by
  unfold busRxSwitch
  dsimp only
  split
  · exact busRxSingle_delivers env w i pkt
  · split
    · exact .inl (busRxSom_silent env w i pkt)
    · split
      · exact busRxEom_delivers env w i pkt
      · exact .inl (busRxMiddle_silent env w i pkt)

/-- **A packet does nothing but collect, or leads to `mctp_rx` once.** -/
theorem mctpBusRx_delivers (b : Nat) (pkt : MctpPktbuf) :
    Silent env w (mctpBusRx env w b pkt) ∨
      ∃ i msg, (w.bindings b).bus = some i ∧ w.accepts b pkt = true ∧ msg.label = pktLabel pkt ∧
        Delivers env i msg w (mctpBusRx env w b pkt) := by
  obtain ⟨-, ⟨-, hrx⟩ | hrx | hrx⟩ | ⟨i, hbus, hacc, hrx⟩ := mctpBusRx_cases_sight env w b pkt <;>
    rw [hrx]
  · exact .inl ⟨passive_withHist env w (fun h =>
      h.assert false (by decide : Fault.nullBus ≠ .hang)) rfl, rfl, rfl, rfl⟩
  · exact .inl (silent_refl env w)
  · exact .inl (silent_seen env w b pkt)
  · have hseen := silent_seen env w b pkt
    obtain hsilent | ⟨msg, hlabel, w₁, hbefore, hafter⟩ :=
      busRxSwitch_delivers env (w.seen b pkt) i pkt
    · exact .inl (hseen.trans hsilent)
    · exact .inr ⟨i, msg, hbus, hacc, hlabel, w₁, hseen.trans hbefore, hafter⟩

end Delivers

/-- The message a packet completes at an endpoint is for it, and has a tag of three bits. -/
theorem Mctp.accepts_message {w : Mctp δ} {b : Nat} {pkt : MctpPktbuf} {i : Fin 2} {msg : Message}
    (hacc : w.accepts b pkt = true) (hbus : (w.bindings b).bus = some i)
    (hendpoint : w.routePolicy = .endpoint) (hlabel : msg.label = pktLabel pkt) :
    mctpRxDestIsLocal (w.busses i) msg.dest = true ∧ msg.tag &&& mctpHdrTagMask = msg.tag ∧
      msg.src ≠ mctpEidBroadcast := by
  obtain ⟨-, hsrc, hlocal⟩ := (Mctp.accepts_iff hbus).mp hacc
  obtain ⟨hmsgSrc, hmsgDest, -, hmsgTag⟩ := MsgLabel.mk.inj hlabel
  refine ⟨?_, ?_, ?_⟩
  · rw [hmsgDest]
    exact hlocal hendpoint
  · rw [hmsgTag]
    exact hdrTag_masked _
  · rw [hmsgSrc]
    exact hsrc

/-- **A message without the owner bit** is shown to `message_rx` and answered by nobody. -/
theorem mctpRx_notOwner (env : Env δ) {w : Mctp δ} {i : Fin 2} {msg : Message}
    (hendpoint : w.routePolicy = .endpoint)
    (hlocal : mctpRxDestIsLocal (w.busses i) msg.dest = true) (hrx : w.messageRx = true)
    (hcontrol : (w.busBinding i).controlRx = false) (howner : msg.tagOwner = false) :
    Quiet env w (mctpRx env w i msg) ∧
      (mctpRx env w i msg).hist.upcalls
        = w.hist.upcalls ++ [.messageRx msg.src msg.tagOwner msg.tag msg.bytes] := by
  obtain ⟨w₁, hw₁⟩ : ∃ w₁, w₁ = mctpDeallocTag (w.handUp msg) i msg.dest msg.src msg.tag := ⟨_, rfl⟩
  obtain ⟨-, hupcalls, hmessageRx⟩ := mctpDeallocTag_kept (w.handUp msg) i msg.dest msg.src msg.tag
  have hquiet : Quiet env w w₁ := by
    rw [hw₁]
    exact (quiet_handUp env w msg).trans (mctpDeallocTag_passive env _ _ _ _ _).toQuiet
  rw [← hw₁] at hupcalls hmessageRx
  have hleft : mctpRxControl env w₁ i msg = (w₁, false) := by
    rw [mctpRxControl_eq, hquiet.setup.busBinding, hcontrol, howner]
    unfold mctpControlHandler
    simp
  have heq : mctpRx env w i msg
      = w₁.upcall (.messageRx msg.src msg.tagOwner msg.tag msg.bytes) := by
    unfold mctpRx
    dsimp only
    rw [show (w.handUp msg).routePolicy = .endpoint from hendpoint]
    dsimp only
    rw [if_pos (show mctpRxDestIsLocal ((w.handUp msg).busses i) msg.dest = true from hlocal)]
    unfold mctpRxEndpoint
    dsimp only
    rw [if_pos (by rw [howner]; rfl), ← hw₁, hleft]
    exact if_pos (hmessageRx.trans hrx)
  rw [heq]
  refine ⟨hquiet.trans (passive_upcall env w₁ _).toQuiet, ?_⟩
  rw [← show w₁.hist.upcalls = w.hist.upcalls from hupcalls]
  rfl

/-- The call of `message_rx` for a message. -/
def Message.upcall (msg : Message) : Upcall := .messageRx msg.src msg.tagOwner msg.tag msg.bytes

/-- So a packet without it sends nothing, and the message it completes, if any, is shown to
`message_rx`. -/
theorem mctpBusRx_notOwner (env : Env δ) {w : Mctp δ} {b : Nat} {pkt : MctpPktbuf}
    (hendpoint : w.routePolicy = .endpoint) (hrx : w.messageRx = true)
    (hcontrol : ∀ i, (w.bindings b).bus = some i → (w.busBinding i).controlRx = false)
    (howner : (pktLabel pkt).tagOwner = false) :
    Quiet env w (mctpBusRx env w b pkt) ∧
      ∃ msgs, (mctpBusRx env w b pkt).hist.handed = w.hist.handed ++ msgs ∧
      (mctpBusRx env w b pkt).hist.upcalls = w.hist.upcalls ++ msgs.map Message.upcall ∧
      ∀ msg ∈ msgs, msg.tagOwner = false := by
  rcases mctpBusRx_delivers env w b pkt with hsilent | ⟨i, msg, hbus, hacc, hlabel, hdelivers⟩
  · refine ⟨hsilent.toQuiet, [], ?_, ?_, by simp⟩
    · rw [hsilent.handed, List.append_nil]
    · rw [hsilent.upcalls, List.map_nil, List.append_nil]
  · obtain ⟨hlocal, -⟩ := Mctp.accepts_message hacc hbus hendpoint hlabel
    have hmsg : msg.tagOwner = false := by
      rw [← hlabel] at howner
      exact howner
    have hhanded := hdelivers.handed
    obtain ⟨w₁, hbefore, hafter⟩ := hdelivers
    rw [← hbefore.sent.busses] at hlocal
    obtain ⟨hquiet, hupcalls⟩ :=
      mctpRx_notOwner env (hbefore.setup.routePolicy.trans hendpoint) hlocal
      (hbefore.setup.messageRx.trans hrx) (by rw [hbefore.setup.busBinding]; exact hcontrol i hbus)
      hmsg
    refine ⟨(hbefore.toQuiet.trans hquiet).trans hafter.toQuiet, [msg], hhanded,
      ?_, by simpa using hmsg⟩
    rw [hafter.upcalls, hupcalls, hbefore.upcalls]
    rfl

end LibMctp
