import LibMctp.Proof.Receive.Spec
import LibMctp.Proof.Transmit.Calls

/-!
# How a packet ends

Whatever a packet does to the contexts, it either hands up nothing, and then nothing is sent, or it
completes one message, and all that is sent is what the handling of that message sends.
-/

namespace LibMctp

variable {δ : Type}

/-- Nothing was sent and nothing set up anew. -/
structure Quiet (env : Env δ) (w w' : Mctp δ) : Prop where
  setup : SameSetup env w w'
  sent : NothingSent w w'

/-- Nothing was sent or handed up. -/
structure Passive (env : Env δ) (w w' : Mctp δ) : Prop extends Quiet env w w' where
  handed : w'.hist.handed = w.hist.handed

variable {env : Env δ}

theorem Quiet.trans {w w' w'' : Mctp δ} (h : Quiet env w w') (h' : Quiet env w' w'') :
    Quiet env w w'' :=
  ⟨h.setup.trans h'.setup, h.sent.trans h'.sent⟩

theorem Passive.trans {w w' w'' : Mctp δ} (h : Passive env w w') (h' : Passive env w' w'') :
    Passive env w w'' :=
  ⟨h.toQuiet.trans h'.toQuiet, h'.handed.trans h.handed⟩

/-! ### Steps that send nothing -/

section Passive

variable (env : Env δ) (w : Mctp δ)

theorem quiet_withHist {hist : History} (h : w.hist.Terminated → hist.Terminated) :
    Quiet env w (w.withHist hist) :=
  ⟨sameSetup_withHist env w hist, ⟨rfl, rfl, rfl, h⟩⟩

theorem quiet_handUp (msg : Message) : Quiet env w (w.handUp msg) := quiet_withHist env w id

theorem passive_withHist {hist : History} (h : w.hist.Terminated → hist.Terminated)
    (hhanded : hist.handed = w.hist.handed) :
    Passive env w (w.withHist hist) :=
  ⟨quiet_withHist env w h, hhanded⟩

theorem passive_refl : Passive env w w := passive_withHist env w id rfl

theorem passive_setCtx (j : Fin 16) (ctx : MctpMsgCtx) : Passive env w (w.setCtx j ctx) :=
  ⟨⟨sameSetup_setCtx env w j ctx, ⟨rfl, rfl, rfl, id⟩⟩, rfl⟩

theorem passive_upcall (call : Upcall) :
    Passive env w (w.upcall call) := passive_withHist env w id rfl

theorem mctpMsgAlloc_passive (size : Nat) (mctp : Option Unit) :
    Passive env w (mctpMsgAlloc env w size mctp).1 :=
  ⟨⟨(mctpMsgAlloc_txOnly env w size mctp).toSameSetup, mctpMsgAlloc_nothingSent env w size mctp⟩,
    (mctpMsgAlloc_txOnly env w size mctp).handed⟩

theorem mctpMsgDup_passive (msg : List UInt8) (mctp : Option Unit) :
    Passive env w (mctpMsgDup env w msg mctp).1 :=
  ⟨⟨(mctpMsgDup_txOnly env w msg mctp).toSameSetup, mctpMsgDup_nothingSent env w msg mctp⟩,
    (mctpMsgDup_txOnly env w msg mctp).handed⟩

theorem mctpMsgFree_passive (ptr : MsgBuf) (mctp : Option Unit) :
    Passive env w (mctpMsgFree w ptr mctp) :=
  ⟨⟨(mctpMsgFree_txOnly env w ptr mctp).toSameSetup, mctpMsgFree_nothingSent w ptr mctp⟩,
    (mctpMsgFree_txOnly env w ptr mctp).handed⟩

theorem mctpDeallocTag_passive (i : Fin 2) (localEid remote tag : UInt8) :
    Passive env w (mctpDeallocTag w i localEid remote tag) := by
  have honly := mctpDeallocTag_rxOnly env w i localEid remote tag
  refine ⟨⟨honly.toSameSetup, ?_⟩, honly.handed⟩
  unfold mctpDeallocTag
  dsimp only
  split
  · exact ⟨rfl, rfl, rfl, fun h => h.deref _⟩
  · split
    · exact ⟨rfl, rfl, rfl, fun h => h.deref _⟩
    · exact ⟨rfl, rfl, rfl, fun h => h.deref _⟩

theorem mctpMsgCtxDrop_passive (i : Fin 2) (j : Fin 16) : Passive env w (mctpMsgCtxDrop w i j) := by
  refine ⟨⟨mctpMsgCtxDrop_sameSetup env w i j, ⟨rfl, rfl, rfl, fun h => ?_⟩⟩,
    mctpMsgCtxDrop_handed w i j⟩
  unfold mctpMsgCtxDrop
  dsimp only [Mctp.withHist]
  split
  · exact h.mctpMsgFree _ _
  · exact h.deref _

theorem mctpMsgCtxCreate_passive (src dest tag : UInt8) :
    Passive env w (mctpMsgCtxCreate env w src dest tag).1 := by
  unfold mctpMsgCtxCreate
  split
  · exact passive_refl env w
  · have halloc := mctpMsgAlloc_passive env w w.maxMessageSize.toNat (some ())
    dsimp only
    split <;> rename_i hcase <;> rw [hcase] at halloc
    · exact halloc.trans (passive_setCtx env _ _ _)
    · exact halloc.trans (passive_setCtx env _ _ _)

theorem busRxStart_passive (i : Fin 2) (pkt : MctpPktbuf) (j : Fin 16) :
    Passive env w (busRxStart w i pkt j) := by
  unfold busRxStart
  dsimp only
  cases mctpMsgCtxAddPkt { w.msgCtxs j with fragmentSize := mctpPktbufSize pkt } pkt with
  | none => exact (passive_setCtx env w _ _).trans (mctpMsgCtxDrop_passive env _ i j)
  | some ctx => exact passive_setCtx env w _ _

theorem busRxSom_passive (i : Fin 2) (pkt : MctpPktbuf) : Passive env w (busRxSom env w i pkt) := by
  unfold busRxSom
  dsimp only
  split
  · exact (passive_setCtx env w _ _).trans (busRxStart_passive env _ i pkt _)
  · have hcreate := mctpMsgCtxCreate_passive env w (mctpPktbufHdr pkt).src (mctpPktbufHdr pkt).dest
      (hdrTag (mctpPktbufHdr pkt))
    split <;> rename_i hcase <;> rw [hcase] at hcreate
    · exact hcreate
    · exact hcreate.trans (busRxStart_passive env _ i pkt _)

theorem busRxMiddle_passive (i : Fin 2) (pkt : MctpPktbuf) :
    Passive env w (busRxMiddle w i pkt) := by
  unfold busRxMiddle
  dsimp only
  split
  · exact passive_refl env w
  · rename_i j _
    split
    · exact mctpMsgCtxDrop_passive env w i j
    · split
      · exact mctpMsgCtxDrop_passive env w i j
      · cases mctpMsgCtxAddPkt (w.msgCtxs j) pkt with
        | none => exact mctpMsgCtxDrop_passive env w i j
        | some ctx => exact passive_setCtx env w _ _

end Passive

/-! ### The message a packet completes -/

/-- The call handed up the message, and sent what `mctp_rx` sends for it. -/
structure HandsUp (env : Env δ) (i : Fin 2) (msg : Message) (w w' : Mctp δ) : Prop where
  rx : ∃ w₁, Passive env w w₁ ∧ Passive env (mctpRx env w₁ i msg) w'

theorem HandsUp.handed {i : Fin 2} {msg : Message} {w w' : Mctp δ} (h : HandsUp env i msg w w') :
    w'.hist.handed = w.hist.handed ++ [msg] := by
  obtain ⟨w₁, hbefore, hafter⟩ := h.rx
  rw [hafter.handed, mctpRx_handed, hbefore.handed]

section Outcome

variable (env : Env δ) (w : Mctp δ)

theorem busRxSingle_outcome (i : Fin 2) (pkt : MctpPktbuf) :
    Passive env w (busRxSingle env w i pkt) ∨
      ∃ msg, msg.label = pktLabel pkt ∧ HandsUp env i msg w (busRxSingle env w i pkt) := by
  unfold busRxSingle
  dsimp only
  have hdup := mctpMsgDup_passive env w
    (mctpPktbufData pkt (subSize (subSize pkt.end_ pkt.mctpHdrOff) mctpHdrSize)) (some ())
  split <;> rename_i hcase <;> rw [hcase] at hdup
  · exact .inl hdup
  · exact .inr ⟨_, rfl, _, hdup, mctpMsgFree_passive env _ _ _⟩

theorem mctpMsgCtxAddPkt_key {ctx ctx' : MctpMsgCtx} {pkt : MctpPktbuf}
    (h : mctpMsgCtxAddPkt ctx pkt = some ctx') :
    ctx'.src = ctx.src ∧ ctx'.dest = ctx.dest ∧ ctx'.tag = ctx.tag := by
  unfold mctpMsgCtxAddPkt at h
  dsimp only at h
  split_ifs at h
  rw [← Option.some.inj h]
  exact ⟨rfl, rfl, rfl⟩

theorem busRxEom_outcome (i : Fin 2) (pkt : MctpPktbuf) :
    Passive env w (busRxEom env w i pkt) ∨
      ∃ msg, msg.label = pktLabel pkt ∧ HandsUp env i msg w (busRxEom env w i pkt) := by
  unfold busRxEom
  dsimp only
  split <;> rename_i hlookup
  · exact .inl (passive_refl env w)
  · rename_i j
    have hdrop := mctpMsgCtxDrop_passive env w i j
    split
    · exact .inl hdrop
    · split
      · exact .inl hdrop
      · cases hadd : mctpMsgCtxAddPkt (w.msgCtxs j) pkt with
        | none => exact .inl hdrop
        | some ctx =>
            obtain ⟨hsrc, hdest, -⟩ := mctpMsgCtxAddPkt_key hadd
            rw [lookup_pkt] at hlookup
            obtain ⟨-, hsrc', hdest', -⟩ := MctpMsgCtx.buf_of_key (Table.slot_some hlookup)
            refine .inr ⟨_, ?_, _, passive_setCtx env w j ctx, mctpMsgCtxDrop_passive env _ i j⟩
            dsimp only [Message.label]
            rw [hsrc, hdest, hsrc', hdest']
            rfl

theorem busRxSwitch_outcome (i : Fin 2) (pkt : MctpPktbuf) :
    Passive env w (busRxSwitch env w i pkt) ∨
      ∃ msg, msg.label = pktLabel pkt ∧ HandsUp env i msg w (busRxSwitch env w i pkt) := by
  unfold busRxSwitch
  dsimp only
  split
  · exact busRxSingle_outcome env w i pkt
  · split
    · exact .inl (busRxSom_passive env w i pkt)
    · split
      · exact busRxEom_outcome env w i pkt
      · exact .inl (busRxMiddle_passive env w i pkt)

theorem passive_seen (b : Nat) (pkt : MctpPktbuf) : Passive env w (w.seen b pkt) :=
  passive_withHist env w (fun h => (h.deref _).capture _ _ _) (seen_handed w b pkt)

/-- **A packet sends nothing, or completes one message.** That message carries the addressing of the
packet. -/
theorem mctpBusRx_outcome (b : Nat) (pkt : MctpPktbuf) :
    Passive env w (mctpBusRx env w b pkt) ∨
      ∃ i msg, (w.bindings b).bus = some i ∧ w.accepts b pkt = true ∧ msg.label = pktLabel pkt ∧
        HandsUp env i msg w (mctpBusRx env w b pkt) := by
  obtain ⟨-, ⟨-, hrx⟩ | hrx | hrx⟩ | ⟨i, hbus, hacc, hrx⟩ := mctpBusRx_cases_sight env w b pkt <;>
    rw [hrx]
  · exact .inl (passive_withHist env w (fun h => h.assert false (by decide : Fault.nullBus ≠ .hang))
      rfl)
  · exact .inl (passive_refl env w)
  · exact .inl (passive_seen env w b pkt)
  · have hseen := passive_seen env w b pkt
    obtain hpass | ⟨msg, hlabel, w₁, hbefore, hafter⟩ :=
      busRxSwitch_outcome env (w.seen b pkt) i pkt
    · exact .inl (hseen.trans hpass)
    · exact .inr ⟨i, msg, hbus, hacc, hlabel, w₁, hseen.trans hbefore, hafter⟩

end Outcome

end LibMctp
