import LibMctp.Proof.Link.Wire
import LibMctp.Proof.Receive.Replies
import Mathlib.Algebra.Order.Ring.Nat
import Mathlib.Data.Fintype.Card

/-!
# Two endpoints on a wire

Two endpoints send each other messages, and a packet put on the wire reaches the other end in its
turn. The packets that one side put on the wire are those of the messages it accepted, its answers
to control requests among them, and the other side hands up these messages in order.
-/

namespace LibMctp

open Fragment Reassembly

/-! ### Putting messages on the wire -/

section Send

variable {b start : Nat} {binding : MctpBinding} {w w' : Mctp (List MctpPktbuf)}

theorem wire_tx (b : Nat) (d : List MctpPktbuf) (pkt : MctpPktbuf) :
    (wire.tx b d pkt).2.rc = 0 ∨ (wire.tx b d pkt).2.rc = -ebusy :=
  .inl rfl

theorem Sends.drained {n : Nat} {s s' : BusIo (List MctpPktbuf)} (h : Sends wire b binding n s s')
    (henabled : s.bus.state = .txEnabled) :
    s'.bus.txMsg = none ∧ s'.bus.state = .txEnabled ∧
      ∃ pkts, s'.dev = s.dev ++ pkts ∧ s'.log.sentPkts = s.log.sentPkts ++ pkts := by
  induction h with
  | @idle n s hidle =>
      cases hidle with
      | inl hdisabled => exact absurd henabled hdisabled
      | inr hnone => exact ⟨hnone, henabled, [], (List.append_nil _).symm, (List.append_nil _).symm⟩
  | @busy n s s' t f fs r hattempt hrc =>
      rw [← (Prod.mk.inj hattempt.answer).2] at hrc
      exact absurd hrc (by decide)
  | @fail n s s' t f fs r hattempt hzero hbusy =>
      rw [← (Prod.mk.inj hattempt.answer).2] at hzero
      exact absurd rfl hzero
  | @more n s s' t u f fs r hattempt hzero hsends ih =>
      obtain ⟨hdev, hr⟩ := Prod.mk.inj hattempt.answer
      have hstate : t.bus.state = .txEnabled := by
        rw [hattempt.done_state, hattempt.state, ← hr]
        rfl
      obtain ⟨hnone, hstate', pkts, hpkts, hsent⟩ := ih hstate
      refine ⟨hnone, hstate', fragPkt binding s.bus.label f :: pkts, ?_, ?_⟩
      · rw [hpkts, hattempt.done_dev, ← hdev, List.append_assoc]
        rfl
      · rw [hsent, hattempt.done_log, hattempt.log, BusLog.sentPkts_push,
          if_pos hzero, List.append_assoc]
        rfl

theorem taken_drained (h : BusInv b binding start w (w.busLog 0).accepted)
    (hchunk : 0 < binding.chunk) (henabled : (w.busses 0).state = .txEnabled) {msg : Message}
    (htaken : TxTaken wire w 0 msg w') :
    (w'.busses 0).txMsg = none ∧ (w'.busses 0).state = .txEnabled ∧
      (w'.busLog 0).accepted = (w.busLog 0).accepted ++ [msg] ∧
      ∃ pkts, w'.dev = w.dev ++ pkts ∧ (w'.busLog 0).sentPkts = (w.busLog 0).sentPkts ++ pkts := by
  obtain ⟨w₁, buf, hsent, honly, hbuf, rfl⟩ := htaken.sent
  have hfree : (w₁.busses 0).txMsg = none := by
    rw [hsent.busses]
    exact htaken.free
  have h₁ := (h.of_nothingSent honly.toSameSetup hsent).take wire hfree hbuf
    (tag_lt_of_mask htaken.tag)
  rw [mctpSendTxQueue_accepted]
  generalize hw₂ : w₁.take 0 msg.src msg.dest msg.tagOwner msg.tag buf msg.bytes.length = w₂ at h₁ ⊢
  have hstate : (w₂.busses 0).state = .txEnabled := by
    rw [← hw₂, Mctp.take_bus, hsent.busses]
    exact henabled
  have hlog : w₂.busLog 0 = (w.busLog 0).accept msg := by
    rw [← hw₂, Mctp.take_log, hsent.busLog, hbuf, List.take_length]
  have hdev : w₂.dev = w.dev := by
    rw [← hw₂]
    exact hsent.dev
  obtain ⟨s', hsends, hw'⟩ :=
    mctpSendTxQueue_sends wire w₂ 0 (by rw [h₁.linked.busBinding]; exact hchunk) h₁.queue.ok
    h₁.queue.seq
  obtain ⟨hnone, hstate', pkts, hpkts, hsent'⟩ := hsends.drained hstate
  rw [hw', hlog]
  dsimp only [Mctp.putBusIo]
  rw [Function.update_self, Function.update_self]
  refine ⟨hnone, hstate', rfl, pkts, ?_, ?_⟩
  · rw [hpkts, ← hdev]
    rfl
  · rw [hsent']
    dsimp only [Mctp.busIo]
    rw [hlog]
    rfl

end Send

/-! ### The sending side -/

/-- What is fixed about one end of the link: its binding and the number of it, its endpoint id, the
number of the first packet, and the longest message it puts together. -/
structure Side where
  b : Nat
  binding : MctpBinding
  eid : UInt8
  start : Nat
  cap : Nat

/-- A message that `me` may send to `peer`: in several packets it is no longer than the other end
takes, and it is not a request that would change the endpoint id there. -/
structure Sendable (me peer : Side) (msg : Message) : Prop where
  src : msg.src = me.eid
  dest : msg.dest = peer.eid
  tag : msg.tag.toNat < 8
  fits : me.binding.chunk < msg.bytes.length → msg.bytes.length ≤ peer.cap
  keepsEid : ¬ msg.SetsEid

/-- The packets on the wire are those of the messages accepted, less the ones in `gone`. -/
structure TxSide (me peer : Side) (gone : List MctpPktbuf) (w : Mctp (List MctpPktbuf)) : Prop where
  bus : BusInv me.b me.binding me.start w (w.busLog 0).accepted
  size : mctpPacketSize mctpBtu ≤ me.binding.pktSize
  idle : (w.busses 0).txMsg = none
  enabled : (w.busses 0).state = .txEnabled
  eid : (w.busses 0).eid = me.eid
  endpoint : w.routePolicy = .endpoint
  types : w.control.numMsgTypes ≤ mctpControlMaxTypes
  sent : gone ++ w.dev = (w.busLog 0).sentPkts
  sendable : ∀ msg ∈ (w.busLog 0).accepted, Sendable me peer msg

section TxSide

variable {me peer : Side} {gone : List MctpPktbuf} {w w' : Mctp (List MctpPktbuf)}

theorem TxSide.packets (h : TxSide me peer gone w) :
    gone ++ w.dev = msgPackets me.binding me.start (w.busLog 0).accepted :=
  h.sent.trans (h.bus.queue.idle h.idle)

theorem TxSide.quiet (h : TxSide me peer gone w) (hquiet : Quiet wire w w') :
    TxSide me peer gone w' := by
  obtain ⟨hsetup, hsent⟩ := hquiet
  have hbus := h.bus.of_nothingSent hsetup hsent
  refine ⟨?_, h.size, ?_, ?_, ?_, hsetup.routePolicy.trans h.endpoint, ?_, ?_, ?_⟩
  · rw [hsent.busLog]
    exact hbus
  · rw [hsent.busses]
    exact h.idle
  · rw [hsent.busses]
    exact h.enabled
  · rw [hsent.busses]
    exact h.eid
  · rw [hsetup.control]
    exact h.types
  · rw [hsent.dev, hsent.busLog]
    exact h.sent
  · rw [hsent.busLog]
    exact h.sendable

theorem TxSide.taken (h : TxSide me peer gone w) {msg : Message} (htaken : TxTaken wire w 0 msg w')
    (honly : TxOnly wire w w') (hmsg : Sendable me peer msg) : TxSide me peer gone w' := by
  have hchunk := chunk_pos h.size
  obtain ⟨hidle, hstate, haccepted, pkts, hdev, hsent⟩ :=
    taken_drained h.bus hchunk h.enabled htaken
  refine ⟨?_, h.size, hidle, hstate, (honly.eid 0).trans h.eid,
    honly.routePolicy.trans h.endpoint, ?_, ?_, ?_⟩
  · rw [haccepted]
    exact h.bus.taken htaken hchunk (wire_tx me.b)
  · rw [honly.control]
    exact h.types
  · rw [hdev, hsent, ← h.sent, List.append_assoc]
  · intro msg' hmsg'
    rw [haccepted, List.mem_append, List.mem_singleton] at hmsg'
    rcases hmsg' with hold | rfl
    · exact h.sendable msg' hold
    · exact hmsg

theorem TxSide.messageTx (h : TxSide me peer gone w) {tagOwner : Bool} {tag : UInt8}
    {bytes : List UInt8} (hfits : bytes.length ≤ peer.cap)
    (hkeeps : ¬ Message.SetsEid ⟨me.eid, peer.eid, tagOwner, tag, bytes⟩) :
    TxSide me peer gone (mctpMessageTx wire w peer.eid tagOwner tag bytes).1 := by
  have honly := mctpMessageTx_txOnly wire w peer.eid tagOwner tag bytes
  cases hcall : mctpMessageTx wire w peer.eid tagOwner tag bytes with | mk w' rc =>
  rw [hcall] at honly
  obtain ⟨_, hsent, _⟩ | ⟨_, htaken⟩ := mctpMessageTx_cases wire h.bus.linked hcall
  · exact h.quiet ⟨honly.toSameSetup, hsent⟩
  · rw [h.eid] at htaken
    exact h.taken htaken honly ⟨rfl, rfl, tag_lt_of_mask htaken.tag, fun _ => hfits, hkeeps⟩

theorem TxSide.answer (h : TxSide me peer gone w) (mctp : Option Unit) {tag : UInt8}
    (resp : List UInt8) (hshort : resp.length ≤ mctpBtu) :
    TxSide me peer gone (sendResp wire w mctp peer.eid tag resp).1 := by
  have hchunk : mctpBtu ≤ me.binding.chunk := by
    have hsize := h.size
    unfold mctpPacketSize at hsize
    unfold MctpBinding.chunk
    omega
  have halloc := (mctpMsgAlloc_passive wire w resp.length mctp).toQuiet
  unfold sendResp
  split <;> rename_i hcase <;> rw [hcase] at halloc
  · exact h.quiet halloc
  · rename_i w₁ buf
    have h₁ := h.quiet halloc
    have honly := mctpMessageTxAlloced_txOnly wire w₁ peer.eid false tag
      { buf with bytes := resp } resp.length
    cases hcall : mctpMessageTxAlloced wire w₁ peer.eid false tag
      { buf with bytes := resp } resp.length with | mk w' rc =>
    rw [hcall] at honly
    obtain ⟨_, hsent, _⟩ | ⟨_, htaken⟩ := mctpMessageTxAlloced_cases wire h₁.bus.linked rfl hcall
    · exact h₁.quiet ⟨honly.toSameSetup, hsent⟩
    · rw [h₁.eid] at htaken
      refine h₁.taken htaken honly
        ⟨rfl, rfl, tag_lt_of_mask htaken.tag, fun hlong => ?_, fun hset => ?_⟩
      · dsimp only at hlong
        omega
      · cases hset.1

theorem TxSide.kept (me peer : Side) (gone : List MctpPktbuf) :
    KeptByAnswers wire (TxSide me peer gone) (Sendable peer me) where
  quiet := TxSide.quiet
  answer := by
    intro w msg mctp resp h hmsg hshort
    rw [hmsg.src]
    exact h.answer mctp resp hshort
  endpoint := TxSide.endpoint
  types := TxSide.types
  eid := Sendable.keepsEid

end TxSide

/-! ### The receiving side -/

/-- The endpoint is where the machine is after the packets in `got`. -/
structure RxSide (me : Side) (got : List MctpPktbuf) (w : Mctp (List MctpPktbuf)) : Prop where
  ready : RxReady me.b me.eid me.cap w
  sim : Sim me.cap w (run MsgLabel.key 4 me.cap State.init (got.map pktItem))

section RxSide

variable {me peer : Side} {gone got : List MctpPktbuf} {pkt : MctpPktbuf}
  {w wp : Mctp (List MctpPktbuf)}

theorem RxSide.txOnly {w' : Mctp (List MctpPktbuf)} (h : RxSide me got w)
    (honly : TxOnly wire w w') :
    RxSide me got w' := by
  refine ⟨h.ready.of_sameSetup honly.toSameSetup (honly.eid 0), ?_⟩
  exact h.sim.passes (h.sim.inv.passes honly.msgCtxs honly.handed)

theorem TxSide.tags (h : TxSide peer me gone wp) :
    ∀ msg ∈ (wp.busLog 0).accepted, msg.tag.toNat < 8 :=
  fun msg hmsg => (h.sendable msg hmsg).tag

theorem TxSide.pkt_label (h : TxSide peer me gone wp) (hpkt : pkt ∈ gone ++ wp.dev) :
    (pktLabel pkt).src = peer.eid ∧ (pktLabel pkt).dest = me.eid ∧ (pktLabel pkt).tag.toNat < 8 ∧
      mctpHdrSize ≤ mctpPktbufSize pkt := by
  have hchunk := chunk_pos h.size
  rw [h.packets] at hpkt
  obtain ⟨msg, hmsg, hlabel⟩ := label_of_mem_msgPackets hchunk h.tags hpkt
  have hsend := h.sendable msg hmsg
  rw [hlabel]
  exact ⟨hsend.src, hsend.dest, hsend.tag, size_of_mem_msgPackets hchunk h.tags hpkt⟩

/-- The machine puts out the messages that the peer accepted. -/
theorem TxSide.out_packets (h : TxSide peer me gone wp) :
    (run MsgLabel.key 4 me.cap State.init ((gone ++ wp.dev).map pktItem)).out
      = (wp.busLog 0).accepted.map Message.labelled := by
  have hchunk := chunk_pos h.size
  rw [h.packets, map_pktItem_msgPackets hchunk h.tags, msgFrags,
    run_stream hchunk peer.start _ State.init (fun _ => rfl)]
  · rfl
  · intro item hitem
    obtain ⟨msg, hmsg, rfl⟩ := List.mem_map.mp hitem
    exact (h.sendable msg hmsg).fits

theorem TxSide.out_mono (h : TxSide peer me gone wp) (hgot : got <+: gone ++ wp.dev) :
    (run MsgLabel.key 4 me.cap State.init (got.map pktItem)).out <+: (wp.busLog
      0).accepted.map Message.labelled := by
  obtain ⟨rest, hrest⟩ := hgot
  rw [← h.out_packets, ← hrest, List.map_append]
  exact out_run_mono State.init (got.map pktItem) (rest.map pktItem)

/-- There are 16 contexts, and the peer has 8 tags to tell its messages apart. -/
theorem RxSide.not_full (h : RxSide me gone w) (hpeer : TxSide peer me gone wp) : ¬ w.Full := by
  intro hfull
  have hkey : ∀ j, (w.msgCtxs j).key = some ⟨peer.eid, me.eid, (w.msgCtxs j).tag⟩ ∧
      (w.msgCtxs j).tag.toNat < 8 := by
    intro j
    obtain ⟨buf, hbuf⟩ := Option.isSome_iff_exists.mp (hfull j)
    have hj := MctpMsgCtx.key_of_buf hbuf
    by_contra hother
    have hasm : w.asm ⟨(w.msgCtxs j).src, (w.msgCtxs j).dest, (w.msgCtxs j).tag⟩ = none := by
      rw [h.sim.asm]
      refine asm_run_of_ne State.init _ fun item hitem heq => ?_
      obtain ⟨pkt, hpkt, rfl⟩ := List.mem_map.mp hitem
      obtain ⟨hsrc, hdest, htag, _⟩ := hpeer.pkt_label (List.mem_append_left _ hpkt)
      rw [← heq] at hj
      obtain ⟨_, _, _, htag'⟩ := MctpMsgCtx.buf_of_key hj
      refine hother ⟨?_, ?_⟩
      · rw [hj, htag', ← hsrc, ← hdest]
        rfl
      · rw [htag']
        exact htag
    rw [h.sim.inv.asm_of_slot hj] at hasm
    cases hasm
  have hinj : Function.Injective fun j : Fin 16 =>
      (⟨(w.msgCtxs j).tag.toNat, (hkey j).2⟩ : Fin 8) := by
    intro i j hij
    have htag : (w.msgCtxs i).tag = (w.msgCtxs j).tag := UInt8.toNat_inj.mp (Fin.mk.inj hij)
    have hi := (hkey i).1
    rw [htag] at hi
    exact h.sim.inv.distinct i j _ hi (hkey j).1
  have hcard := Fintype.card_le_of_injective _ hinj
  rw [Fintype.card_fin, Fintype.card_fin] at hcard
  omega

/-- **One packet of the peer.** The message it completes, if any, is one that the peer accepted. -/
theorem RxSide.receive (h : RxSide me gone w) (hpeer : TxSide peer me gone wp)
    {rest : List MctpPktbuf} (hdev : wp.dev = pkt :: rest) (hsrc : peer.eid ≠ mctpEidBroadcast) :
    RxSide me (gone ++ [pkt]) (mctpBusRx wire w me.b pkt) ∧
      ∀ msg, (mctpBusRx wire w me.b pkt).hist.handed = w.hist.handed ++ [msg] →
        Sendable peer me msg := by
  have hpre : gone ++ [pkt] <+: gone ++ wp.dev := by
    rw [hdev]
    exact (List.prefix_append_right_inj _).mpr (List.prefix_append [pkt] rest)
  obtain ⟨hlsrc, hldest, _, hsize⟩ :=
    hpeer.pkt_label (hpre.subset (List.mem_append_right _ List.mem_cons_self))
  have htaken : pktTaken me.eid pkt = true := by
    have hsrc' : (mctpPktbufHdr pkt).src = peer.eid := hlsrc
    have hdest' : (mctpPktbufHdr pkt).dest = me.eid := hldest
    simp [pktTaken, hsize, hsrc', hdest', hsrc, mctpRxDestIsLocal]
  have hsim : Sim me.cap (mctpBusRx wire w me.b pkt)
      (run MsgLabel.key 4 me.cap State.init ((gone ++ [pkt]).map pktItem)) := by
    have hstep : Sim me.cap (mctpBusRx wire w me.b pkt) _ := h.sim.step h.ready rfl fun _ _ _ =>
      h.not_full hpeer
    rw [htaken, if_pos rfl] at hstep
    rw [List.map_append, run_append]
    exact hstep
  have hmsg : ∀ msg, (mctpBusRx wire w me.b pkt).hist.handed = w.hist.handed ++ [msg] →
      Sendable peer me msg := by
    intro msg hhanded
    have hout := hpeer.out_mono hpre
    rw [← hsim.handed, hhanded] at hout
    have hmem : msg.labelled ∈ (wp.busLog 0).accepted.map Message.labelled :=
      hout.subset (List.mem_map_of_mem (List.mem_append_right _ List.mem_cons_self))
    obtain ⟨msg', hmsg', heq⟩ := List.mem_map.mp hmem
    rw [← Message.labelled_injective heq]
    exact hpeer.sendable msg' hmsg'
  refine ⟨⟨?_, hsim⟩, hmsg⟩
  exact h.ready.of_sameSetup (mctpBusRx_sameSetup wire w me.b pkt)
    (mctpBusRx_eid wire (fun msg hh => (hmsg msg hh).keepsEid) 0)

end RxSide

/-! ### The link -/

/-- What happens on the link: one end sends a message to the other, or receives the oldest packet on
its way. -/
inductive LinkOp where
  | send (i : Bool) (tagOwner : Bool) (tag : UInt8) (msg : List UInt8)
  | receive (i : Bool)

def linkStep (side : Bool → Side) (ends : Bool → Mctp (List MctpPktbuf)) :
    LinkOp → Bool → Mctp (List MctpPktbuf)
  | .send i tagOwner tag msg =>
    Function.update ends i (mctpMessageTx wire (ends i) (side !i).eid tagOwner tag msg).1
  | .receive i =>
    match (ends !i).dev with
    | [] => ends
    | pkt :: rest =>
      Function.update (Function.update ends (!i) { ends !i with dev := rest }) i
        (mctpBusRx wire (ends i) (side i).b pkt)

/-- A message sent is no longer than the other end takes, and does not set its endpoint id. -/
def LinkOp.Ok (side : Bool → Side) : LinkOp → Prop
  | .send i tagOwner tag msg =>
    msg.length ≤ (side !i).cap ∧ ¬ Message.SetsEid ⟨(side i).eid, (side !i).eid, tagOwner, tag, msg⟩
  | .receive _ => True

structure FreshSide (me : Side) (w : Mctp (List MctpPktbuf)) :
    Prop extends FreshEndpoint me.b me.eid me.cap w where
  linked : Linked w me.b me.binding
  size : mctpPacketSize mctpBtu ≤ me.binding.pktSize
  enabled : (w.busses 0).state = .txEnabled
  idle : (w.busses 0).txMsg = none
  seq : (w.busses 0).txSeq.toNat = me.start % 4
  log : w.busLog 0 = {}
  dev : w.dev = []
  types : w.control.numMsgTypes ≤ mctpControlMaxTypes
  terminated : w.hist.Terminated

/-- Both directions at one end: `gone` are the packets it sent that reached the other end, `got`
those it received. -/
structure EndInv (me peer : Side) (gone got : List MctpPktbuf) (w : Mctp (List MctpPktbuf)) :
    Prop where
  tx : TxSide me peer gone w
  rx : RxSide me got w

section Link

variable {me peer : Side} {gone got : List MctpPktbuf} {w : Mctp (List MctpPktbuf)}

theorem FreshSide.endInv (h : FreshSide me w) (peer : Side) : EndInv me peer [] [] w := by
  refine ⟨⟨⟨h.linked, ?_, h.terminated⟩, h.size, h.idle, h.enabled, h.eid, h.endpoint,
    h.types, ?_, ?_⟩, ?_⟩
  · rw [h.log]
    exact .init h.idle h.seq
  · rw [h.dev, h.log]
    rfl
  · rw [h.log]
    exact fun msg hmsg => absurd hmsg List.not_mem_nil
  · exact ⟨h.toRxReady, h.sim⟩

theorem EndInv.pop (h : EndInv me peer gone got w) {pkt : MctpPktbuf} {rest : List MctpPktbuf}
    (hdev : w.dev = pkt :: rest) :
    EndInv me peer (gone ++ [pkt]) got { w with dev := rest } := by
  obtain ⟨htx, hrx⟩ := h
  refine ⟨⟨?_, htx.size, htx.idle, htx.enabled, htx.eid, htx.endpoint, htx.types, ?_, htx.sendable⟩,
    ?_⟩
  · obtain ⟨hlinked, hqueue, hterm⟩ := htx.bus
    exact ⟨⟨hlinked.nBusses, hlinked.bus, hlinked.mctp, hlinked.eq, hlinked.back, hlinked.owner⟩,
      hqueue, hterm⟩
  · rw [← htx.sent, hdev, List.append_assoc]
    rfl
  · obtain ⟨hready, hsim⟩ := hrx
    exact ⟨⟨hready.bus, hready.endpoint, hready.eid, hready.max⟩,
      hsim.passes (hsim.inv.passes rfl rfl)⟩

theorem EndInv.receive (h : EndInv me peer gone got w) {wp : Mctp (List MctpPktbuf)}
    (hpeer : TxSide peer me got wp) {pkt : MctpPktbuf} {rest : List MctpPktbuf}
    (hdev : wp.dev = pkt :: rest) (hsrc : peer.eid ≠ mctpEidBroadcast) :
    EndInv me peer gone (got ++ [pkt]) (mctpBusRx wire w me.b pkt) := by
  obtain ⟨hrx, hmsg⟩ := h.rx.receive hpeer hdev hsrc
  exact ⟨(TxSide.kept me peer gone).mctpBusRx h.tx hmsg, hrx⟩

theorem EndInv.messageTx (h : EndInv me peer gone got w) {tagOwner : Bool} {tag : UInt8}
    {bytes : List UInt8} (hfits : bytes.length ≤ peer.cap)
    (hkeeps : ¬ Message.SetsEid ⟨me.eid, peer.eid, tagOwner, tag, bytes⟩) :
    EndInv me peer gone got (mctpMessageTx wire w peer.eid tagOwner tag bytes).1 :=
  ⟨h.tx.messageTx hfits hkeeps,
    h.rx.txOnly (mctpMessageTx_txOnly wire w peer.eid tagOwner tag bytes)⟩

end Link

/-- Each end has received what the other end has sent and the wire no longer holds. -/
def LinkInv (side : Bool → Side) (ends : Bool → Mctp (List MctpPktbuf)) : Prop :=
  ∃ gone : Bool → List MctpPktbuf, ∀ i, EndInv (side i) (side !i) (gone i) (gone !i) (ends i)

section Run

variable {side : Bool → Side} {ends : Bool → Mctp (List MctpPktbuf)}

theorem LinkInv.step (h : LinkInv side ends) (heid : ∀ i, (side i).eid ≠ mctpEidBroadcast)
    {op : LinkOp} (hop : op.Ok side) :
    LinkInv side (linkStep side ends op) := by
  obtain ⟨gone, hends⟩ := h
  cases op with
  | send i tagOwner tag msg =>
      refine ⟨gone, fun j => ?_⟩
      rw [linkStep]
      by_cases hj : j = i
      · subst hj
        rw [Function.update_self]
        exact (hends j).messageTx hop.1 hop.2
      · rw [Function.update_of_ne hj]
        exact hends j
  | receive i =>
      rw [linkStep]
      split
      · exact ⟨gone, hends⟩
      · rename_i pkt rest hdev
        refine ⟨Function.update gone (!i) (gone (!i) ++ [pkt]), fun j => ?_⟩
        have hne : i ≠ !i := by simp
        by_cases hj : j = i
        · subst hj
          have hpeer := (hends !j).tx
          rw [Bool.not_not] at hpeer
          rw [Function.update_self, Function.update_self, Function.update_of_ne hne]
          exact (hends j).receive hpeer hdev (heid _)
        · have hother : j = !i := Bool.eq_not.mpr hj
          subst hother
          have hpop := (hends !i).pop hdev
          rw [Bool.not_not] at hpop ⊢
          rw [Function.update_of_ne (Ne.symm hne), Function.update_self, Function.update_self,
            Function.update_of_ne hne]
          exact hpop

theorem LinkInv.run (h : LinkInv side ends) (heid : ∀ i, (side i).eid ≠ mctpEidBroadcast)
    (ops : List LinkOp) (hops : ∀ op ∈ ops, op.Ok side) :
    LinkInv side (ops.foldl (linkStep side) ends) := by
  induction ops generalizing ends with
  | nil => exact h
  | cons op ops ih =>
      exact ih (h.step heid (hops op List.mem_cons_self)) fun op' hop' =>
        hops op' (List.mem_cons_of_mem _ hop')

end Run

/-- **Messages get across.** However two fresh endpoints send each other messages and receive the
packets on their way, each hands up, in order, messages that the other accepted, its answers to
control requests among them, and has handed up all of them when the wire is empty. -/
theorem linkRun_delivers (side : Bool → Side) (ends : Bool → Mctp (List MctpPktbuf))
    (ops : List LinkOp) (hfresh : ∀ i, FreshSide (side i) (ends i))
    (heid : ∀ i, (side i).eid ≠ mctpEidBroadcast) (hops : ∀ op ∈ ops, op.Ok side) :
    let after := ops.foldl (linkStep side) ends
    ∀ i, (after i).hist.handed <+: ((after !i).busLog 0).accepted ∧
      ((after !i).dev = [] → (after i).hist.handed = ((after !i).busLog 0).accepted) := by
  intro after i
  obtain ⟨gone, hends⟩ :=
    LinkInv.run ⟨fun _ => [], fun i => (hfresh i).endInv (side !i)⟩ heid ops hops
  have hrx := (hends i).rx.sim.handed
  have hpeer := (hends !i).tx
  rw [Bool.not_not] at hpeer
  refine ⟨?_, fun hempty => ?_⟩
  · have hout := hpeer.out_mono (List.prefix_append _ _)
    rw [← hrx] at hout
    obtain ⟨rest, hrest⟩ := hout
    obtain ⟨front, back, haccepted, hfront, _⟩ := List.map_eq_append_iff.mp hrest.symm
    rw [Message.labelled_injective.list_map hfront] at haccepted
    exact ⟨back, haccepted.symm⟩
  · have hout := hpeer.out_packets
    have hwire : (ops.foldl (linkStep side) ends !i).dev = [] := hempty
    rw [hwire, List.append_nil, ← hrx] at hout
    exact Message.labelled_injective.list_map hout

def smallSide (i : Bool) : Side :=
  { b := 0
    binding := { smallBinding with bus := some 0, mctp := some () }
    eid := if i then 9 else 8
    start := if i then 1 else 3
    cap := 1024 }

def smallEnd (i : Bool) : Mctp (List MctpPktbuf) :=
  let w := mctpSetMaxMessageSize
    (mctpRegisterBus wire (mctpSetup (fun _ => smallBinding) 0 []) 0 (smallSide i).eid).1 1024
  w.setBus 0 { w.busses 0 with txSeq := if i then 1 else 3 }

theorem smallEnd_fresh (i : Bool) : FreshSide (smallSide i) (smallEnd i) := by
  refine ⟨⟨⟨?_, ?_, ?_, ?_⟩, ?_, ?_⟩, ⟨?_, ?_, ?_, ?_, ?_, ?_⟩, ?_, ?_, ?_, ?_, ?_, ?_, ?_, ?_⟩ <;>
    cases i
  case refine_5.false | refine_5.true => exact fun _ => rfl
  case refine_13.false | refine_13.true => exact (by decide : 68 ≤ 68)
  case refine_19.false | refine_19.true => exact (by decide : 1 ≤ 10)
  case refine_20.false | refine_20.true => exact List.not_mem_nil
  all_goals rfl

/-- A Get Endpoint ID request from 8 to 9, and the answer. -/
theorem linkRun_delivers_answer :
    let after :=
      ([.send false true 1 [0, 0x80, 2], .receive true, .receive false] : List LinkOp).foldl
      (linkStep smallSide) smallEnd
    (after false).hist.handed = ((after true).busLog 0).accepted ∧
      ((after true).busLog 0).accepted = [⟨9, 8, false, 1, [0, 0, 2, 0, 9, 1, 0]⟩] := by
  refine ⟨?_, by decide +kernel⟩
  refine (linkRun_delivers smallSide smallEnd _ smallEnd_fresh (fun i => by cases i <;> decide) ?_
    false).2 (by decide +kernel)
  intro op hop
  simp only [List.mem_cons, List.not_mem_nil, or_false] at hop
  rcases hop with rfl | rfl | rfl
  · exact ⟨by decide, by decide⟩
  · trivial
  · trivial

end LibMctp
