import LibMctp.Lib.Loss
import LibMctp.Proof.Link.Wire

/-!
# Packets lost on the way

A sender cuts messages to one destination, all with one tag, into packets whose numbers go on modulo
4. Where fewer than four packets in a row are lost, the receiver hands up some of the messages sent,
whole and in order, provided that no message of a single packet comes while a context of its key is
in use. `mctp_bus_rx` leaves such a context as it is, and a packet of a later message may then fit
to it.
-/

namespace LibMctp

open Fragment Reassembly

variable {δ : Type}

/-! ### The receiver -/

/-- Whenever a message of a single packet comes, no context of its key is in use. -/
def SinglesFindNone (env : Env δ) (b : Nat) : Mctp δ → List MctpPktbuf → Prop
  | _, [] => True
  | w, pkt :: pkts =>
    (hdrFlags (mctpPktbufHdr pkt) = mctpHdrFlagSom ||| mctpHdrFlagEom →
        mctpMsgCtxLookup w (mctpPktbufHdr pkt).src (mctpPktbufHdr pkt).dest (hdrTag
          (mctpPktbufHdr pkt)) = none) ∧
      SinglesFindNone env b (mctpBusRx env w b pkt) pkts

section Receiver

variable {env : Env δ} {b cap : Nat} {w : Mctp δ} {l : MsgLabel}

theorem flags_of_pktFrag_single {pkt : MctpPktbuf} (hfirst : (pktFrag pkt).first = true)
    (hlast : (pktFrag pkt).last = true) :
    hdrFlags (mctpPktbufHdr pkt) = mctpHdrFlagSom ||| mctpHdrFlagEom := by
  by_contra hboth
  by_cases hsom : hdrFlags (mctpPktbufHdr pkt) = mctpHdrFlagSom
  · rw [pktFrag_som hsom] at hlast
    cases hlast
  · by_cases heom : hdrFlags (mctpPktbufHdr pkt) = mctpHdrFlagEom
    · rw [pktFrag_eom heom] at hfirst
      cases hfirst
    · rw [pktFrag_middle hboth hsom heom] at hfirst
      cases hfirst

/-- Whether a packet is dropped on sight depends on its addressing alone. -/
theorem accepts_congr {pkt pkt' : MctpPktbuf} (hlabel : pktLabel pkt = pktLabel pkt')
    (hsize : mctpHdrSize ≤ mctpPktbufSize pkt) (hsize' : mctpHdrSize ≤ mctpPktbufSize pkt') :
    w.accepts b pkt = w.accepts b pkt' := by
  have hsrc : (mctpPktbufHdr pkt).src = (mctpPktbufHdr pkt').src := congrArg MsgLabel.src hlabel
  have hdest : (mctpPktbufHdr pkt).dest = (mctpPktbufHdr pkt').dest := congrArg MsgLabel.dest hlabel
  unfold Mctp.accepts
  rw [hsrc, hdest]
  simp [hsize, hsize']

theorem rxRun_dropped {pkts : List MctpPktbuf} (h : ∀ pkt ∈ pkts, w.accepts b pkt = false) :
    (rxRun env b w pkts).hist.handed = w.hist.handed := by
  induction pkts generalizing w with
  | nil => rfl
  | cons pkt pkts ih =>
      obtain ⟨hist, hhanded, hrx⟩ := mctpBusRx_dropped env (h pkt List.mem_cons_self)
      have hrest : (rxRun env b (w.withHist hist) pkts).hist.handed = hist.handed :=
        ih fun pkt' hpkt' => h pkt' (List.mem_cons_of_mem _ hpkt')
      rw [← hhanded, ← hrest, ← hrx]
      rfl

/-- **Packets of one label move one assembly.** Once they are dropped on sight they always are. -/
theorem rxRun_receives (pkts : List MctpPktbuf) (hinv : RxInv cap w)
    (hmax : w.maxMessageSize.toNat = cap) (hlabel : ∀ pkt ∈ pkts, pktLabel pkt = l)
    (hsize : ∀ pkt ∈ pkts, mctpHdrSize ≤ mctpPktbufSize pkt)
    (hsingle : SinglesFindNone env b w pkts) :
    ∃ outs, Receives 4 cap (w.asm l.key) (pkts.map pktFrag) outs ∧
      (rxRun env b w pkts).hist.handed = w.hist.handed ++ outs.map l.message := by
  induction pkts generalizing w with
  | nil => exact ⟨[], .stop _ _, (List.append_nil _).symm⟩
  | cons pkt pkts ih =>
      obtain ⟨hnone, hsingle'⟩ := hsingle
      have hl := hlabel pkt List.mem_cons_self
      have hrest := fun pkt' h => hlabel pkt' (List.mem_cons_of_mem pkt h)
      have hsize' := fun pkt' h => hsize pkt' (List.mem_cons_of_mem pkt h)
      have hpending : (pktFrag pkt).first = true → (pktFrag pkt).last = true →
          w.asm l.key = none := by
        intro hfirst hlast
        have hslot := hnone (flags_of_pktFrag_single hfirst hlast)
        rw [lookup_pkt, hl] at hslot
        exact asm_of_slot_none hslot
      have hmax' : (mctpBusRx env w b pkt).maxMessageSize.toNat = cap := by
        rw [(mctpBusRx_sameSetup env w b pkt).maxMessageSize]
        exact hmax
      cases hacc : w.accepts b pkt with
      | false =>
          refine ⟨[], .stop _ _, ?_⟩
          rw [List.map_nil, List.append_nil]
          refine rxRun_dropped fun pkt' hpkt' => ?_
          rw [← hacc]
          refine accepts_congr ((hlabel pkt' hpkt').trans hl.symm) (hsize pkt' hpkt')
            (hsize pkt List.mem_cons_self)
      | true =>
          obtain hdone | ⟨hpass, hskips, _⟩ := mctpBusRx_spec env hinv hmax hacc
          · obtain ⟨outs, hrec, hhanded⟩ := ih hdone.inv hmax' hrest hsize' hsingle'
            have hstep : rxStep cap w pkt = step 4 cap (w.asm l.key) (pktFrag pkt) := by
              rw [rxStep, hl]
            rw [hdone.asm, hl, Function.update_self, hstep] at hrec
            refine ⟨_, .step _ _ hpending hrec, hhanded.trans ?_⟩
            rw [hdone.handed, hl, hstep, List.append_assoc, List.map_append]
            cases (step 4 cap (w.asm l.key) (pktFrag pkt)).2 with
            | none => rfl
            | some bytes => rfl
          · obtain ⟨outs, hrec, hhanded⟩ := ih hpass.inv hmax' hrest hsize' hsingle'
            have hasm : w.asm l.key = none := by
              rw [hl] at hskips
              exact hskips.2.elim (hpending hskips.1) id
            rw [hpass.asm, hasm] at hrec
            rw [hpass.handed] at hhanded
            refine ⟨outs, ?_, hhanded⟩
            rw [hasm]
            exact .skip _ hrec

end Receiver

/-! ### The sender -/

/-- Every message goes to one destination with one tag. -/
def TxOp.Addressed (dest : UInt8) (tagOwner : Bool) (tag : UInt8) : TxOp → Prop
  | .messageTx eid tagOwner' msgTag _ => eid = dest ∧ tagOwner' = tagOwner ∧ msgTag = tag
  | .setTxEnabled _ => True

section Sender

variable {env : Env δ} {b : Nat} {binding : MctpBinding} {eid dest tag : UInt8} {tagOwner : Bool}

/-- The messages accepted have the label that all of them are sent with. -/
structure SentAlike (l : MsgLabel) (w : Mctp δ) (msgs : List Message) : Prop where
  eid : (w.busses 0).eid = l.src
  label : ∀ msg ∈ msgs, msg.label = l
  tag : ∀ msg ∈ msgs, msg.tag.toNat < 8

theorem SentAlike.step {st : Mctp δ × List Message}
    (h : SentAlike ⟨eid, dest, tagOwner, tag⟩ st.1 st.2) {start : Nat}
    (hbus : BusInv b binding start st.1 st.2) {op : TxOp} (hop : op.Addressed dest tagOwner tag) :
    SentAlike ⟨eid, dest, tagOwner, tag⟩ (txStep env b st op).1 (txStep env b st op).2 := by
  cases op with
  | setTxEnabled enable =>
      exact ⟨((mctpBindingSetTxEnabled_txOnly env st.1 b enable).eid 0).trans h.eid, h.label, h.tag⟩
  | messageTx eid' tagOwner' msgTag msg =>
      obtain ⟨rfl, rfl, rfl⟩ := hop
      have honly := mctpMessageTx_txOnly env st.1 eid' tagOwner' msgTag msg
      rw [txStep]
      cases hcall : mctpMessageTx env st.1 eid' tagOwner' msgTag msg with | mk w' rc =>
      rw [hcall] at honly
      have heid := (honly.eid 0).trans h.eid
      dsimp only
      obtain ⟨hrc, _⟩ | ⟨hrc, htaken⟩ := mctpMessageTx_cases env hbus.linked hcall
      · rw [if_neg hrc]
        exact ⟨heid, h.label, h.tag⟩
      · rw [if_pos hrc]
        refine ⟨heid, ?_, ?_⟩ <;> intro msg' hmsg' <;>
          rw [List.mem_append, List.mem_singleton] at hmsg' <;>
          rcases hmsg' with hold | rfl
        · exact h.label msg' hold
        · rw [h.eid]
          rfl
        · exact h.tag msg' hold
        · exact tag_lt_of_mask htaken.tag

theorem SentAlike.run {st : Mctp δ × List Message}
    (h : SentAlike ⟨eid, dest, tagOwner, tag⟩ st.1 st.2) {start : Nat}
    (hbus : BusInv b binding start st.1 st.2) (hchunk : 0 < binding.chunk)
    (htx : ∀ d pkt, (env.tx b d pkt).2.rc = 0 ∨ (env.tx b d pkt).2.rc = -ebusy) (ops : List TxOp)
    (hops : ∀ op ∈ ops, op.Addressed dest tagOwner tag) :
    SentAlike ⟨eid, dest, tagOwner, tag⟩ (ops.foldl (txStep env b) st).1
      (ops.foldl (txStep env b) st).2 := by
  induction ops generalizing st with
  | nil => exact h
  | cons op ops ih =>
      exact ih (h.step hbus (hops op List.mem_cons_self)) (hbus.step hchunk htx op)
        fun op' hop' => hops op' (List.mem_cons_of_mem _ hop')

theorem mctpRegisterBus_sentAlike {bindings : Nat → MctpBinding} {now : Nat} {dev : δ}
    (hreg : 0 ≤ (mctpRegisterBus env (mctpSetup bindings now dev) b eid).2) :
    SentAlike ⟨eid, dest, tagOwner, tag⟩ (mctpRegisterBus env (mctpSetup bindings now dev) b eid).1
      [] := by
  refine ⟨?_, fun msg h => absurd h List.not_mem_nil, fun msg h => absurd h List.not_mem_nil⟩
  refine mctpRegisterBus_invariant env rfl hreg (fun w => (w.busses 0).eid = eid) ?_ ?_
  · intro w₁ hw₁
    rw [hw₁.bus]
  · intro w₁ enable hw₁
    exact ((mctpBindingSetTxEnabled_txOnly env w₁ b enable).eid 0).trans hw₁

end Sender

/-- **Loss of packets.** In every run in which no single-packet message meets a context of its key,
what the receiver hands up of messages sent to it with one tag, from the packets that came through,
are some of these messages, whole and in order. -/
theorem rxRun_of_thinned {δ' : Type} (env : Env δ) (bindings : Nat → MctpBinding) (now : Nat)
    (dev : δ) (b : Nat) (eid dest : UInt8) (tagOwner : Bool) (tag : UInt8) (ops : List TxOp)
    (hreg : 0 ≤ (mctpRegisterBus env (mctpSetup bindings now dev) b eid).2)
    (hsize : mctpPacketSize mctpBtu ≤ (bindings b).pktSize)
    (htx : ∀ d pkt, (env.tx b d pkt).2.rc = 0 ∨ (env.tx b d pkt).2.rc = -ebusy)
    (hops : ∀ op ∈ ops, op.Addressed dest tagOwner tag) (env' : Env δ') (b' cap : Nat) (w : Mctp δ')
    (hfresh : FreshEndpoint b' dest cap w) (got : List MctpPktbuf) :
    let sender :=
      ops.foldl (txStep env b) ((mctpRegisterBus env (mctpSetup bindings now dev) b eid).1, [])
    Thinned 4 0 (sender.1.busLog 0).sentPkts got → SinglesFindNone env' b' w got →
      (rxRun env' b' w got).hist.handed.Sublist sender.2 := by
  intro sender hthin hsingle
  have hchunk := chunk_pos hsize
  have hstart := mctpRegisterBus_busInv hreg hchunk htx
  have hsent := BusInv.run (_, []) hstart hchunk htx ops
  have halike : SentAlike ⟨eid, dest, tagOwner, tag⟩ sender.1 sender.2 := by
    refine SentAlike.run (mctpRegisterBus_sentAlike hreg) hstart ?_ htx ops hops
    exact hchunk
  have hpkts : ∀ pkt ∈ got, pkt ∈ msgPackets (bindings b) 0 sender.2 :=
    fun pkt hpkt => hsent.queue.sent_prefix.subset (hthin.sublist.subset hpkt)
  have hlabel : ∀ pkt ∈ got, pktLabel pkt = ⟨eid, dest, tagOwner, tag⟩ := by
    intro pkt hpkt
    obtain ⟨msg, hmsg, heq⟩ := label_of_mem_msgPackets hchunk halike.tag (hpkts pkt hpkt)
    rw [heq]
    exact halike.label msg hmsg
  obtain ⟨outs, hrec, hhanded⟩ := rxRun_receives got hfresh.sim.inv hfresh.max hlabel
    (fun pkt hpkt => size_of_mem_msgPackets hchunk halike.tag (hpkts pkt hpkt)) hsingle
  have hnone : w.asm (MsgLabel.key ⟨eid, dest, tagOwner, tag⟩) = none := by
    rw [hfresh.sim.asm]
    rfl
  have hfrags : (sender.1.busLog 0).sentPkts.map pktFrag <+: (msgFrags (bindings b) 0
      sender.2).map Prod.snd := by
    rw [← map_pktItem_msgPackets hchunk halike.tag, List.map_map]
    exact hsent.queue.sent_prefix.map _
  rw [hnone] at hrec
  have hsub := sublist_of_thinned hchunk (hthin.map pktFrag) 0
    (sender.2.map Message.labelled) hfrags hrec
  rw [hhanded, hfresh.nothing, List.nil_append]
  have hback : ((sender.2.map Message.labelled).map Prod.snd).map (MsgLabel.message
      ⟨eid, dest, tagOwner, tag⟩) = sender.2 := by
    rw [List.map_map, List.map_map]
    refine (List.map_congr_left fun msg hmsg => ?_).trans (List.map_id _)
    rw [Function.comp_apply, Function.comp_apply, ← halike.label msg hmsg]
    rfl
  rw [← hback]
  exact hsub.map _

def fourMessages : List TxOp :=
  [.messageTx 9 true 0 (List.replicate 65 1), .messageTx 9 true 0 [2], .messageTx 9 true 0 [3],
    .messageTx 9 true 0 (List.replicate 65 4)]

def fourSent : Mctp (List MctpPktbuf) × List Message :=
  fourMessages.foldl (txStep wire 0)
    ((mctpRegisterBus wire (mctpSetup (fun _ => smallBinding) 0 []) 0 8).1, [])

def fourPkt (first last : Bool) (seq : Nat) (payload : List UInt8) : MctpPktbuf :=
  fragPkt smallBinding ⟨8, 9, true, 0⟩ ⟨first, last, seq, payload⟩

theorem fourSent_sentPkts : (fourSent.1.busLog 0).sentPkts
    = [fourPkt true false 0 (List.replicate 64 1), fourPkt false true 1 [1],
      fourPkt true true 2 [2], fourPkt true true 3 [3], fourPkt true false 0 (List.replicate 64 4),
      fourPkt false true 1 [4]] := by
  decide +kernel

def nineEndpoint : Mctp Nat :=
  mctpSetMaxMessageSize (mctpRegisterBus everyOther (mctpSetup (fun _ => smallBinding) 0 0) 0 9).1
    1024

theorem nineEndpoint_fresh : FreshEndpoint 0 9 1024 nineEndpoint :=
  ⟨⟨rfl, rfl, rfl, rfl⟩, fun _ => rfl, rfl⟩

/-- The last packet of the first message and the first packet of the last are lost. -/
def spliced : List MctpPktbuf :=
  [fourPkt true false 0 (List.replicate 64 1), fourPkt true true 2 [2], fourPkt true true 3 [3],
    fourPkt false true 1 [4]]

/-- What is left of these two messages is handed up as one. -/
theorem rxRun_splices :
    Thinned 4 0 (fourSent.1.busLog 0).sentPkts spliced ∧
    (rxRun everyOther 0 nineEndpoint spliced).hist.handed.map Message.bytes
      = [[2], [3], List.replicate 64 1 ++ [4]] ∧
    ¬ (rxRun everyOther 0 nineEndpoint spliced).hist.handed.Sublist fourSent.2 := by
  refine ⟨?_, by decide +kernel, ?_⟩
  · rw [fourSent_sentPkts]
    exact .keep _ _
      (.lose _ _ (by decide) (.keep _ _ (.keep _ _ (.lose _ _ (by decide) (.keep _ _ (.nil _))))))
  · intro hsub
    have hmem : (List.replicate 64 1 ++ [4]) ∈ fourSent.2.map Message.bytes :=
      (hsub.map Message.bytes).subset (by decide +kernel)
    exact absurd hmem (by decide +kernel)

def notSpliced : List MctpPktbuf :=
  [fourPkt false true 1 [1], fourPkt true true 2 [2], fourPkt false true 1 [4]]

theorem rxRun_of_thinned_three :
    (rxRun everyOther 0 nineEndpoint notSpliced).hist.handed.Sublist fourSent.2 := by
  refine rxRun_of_thinned wire (fun _ => smallBinding) 0 [] 0 8 9 true 0 fourMessages
    (by decide) (by decide)
    (fun _ _ => .inl rfl) ?_ everyOther 0 1024 nineEndpoint nineEndpoint_fresh notSpliced ?_ ?_
  · intro op hop
    simp only [fourMessages, List.mem_cons, List.not_mem_nil, or_false] at hop
    rcases hop with rfl | rfl | rfl | rfl <;> exact ⟨rfl, rfl, rfl⟩
  · have hthin : Thinned 4 0 (fourSent.1.busLog 0).sentPkts notSpliced := by
      rw [fourSent_sentPkts]
      exact .lose _ _ (by decide)
        (.keep _ _ (.keep _ _ (.lose _ _ (by decide) (.lose _ _ (by decide) (.keep _ _ (.nil _))))))
    exact hthin
  · exact ⟨fun _ => by decide, fun _ => by decide, fun _ => by decide, trivial⟩

end LibMctp
