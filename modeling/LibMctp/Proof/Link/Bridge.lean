import LibMctp.Proof.Link.Wire
import LibMctp.Proof.Receive.Isolation

/-!
# Bridging two busses

A bridge assembles the messages it receives on one bus and sends each of them on the other, cut into
packets of the size of that bus and numbered on from the packets sent there before. An endpoint
behind the bridge hands up the messages that are for it, as if it had received them itself.
-/

namespace LibMctp

open Fragment Reassembly

variable {δ : Type}

/-! ### The bridge -/

/-- A bridge that receives on binding `b` of bus `i`. The other bus, with binding `b'`, is enabled
and idle, and the next packet sent on it has the number `n`. -/
structure BridgeReady (b b' : Nat) (i : Fin 2) (n : Nat) (w : Mctp δ) : Prop where
  nBusses : w.nBusses = 2
  bridge : w.routePolicy = .bridge
  bus : (w.bindings b).bus = some i
  other : (w.busses i.rev).binding = some b'
  size : mctpPacketSize mctpBtu ≤ (w.bindings b').pktSize
  enabled : (w.busses i.rev).state = .txEnabled
  idle : (w.busses i.rev).txMsg = none
  seq : (w.busses i.rev).txSeq.toNat = n % 4

section Bridge

variable {env : Env δ} {b b' n : Nat} {i : Fin 2} {w w' : Mctp δ}

theorem BridgeReady.quiet (h : BridgeReady b b' i n w) (hquiet : Quiet env w w') :
    BridgeReady b b' i n w' := by
  obtain ⟨hsetup, hsent⟩ := hquiet
  refine ⟨hsetup.nBusses.trans h.nBusses, hsetup.routePolicy.trans h.bridge, ?_, ?_, ?_, ?_, ?_, ?_⟩
  · rw [hsetup.bindings]
    exact h.bus
  · rw [hsent.busses]
    exact h.other
  · rw [hsetup.bindings]
    exact h.size
  · rw [hsent.busses]
    exact h.enabled
  · rw [hsent.busses]
    exact h.idle
  · rw [hsent.busses]
    exact h.seq

theorem Fin.rev_ne_self (i : Fin 2) : i.rev ≠ i := by
  revert i
  decide

theorem mctpMsgDup_some (halloc : ∀ n, env.msgAlloc n = true) (w : Mctp δ) (msg : List UInt8)
    (mctp : Option Unit) :
    ∃ w₁ copy, mctpMsgDup env w msg mctp = (w₁, some copy) ∧ copy.bytes = msg := by
  obtain ⟨w₁, buf, hbuf⟩ := mctpMsgAlloc_some env w msg.length mctp (halloc _)
  rw [mctpMsgDup, hbuf]
  exact ⟨w₁, _, rfl, rfl⟩

/-- The loop of the bridge visits the other bus alone. -/
theorem mctpRxBridge_eq (hn : w.nBusses = 2) {msg : Message} {w₁ : Mctp δ} {copy : MsgBuf}
    (hdup : mctpMsgDup env w msg.bytes (some ()) = (w₁, some copy)) :
    mctpRxBridge env i msg [0, 1] w
      = (mctpMessageTxOnBus env w₁ i.rev msg.src msg.dest msg.tagOwner msg.tag copy
        msg.bytes.length).1 := by
  have hvisit : ∀ (v : Mctp δ) (k : Fin 2), v.nBusses = 2 → ¬ ¬ (k.val : Int) < v.nBusses := by
    intro v k hv
    rw [hv]
    omega
  have hn' : (mctpMessageTxOnBus env w₁ i.rev msg.src msg.dest msg.tagOwner msg.tag copy
      msg.bytes.length).1.nBusses = 2 := by
    have hdup' := (mctpMsgDup_txOnly env w msg.bytes (some ())).nBusses
    rw [hdup] at hdup'
    exact ((mctpMessageTxOnBus_txOnly env w₁ _ _ _ _ _ _ _).nBusses.trans hdup').trans hn
  obtain rfl | rfl : i = 0 ∨ i = 1 := by omega
  · rw [mctpRxBridge, if_neg (hvisit w 0 hn), if_pos rfl, mctpRxBridge, if_neg (hvisit w 1 hn),
      if_neg (by decide), hdup]
    rfl
  · have hrev : Fin.rev (1 : Fin 2) = 0 := rfl
    rw [hrev] at hn' ⊢
    rw [mctpRxBridge, if_neg (hvisit w 0 hn), if_neg (by decide), hdup]
    dsimp only
    rw [mctpRxBridge, if_neg (hvisit _ 1 hn'), if_pos rfl]
    rfl

theorem BridgeReady.taken (h : BridgeReady b b' i n w) (halloc : ∀ n, env.msgAlloc n = true)
    {msg : Message} (htag : msg.tag &&& mctpHdrTagMask = msg.tag) :
    ∃ w₁, Passive env (w.handUp msg) w₁ ∧ BridgeReady b b' i n w₁ ∧
      TxTaken env w₁ i.rev msg (mctpRx env w i msg) := by
  have hup := h.quiet (quiet_handUp env w msg)
  obtain ⟨w₁, copy, hdup, hcopy⟩ := mctpMsgDup_some halloc (w.handUp msg) msg.bytes (some ())
  have hpass := mctpMsgDup_passive env (w.handUp msg) msg.bytes (some ())
  rw [hdup] at hpass
  have h₁ : BridgeReady b b' i n w₁ := hup.quiet hpass.toQuiet
  have hmtu : mctpBtu ≤ mctpBodySize (w₁.busBinding i.rev).pktSize := by
    have hfollow : w₁.busBinding i.rev = w₁.bindings b' := by rw [Mctp.busBinding, h₁.other]
    have hsize := h₁.size
    unfold mctpPacketSize at hsize
    rw [hfollow, mctpBodySize_eq _ (by omega)]
    unfold MctpBinding.chunk
    omega
  obtain ⟨w', hcall, htaken⟩ := mctpMessageTxOnBus_taken env msg hcopy (by rw [h₁.enabled]; decide)
    htag hmtu h₁.idle
  have hrx : mctpRx env w i msg = w' := by
    unfold mctpRx
    dsimp only
    rw [hup.bridge]
    dsimp only
    rw [mctpRxBridge_eq hup.nBusses hdup, hcall]
  rw [hrx]
  exact ⟨w₁, hpass, h₁, htaken⟩

/-- **A message is forwarded.** It leaves on the other bus, and the bus it came from sees nothing of
it. -/
theorem BridgeReady.forward (h : BridgeReady b b' i n w) (halloc : ∀ n, env.msgAlloc n = true)
    (htx : ∀ d pkt, (env.tx b' d pkt).2 = ⟨0, false⟩) {msg : Message}
    (htag : msg.tag &&& mctpHdrTagMask = msg.tag) :
    SentWhole (w.bindings b') n msg i.rev w (mctpRx env w i msg) := by
  obtain ⟨w₁, hpass, h₁, htaken⟩ := h.taken halloc htag
  have hbindings : w₁.bindings = w.bindings := hpass.setup.bindings
  have hsent := htaken.sentWhole h₁.other (congrFun hbindings b') htx
    (chunk_pos h.size) h₁.enabled h₁.seq
  refine ⟨hsent.idle, hsent.enabled, hsent.seq, ?_, fun k hk => ?_⟩
  · rw [hsent.txed, hpass.sent.busLog]
    rfl
  · obtain ⟨hbusses, hlog⟩ := hsent.others k hk
    rw [hbusses, hlog, hpass.sent.busses, hpass.sent.busLog]
    exact ⟨rfl, rfl⟩

theorem BridgeReady.sent (h : BridgeReady b b' i n w) {msg : Message} (hsetup : SameSetup env w w')
    (hsent : SentWhole (w.bindings b') n msg i.rev w w') :
    BridgeReady b b' i (n + (cut 4 (w.bindings b').chunk true n msg.bytes).length) w' := by
  refine ⟨hsetup.nBusses.trans h.nBusses, hsetup.routePolicy.trans h.bridge, ?_, ?_, ?_,
    hsent.enabled, hsent.idle, hsent.seq⟩
  · rw [hsetup.bindings]
    exact h.bus
  · rw [hsetup.binding]
    exact h.other
  · rw [hsetup.bindings]
    exact h.size

end Bridge

/-! ### What the bridge sends -/

/-- From `w` on the bridge was handed up `msgs` and sent their packets, and no others, on the other
bus. -/
structure Forwards (b b' : Nat) (i : Fin 2) (start : Nat) (w : Mctp δ) (msgs : List Message)
    (w' : Mctp δ) : Prop where
  ready : BridgeReady b b' i (start + (msgPackets (w.bindings b') start msgs).length) w'
  bindings : w'.bindings = w.bindings
  back : w'.busLog i = w.busLog i
  handed : w'.hist.handed = w.hist.handed ++ msgs
  txed : (w'.busLog i.rev).txed = (w.busLog i.rev).txed ++
    (msgPackets (w.bindings b') start msgs).map fun pkt => (pkt, ⟨0, false⟩)
  src : ∀ msg ∈ msgs, msg.src ≠ mctpEidBroadcast
  tag : ∀ msg ∈ msgs, msg.tag.toNat < 8

section Forwards

variable {env : Env δ} {b b' start : Nat} {i : Fin 2} {w w' : Mctp δ} {msgs : List Message}

theorem BridgeReady.forwards (h : BridgeReady b b' i start w) : Forwards b b' i start w [] w where
  ready := h
  bindings := rfl
  back := rfl
  handed := (List.append_nil _).symm
  txed := (List.append_nil _).symm
  src := fun _ hmsg => absurd hmsg List.not_mem_nil
  tag := fun _ hmsg => absurd hmsg List.not_mem_nil

theorem Forwards.passive {w'' : Mctp δ} (h : Forwards b b' i start w msgs w')
    (hpass : Passive env w' w'') :
    Forwards b b' i start w msgs w'' where
  ready := h.ready.quiet hpass.toQuiet
  bindings := hpass.setup.bindings.trans h.bindings
  back := by
    rw [hpass.sent.busLog]
    exact h.back
  handed := hpass.handed.trans h.handed
  txed := by
    rw [hpass.sent.busLog]
    exact h.txed
  src := h.src
  tag := h.tag

theorem Forwards.rx (h : Forwards b b' i start w msgs w') (halloc : ∀ n, env.msgAlloc n = true)
    (htx : ∀ d pkt, (env.tx b' d pkt).2 = ⟨0, false⟩) {msg : Message}
    (hsrc : msg.src ≠ mctpEidBroadcast) (htag : msg.tag &&& mctpHdrTagMask = msg.tag) :
    Forwards b b' i start w (msgs ++ [msg]) (mctpRx env w' i msg) := by
  have hsent := h.ready.forward halloc htx htag
  have hsetup := mctpRx_sameSetup env w' i msg
  have hready := h.ready.sent hsetup hsent
  have hpackets := msgPackets_concat (w.bindings b') start msgs msg
  rw [h.bindings] at hready hsent
  refine ⟨?_, hsetup.bindings.trans h.bindings, ?_, ?_, ?_, ?_, ?_⟩
  · rw [hpackets, List.length_append, List.length_map, ← Nat.add_assoc]
    exact hready
  · rw [(hsent.others i (Fin.rev_ne_self i).symm).2]
    exact h.back
  · rw [mctpRx_handed, h.handed, List.append_assoc]
  · rw [hsent.txed, h.txed, hpackets, List.map_append, List.append_assoc, List.map_map]
    rfl
  · intro msg' hmsg'
    rcases List.mem_append.mp hmsg' with hold | hnew
    · exact h.src msg' hold
    · rw [List.mem_singleton.mp hnew]
      exact hsrc
  · intro msg' hmsg'
    rcases List.mem_append.mp hmsg' with hold | hnew
    · exact h.tag msg' hold
    · rw [List.mem_singleton.mp hnew]
      exact tag_lt_of_mask htag

theorem Forwards.busRx (h : Forwards b b' i start w msgs w') (halloc : ∀ n, env.msgAlloc n = true)
    (htx : ∀ d pkt, (env.tx b' d pkt).2 = ⟨0, false⟩) (pkt : MctpPktbuf) :
    ∃ msgs', Forwards b b' i start w msgs' (mctpBusRx env w' b pkt) := by
  rcases mctpBusRx_outcome env w' b pkt with hpass | ⟨i', msg, hbus, hacc, hlabel, hup⟩
  · exact ⟨msgs, h.passive hpass⟩
  · have hi : i' = i := Option.some.inj (hbus.symm.trans h.ready.bus)
    subst hi
    obtain ⟨w₁, hbefore, hafter⟩ := hup.rx
    have hsrc : msg.src = (mctpPktbufHdr pkt).src := congrArg MsgLabel.src hlabel
    have htag : msg.tag = hdrTag (mctpPktbufHdr pkt) := congrArg MsgLabel.tag hlabel
    refine ⟨msgs ++ [msg], ((h.passive hbefore).rx halloc htx ?_ ?_).passive hafter⟩
    · rw [hsrc]
      exact ((Mctp.accepts_iff hbus).mp hacc).2.1
    · rw [htag]
      exact hdrTag_masked _

theorem BridgeReady.run (h : BridgeReady b b' i start w) (halloc : ∀ n, env.msgAlloc n = true)
    (htx : ∀ d pkt, (env.tx b' d pkt).2 = ⟨0, false⟩) (pkts : List MctpPktbuf) :
    ∃ msgs, Forwards b b' i start w msgs (rxRun env b w pkts) := by
  induction pkts using List.reverseRecOn with
  | nil => exact ⟨[], h.forwards⟩
  | append_singleton pkts pkt ih =>
      obtain ⟨msgs, hmsgs⟩ := ih
      rw [rxRun_concat]
      exact hmsgs.busRx halloc htx pkt

end Forwards

/-! ### The endpoint behind the bridge -/

section Endpoint

variable {env : Env δ} {binding : MctpBinding} {b start cap : Nat} {eid : UInt8} {w : Mctp δ}
  {msgs : List Message}

theorem endpointItems_msgPackets (hchunk : 0 < binding.chunk)
    (hsrc : ∀ msg ∈ msgs, msg.src ≠ mctpEidBroadcast) (htags : ∀ msg ∈ msgs, msg.tag.toNat < 8) :
    endpointItems eid (msgPackets binding start msgs)
      = (msgFrags binding start msgs).filter fun x =>
      mctpRxDestIsLocal { eid := eid } x.1.dest := by
  have htaken : ∀ x ∈ msgFrags binding start msgs,
      pktTaken eid (fragPkt binding x.1 x.2) = mctpRxDestIsLocal { eid := eid } x.1.dest := by
    intro x hx
    obtain ⟨⟨msg, hmsg, hlabel⟩, _, _, hroom⟩ := mem_msgFrags hchunk htags hx
    have hsrc' : x.1.src ≠ mctpEidBroadcast := by
      rw [hlabel]
      exact hsrc msg hmsg
    rw [pktTaken, mctpPktbufSize_fragPkt hroom, mctpPktbufHdr_fragPkt]
    simp [hsrc']
  rw [endpointItems, msgPackets, List.filter_map, List.map_map]
  have hfilter : (msgFrags binding start msgs).filter
    (pktTaken eid ∘ fun x => fragPkt binding x.1 x.2)
      = (msgFrags binding start msgs).filter fun x => mctpRxDestIsLocal { eid := eid } x.1.dest :=
    List.filter_congr htaken
  rw [hfilter]
  refine (List.map_congr_left fun x hx => ?_).trans (List.map_id _)
  obtain ⟨_, htag, hseq, hroom⟩ := mem_msgFrags hchunk htags (List.mem_of_mem_filter hx)
  exact pktItem_fragPkt htag hseq hroom

/-- While at most one message is under way, there is a context for the next. -/
theorem Sim.not_full {st : State UInt8 MsgLabel MsgKey} (h : Sim cap w st)
    (hone : ∀ k k', st.asm k ≠ none → st.asm k' ≠ none → k = k') : ¬ w.Full := by
  intro hfull
  have hkey : ∀ j, ∃ k, (w.msgCtxs j).key = some k ∧ st.asm k ≠ none := by
    intro j
    obtain ⟨buf, hbuf⟩ := Option.isSome_iff_exists.mp (hfull j)
    have hj := MctpMsgCtx.key_of_buf hbuf
    refine ⟨_, hj, ?_⟩
    rw [← h.asm, h.inv.asm_of_slot hj]
    exact Option.some_ne_none _
  obtain ⟨k, hk, hasm⟩ := hkey 0
  obtain ⟨k', hk', hasm'⟩ := hkey 1
  rw [hone k k' hasm hasm'] at hk
  exact absurd (h.inv.distinct 0 1 k' hk hk') (by decide)

/-- **Packets in turn.** An endpoint that keeps its id hands up those of the messages that are for
it. -/
theorem rxRun_msgPackets (hfresh : FreshEndpoint b eid cap w) (halloc : ∀ n, env.msgAlloc n = true)
    (hchunk : 0 < binding.chunk) (hsrc : ∀ msg ∈ msgs, msg.src ≠ mctpEidBroadcast)
    (htags : ∀ msg ∈ msgs, msg.tag.toNat < 8) (hcap : ∀ msg ∈ msgs, msg.bytes.length ≤ cap)
    (heid : ∀ pre, pre <+: msgPackets binding start msgs →
      ((rxRun env b w pre).busses 0).eid = eid) :
    (rxRun env b w (msgPackets binding start msgs)).hist.handed
      = msgs.filter fun msg => mctpRxDestIsLocal { eid := eid } msg.dest := by
  have hitems : endpointItems eid (msgPackets binding start msgs)
      = (msgFrags binding start msgs).filter fun x => mctpRxDestIsLocal { eid := eid } x.1.dest :=
    endpointItems_msgPackets hchunk hsrc htags
  have hfits : ∀ msg ∈ msgs.map Message.labelled, binding.chunk < msg.2.length →
      msg.2.length ≤ cap := by
    intro msg hmsg _
    obtain ⟨msg', hmsg', rfl⟩ := List.mem_map.mp hmsg
    exact hcap msg' hmsg'
  have hsim :=
    (rxRun_sim_of_eid hfresh.toRxReady hfresh.sim halloc (msgPackets binding start msgs) ?_
    (fun pre pkt hpre _ _ => heid _ hpre)).2
  · rw [hitems, msgFrags,
      run_filter_stream hchunk (fun l : MsgLabel => mctpRxDestIsLocal { eid := eid } l.dest) start _
      State.init (fun _ => rfl) hfits] at hsim
    refine Message.labelled_injective.list_map (hsim.handed.trans ?_)
    rw [List.filter_map]
    rfl
  · intro pre pkt hpre hpresim _ _ _
    refine hpresim.not_full fun k k' hk hk' => ?_
    have hmono := endpointItems_mono eid ((List.prefix_append pre [pkt]).trans hpre)
    rw [hitems] at hmono
    exact asm_unique_of_stream hchunk (fun l : MsgLabel => mctpRxDestIsLocal { eid := eid } l.dest)
      start _ State.init (fun _ => rfl) hfits hmono hk hk'

end Endpoint

/-- **A bridge is transparent.** Whatever packets it receives on one bus, it sends nothing on that
bus, and a fresh endpoint that is given what it sent on the other bus, keeps its id and takes
messages as long as these, hands up exactly those of the messages handed up on the bridge that are
for it, in their order. -/
theorem rxRun_bridge_transparent (env : Env δ) (halloc : ∀ n, env.msgAlloc n = true) {b b' : Nat}
    {i : Fin 2} {start : Nat} {w : Mctp δ} (hbridge : BridgeReady b b' i start w)
    (htx : ∀ d pkt, (env.tx b' d pkt).2 = ⟨0, false⟩) (pkts : List MctpPktbuf) :
    (rxRun env b w pkts).busLog i = w.busLog i ∧
    ∃ msgs sent, (rxRun env b w pkts).hist.handed = w.hist.handed ++ msgs ∧
      ((rxRun env b w pkts).busLog i.rev).txed = (w.busLog i.rev).txed ++ sent ∧
      ∀ (ε : Type) (env' : Env ε) (c : Nat) (eid : UInt8) (cap : Nat) (v : Mctp ε),
        (∀ n, env'.msgAlloc n = true) → FreshEndpoint c eid cap v →
        (∀ msg ∈ msgs, msg.bytes.length ≤ cap) →
        (∀ pre, pre <+: sent.map Prod.fst → ((rxRun env' c v pre).busses 0).eid = eid) →
        (rxRun env' c v (sent.map Prod.fst)).hist.handed = msgs.filter fun msg =>
          mctpRxDestIsLocal { eid := eid } msg.dest := by
  obtain ⟨msgs, h⟩ := hbridge.run halloc htx pkts
  refine ⟨h.back, msgs, _, h.handed, h.txed, ?_⟩
  intro ε env' c eid cap v halloc' hfresh hcap heid
  have hpkts : ((msgPackets (w.bindings b') start msgs).map fun pkt =>
    (pkt, (⟨0, false⟩ : TxResult))).map Prod.fst
      = msgPackets (w.bindings b') start msgs := by
    rw [List.map_map]
    exact List.map_id _
  rw [hpkts] at heid ⊢
  exact rxRun_msgPackets hfresh halloc' (chunk_pos hbridge.size) h.src h.tag hcap heid

def smallBridge : Mctp (List MctpPktbuf) :=
  (mctpBridgeBusses wire (mctpSetup (fun _ => smallBinding) 0 []) 0 1).1

theorem smallBridge_ready :
    BridgeReady 0 1 0 0 smallBridge := ⟨rfl, rfl, rfl, rfl, by decide, rfl, rfl, rfl⟩

def wiredNine : Mctp (List MctpPktbuf) :=
  (mctpRegisterBus wire (mctpSetup (fun _ => smallBinding) 0 []) 0 9).1

theorem wiredNine_fresh :
    FreshEndpoint 0 9 33554432 wiredNine := ⟨⟨rfl, rfl, rfl, rfl⟩, fun _ => rfl, rfl⟩

def threePkts : List MctpPktbuf :=
  [⟨0, 5, 68, 0, false, [1, 9, 8, 0x88, 7]⟩, ⟨0, 5, 68, 0, false, [1, 9, 8, 0x58, 6]⟩,
    ⟨0, 5, 68, 0, false, [1, 10, 8, 0xc8, 5]⟩]

/-- The first message crosses the bridge in one packet, and the second passes endpoint 9 by. -/
theorem rxRun_bridge_transparent_two :
    (rxRun wire 0 smallBridge threePkts).hist.handed
      = [⟨8, 9, true, 0, [7, 6]⟩, ⟨8, 10, true, 0, [5]⟩] ∧
      (rxRun wire 0 wiredNine
        (((rxRun wire 0 smallBridge threePkts).busLog 1).txed.map Prod.fst)).hist.handed
        = [⟨8, 9, true, 0, [7, 6]⟩] := by
  have hhanded : (rxRun wire 0 smallBridge threePkts).hist.handed
      = [⟨8, 9, true, 0, [7, 6]⟩, ⟨8, 10, true, 0, [5]⟩] := by
    decide +kernel
  obtain ⟨-, msgs, sent, hmsgs, hsent, hbehind⟩ :=
    rxRun_bridge_transparent wire (fun _ => rfl) smallBridge_ready (fun _ _ => rfl) threePkts
  have hsent' : ((rxRun wire 0 smallBridge threePkts).busLog 1).txed = sent := hsent
  have hmsgs' : msgs = [⟨8, 9, true, 0, [7, 6]⟩, ⟨8, 10, true, 0, [5]⟩] := hmsgs.symm.trans hhanded
  have hlist : ((rxRun wire 0 smallBridge threePkts).busLog 1).txed.map Prod.fst
      = [⟨0, 6, 68, 0, false, [1, 9, 8, 0xc8, 7, 6]⟩,
        ⟨0, 5, 68, 0, false, [1, 10, 8, 0xd8, 5]⟩] := by
    decide +kernel
  refine ⟨hhanded, ?_⟩
  rw [hsent', hbehind _ wire 0 9 33554432 wiredNine (fun _ => rfl) wiredNine_fresh ?_ ?_, hmsgs']
  · decide
  · rw [hmsgs']
    decide
  · intro pre hpre
    rw [← hsent', hlist, List.prefix_cons_iff] at hpre
    rcases hpre with rfl | ⟨pre, rfl, hpre⟩
    · rfl
    · rw [List.prefix_cons_iff] at hpre
      rcases hpre with rfl | ⟨pre, rfl, hpre⟩
      · decide +kernel
      · rw [List.prefix_nil.mp hpre]
        decide +kernel

end LibMctp
