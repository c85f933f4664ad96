import LibMctp.Lib.Parts
import LibMctp.Proof.Link.Bridge
import LibMctp.Proof.Link.Duplex
import LibMctp.Proof.Transmit.Replay

/-!
# Two endpoints with a bridge between them

Each of the endpoints is on a bus of its own, and the bridge takes packets from either bus at any
time. It keeps the messages of the two apart, since their source is part of the key of a context,
and sends on each bus what came from the other: to an endpoint it looks as if the other one were on
its bus, with the packet size of the bridge.
-/

namespace LibMctp

open Fragment Reassembly

/-! ### The wires of the bridge -/

/-- Binding `b` puts its packets on the wire of bus `b`. -/
def wires : Env (Fin 2 → List MctpPktbuf) where
  msgAlloc := fun _ => true
  pktAlloc := fun _ => true
  tx := fun b d pkt => (Function.update d (Fin.ofNat 2 b) (d (Fin.ofNat 2 b) ++ [pkt]), ⟨0, false⟩)
  start := fun _ => some fun d => (d, ⟨0, [true]⟩)

theorem replayTx_wires (i : Fin 2) (r : TxResult) (pkts : List MctpPktbuf)
    (d : Fin 2 → List MctpPktbuf) :
    replayTx wires i.val d (pkts.map fun pkt => (pkt, r)) = Function.update d i (d i ++ pkts) := by
  have hbus : Fin.ofNat 2 i.val = i := by simp
  induction pkts generalizing d with
  | nil => simp [replayTx]
  | cons pkt pkts ih =>
      have hstep : (wires.tx i.val d pkt).1 = Function.update d i (d i ++ [pkt]) := by
        dsimp only [wires]
        rw [hbus]
      rw [List.map_cons, replayTx, List.foldl_cons]
      dsimp only
      rw [hstep]
      refine (ih _).trans ?_
      rw [Function.update_self, Function.update_idem, List.append_assoc]
      rfl

def Mctp.handedFrom {δ : Type} (w : Mctp δ) (eid : UInt8) : List Message :=
  w.hist.handed.filter fun msg => msg.src = eid

/-- A bridge that sent on either bus the messages from the endpoint on the other. `got` are the
packets that were taken off the wires. -/
structure Relays (side : Fin 2 → Side) (near : Fin 2 → MctpBinding) (got : Fin 2 → List MctpPktbuf)
    (w : Mctp (Fin 2 → List MctpPktbuf)) : Prop where
  ready : ∀ i : Fin 2, BridgeReady i.val i.rev.val i
    (msgPackets (near i.rev) 0 (w.handedFrom (side i).eid)).length w
  bindings : ∀ i : Fin 2, w.bindings i.val = near i
  sent : ∀ i, got i.rev ++ w.dev i.rev = msgPackets (near i.rev) 0 (w.handedFrom (side i).eid)

section Relays

variable {side : Fin 2 → Side} {near : Fin 2 → MctpBinding} {got : Fin 2 → List MctpPktbuf}
  {i : Fin 2} {n : Nat}
  {w w' : Mctp (Fin 2 → List MctpPktbuf)} {msg : Message}

theorem Relays.passive (h : Relays side near got w) (hpass : Passive wires w w') :
    Relays side near got w' := by
  have hfrom : w'.handedFrom = w.handedFrom := by
    funext eid
    rw [Mctp.handedFrom, Mctp.handedFrom, hpass.handed]
  refine ⟨fun i => ?_, fun i => ?_, fun i => ?_⟩
  · rw [hfrom]
    exact (h.ready i).quiet hpass.toQuiet
  · rw [hpass.setup.bindings]
    exact h.bindings i
  · rw [hfrom, hpass.sent.dev]
    exact h.sent i

theorem wires_alloc (n : Nat) : wires.msgAlloc n = true := rfl

theorem wires_tx (b : Nat) (d : Fin 2 → List MctpPktbuf) (pkt : MctpPktbuf) :
    (wires.tx b d pkt).2 = ⟨0, false⟩ := rfl

theorem BridgeReady.forward_dev (h : BridgeReady i.val i.rev.val i n w)
    (htag : msg.tag &&& mctpHdrTagMask = msg.tag) :
    (mctpRx wires w i msg).dev = Function.update w.dev i.rev
      (w.dev i.rev ++ (cut 4 (w.bindings i.rev.val).chunk true n msg.bytes).map (fragPkt
        (w.bindings i.rev.val) msg.label)) := by
  have hsent := h.forward wires_alloc (wires_tx _) htag
  obtain ⟨w₁, hpass, h₁, htaken⟩ := h.taken wires_alloc htag
  obtain ⟨new, htxed, hdev⟩ := htaken.replayed h₁.other
  have hlog : w₁.busLog = w.busLog := hpass.sent.busLog
  rw [hlog] at htxed
  have hnew := (List.append_cancel_left (hsent.txed.symm.trans htxed)).symm
  have hstart : w₁.dev = w.dev := hpass.sent.dev
  rw [hdev, hnew, hstart, ← replayTx_wires i.rev ⟨0, false⟩, List.map_map]
  rfl

theorem handedFrom_mctpRx (w : Mctp (Fin 2 → List MctpPktbuf)) (i : Fin 2) (msg : Message)
    (eid : UInt8) :
    (mctpRx wires w i msg).handedFrom eid
      = w.handedFrom eid ++ if msg.src = eid then [msg] else [] := by
  rw [Mctp.handedFrom, mctpRx_handed, List.filter_append, List.filter_singleton]
  simp [Mctp.handedFrom]

/-- A message from the endpoint on bus `i` is sent on the other bus, and nothing is sent on bus
`i`. -/
theorem Relays.rx (h : Relays side near got w) (hne : (side 0).eid ≠ (side 1).eid)
    (hsrc : msg.src = (side i).eid) (htag : msg.tag &&& mctpHdrTagMask = msg.tag) :
    Relays side near got (mctpRx wires w i msg) := by
  have hsetup := mctpRx_sameSetup wires w i msg
  have hsent := (h.ready i).forward wires_alloc (wires_tx _) htag
  have hdev := (h.ready i).forward_dev htag
  have hready := (h.ready i).sent hsetup hsent
  rw [h.bindings] at hready hdev
  have hother : ∀ j, j ≠ i → msg.src ≠ (side j).eid := by
    intro j hj
    rw [hsrc]
    obtain rfl | rfl : i = 0 ∨ i = 1 := by omega
    · obtain rfl : j = 1 := by omega
      exact hne
    · obtain rfl : j = 0 := by omega
      exact hne.symm
  have hthis : msgPackets (near i.rev) 0 ((mctpRx wires w i msg).handedFrom (side i).eid)
      = msgPackets (near i.rev) 0 (w.handedFrom (side i).eid) ++ (cut 4 (near i.rev).chunk true
        (msgPackets (near i.rev) 0 (w.handedFrom (side i).eid)).length msg.bytes).map
        (fragPkt (near i.rev) msg.label) := by
    rw [handedFrom_mctpRx, if_pos hsrc, msgPackets_concat, Nat.zero_add]
  have hsame : ∀ j, j ≠ i →
      (mctpRx wires w i msg).handedFrom (side j).eid = w.handedFrom (side j).eid := by
    intro j hj
    rw [handedFrom_mctpRx, if_neg (hother j hj), List.append_nil]
  refine ⟨fun j => ?_, fun j => ?_, fun j => ?_⟩
  · by_cases hj : j = i
    · subst hj
      rw [hthis, List.length_append, List.length_map]
      exact hready
    · have hrev : j.rev ≠ i.rev := fun heq => hj (Fin.rev_injective heq)
      have hr := h.ready j
      rw [hsame j hj]
      refine ⟨hsetup.nBusses.trans hr.nBusses, hsetup.routePolicy.trans hr.bridge,
        ?_, ?_, ?_, ?_, ?_, ?_⟩
      · rw [hsetup.bindings]
        exact hr.bus
      · rw [hsetup.binding]
        exact hr.other
      · rw [hsetup.bindings]
        exact hr.size
      · rw [(hsent.others _ hrev).1]
        exact hr.enabled
      · rw [(hsent.others _ hrev).1]
        exact hr.idle
      · rw [(hsent.others _ hrev).1]
        exact hr.seq
  · rw [hsetup.bindings]
    exact h.bindings j
  · by_cases hj : j = i
    · subst hj
      rw [hdev, Function.update_self, hthis, ← h.sent j, List.append_assoc]
    · have hrev : j.rev ≠ i.rev := fun heq => hj (Fin.rev_injective heq)
      rw [hdev, Function.update_of_ne hrev, hsame j hj]
      exact h.sent j

theorem Relays.busRx (h : Relays side near got w) (hne : (side 0).eid ≠ (side 1).eid)
    {pkt : MctpPktbuf} (hsrc : (pktLabel pkt).src = (side i).eid) :
    Relays side near got (mctpBusRx wires w i.val pkt) := by
  rcases mctpBusRx_outcome wires w i.val pkt with hpass | ⟨i', msg, hbus, -, hlabel, hup⟩
  · exact h.passive hpass
  · obtain rfl : i' = i := Option.some.inj (hbus.symm.trans (h.ready i).bus)
    obtain ⟨w₁, hbefore, hafter⟩ := hup.rx
    have hmsg : msg.src = (pktLabel pkt).src := congrArg MsgLabel.src hlabel
    have htag : msg.tag = hdrTag (mctpPktbufHdr pkt) := congrArg MsgLabel.tag hlabel
    refine ((h.passive hbefore).rx hne (hmsg.trans hsrc) ?_).passive hafter
    rw [htag]
    exact hdrTag_masked _

end Relays

/-! ### The contexts of the bridge -/

section Sides

variable {me peer : Side} {gone : List MctpPktbuf} {w : Mctp (List MctpPktbuf)}

theorem TxSide.widen (h : TxSide me peer gone w) {peer' : Side} (heid : peer'.eid = peer.eid)
    (hcap : peer.cap ≤ peer'.cap) :
    TxSide me peer' gone w := by
  refine ⟨h.bus, h.size, h.idle, h.enabled, h.eid, h.endpoint, h.types, h.sent, fun msg hmsg => ?_⟩
  have hsend := h.sendable msg hmsg
  exact ⟨hsend.src, hsend.dest.trans heid.symm, hsend.tag, fun hlong =>
    (hsend.fits hlong).trans hcap, hsend.keepsEid⟩

/-- An endpoint sends one message after the other. -/
theorem TxSide.one_under_way (h : TxSide me peer gone w) {k k' : MsgKey}
    (hk : (run MsgLabel.key 4 peer.cap State.init (gone.map pktItem)).asm k ≠ none)
    (hk' : (run MsgLabel.key 4 peer.cap State.init (gone.map pktItem)).asm k' ≠ none) : k = k' := by
  have hchunk := chunk_pos h.size
  have hitems : gone.map pktItem <+: (msgFrags me.binding me.start
      (w.busLog 0).accepted).filter fun _ => true := by
    rw [List.filter_true, ← map_pktItem_msgPackets hchunk h.tags, ← h.packets, List.map_append]
    exact List.prefix_append _ _
  refine asm_unique_of_stream hchunk (fun _ => true) me.start _ State.init (fun _ => rfl)
    (fun item hitem => ?_) hitems hk hk'
  obtain ⟨msg, hmsg, rfl⟩ := List.mem_map.mp hitem
  exact (h.sendable msg hmsg).fits

end Sides

/-- The contexts of a bridge are those of two machines, one for each endpoint, and no other endpoint
has any. `taken` are the packets of each source that the bridge was given. -/
structure BridgeInv (side : Fin 2 → Side) (near : Fin 2 → MctpBinding) (cap : Nat)
    (taken : UInt8 → List MctpPktbuf) (got : Fin 2 → List MctpPktbuf)
    (w : Mctp (Fin 2 → List MctpPktbuf)) : Prop extends Relays side near got w where
  max : w.maxMessageSize.toNat = cap
  sim : ∃ st, Sim cap w st ∧
    Parts MsgLabel.key MsgKey.src st fun src =>
      run MsgLabel.key 4 cap State.init ((taken src).map pktItem)
  others : ∀ src, (∀ i, src ≠ (side i).eid) → taken src = []

section Bridge

variable {side : Fin 2 → Side} {near : Fin 2 → MctpBinding} {cap : Nat}
  {taken : UInt8 → List MctpPktbuf}
  {got : Fin 2 → List MctpPktbuf} {w : Mctp (Fin 2 → List MctpPktbuf)}
  {ends : Fin 2 → Mctp (List MctpPktbuf)} {i : Fin 2}

/-- At most one message of each endpoint is under way. -/
theorem BridgeInv.not_full (h : BridgeInv side near cap taken got w)
    (hends : ∀ i, TxSide (side i) { side i.rev with cap := cap } (taken (side i).eid) (ends i)) :
    ¬ w.Full := by
  intro hfull
  obtain ⟨st, hsim, hparts⟩ := h.sim
  have hkey : ∀ j, ∃ i k, (w.msgCtxs j).key = some k ∧
      (run MsgLabel.key 4 cap State.init ((taken (side i).eid).map pktItem)).asm k ≠ none := by
    intro j
    obtain ⟨buf, hbuf⟩ := Option.isSome_iff_exists.mp (hfull j)
    have hj := MctpMsgCtx.key_of_buf hbuf
    have hasm := hsim.inv.asm_of_slot hj
    rw [hsim.asm, hparts.asm] at hasm
    by_cases hsrc : ∃ i, (w.msgCtxs j).src = (side i).eid
    · obtain ⟨i, hi⟩ := hsrc
      dsimp only at hasm
      refine ⟨i, _, hj, fun hnone => ?_⟩
      rw [← hi] at hnone
      rw [hnone] at hasm
      cases hasm
    · dsimp only at hasm
      rw [h.others _ fun i hi => hsrc ⟨i, hi⟩] at hasm
      cases hasm
  choose bus key hctx hasm using hkey
  have hinj : Function.Injective bus := by
    intro j j' hbus
    have hsame := hasm j
    rw [hbus] at hsame
    have hk := (hends (bus j')).one_under_way hsame (hasm j')
    have hj := hctx j
    rw [hk] at hj
    exact hsim.inv.distinct j j' _ hj (hctx j')
  have hcard := Fintype.card_le_of_injective _ hinj
  simp at hcard

/-- **The bridge takes a packet** off the wire of an endpoint. -/
theorem BridgeInv.busRx (h : BridgeInv side near cap taken got w)
    (hne : (side 0).eid ≠ (side 1).eid) (heid : ∀ i, (side i).eid ≠ mctpEidBroadcast)
    (hends : ∀ i, TxSide (side i) { side i.rev with cap := cap } (taken (side i).eid) (ends i))
    {pkt : MctpPktbuf} {rest : List MctpPktbuf} (hdev : (ends i).dev = pkt :: rest) :
    BridgeInv side near cap (Function.update taken (side i).eid (taken (side i).eid ++ [pkt])) got
      (mctpBusRx wires w i.val pkt) := by
  obtain ⟨hsrc, -, -, hsize⟩ :=
    (hends i).pkt_label (List.mem_append_right _ (hdev ▸ List.mem_cons_self))
  have hsrc' : (mctpPktbufHdr pkt).src = (side i).eid := hsrc
  have hacc : w.accepts i.val pkt = true := by
    rw [Mctp.accepts_iff (h.ready i).bus, hsrc', (h.ready i).bridge]
    exact ⟨hsize, heid i, fun hnot => by cases hnot⟩
  obtain ⟨st, hsim, hparts⟩ := h.sim
  refine ⟨h.toRelays.busRx hne hsrc, ?_, ?_, ?_⟩
  · rw [(mctpBusRx_sameSetup wires w i.val pkt).maxMessageSize]
    exact h.max
  · rcases mctpBusRx_spec wires hsim.inv h.max hacc with hasm | ⟨-, -, halloc | hfull⟩
    · refine ⟨_, hsim.assembles hasm, ?_⟩
      have hnext : Parts _ _ (machine MsgLabel.key 4 cap st (pktItem pkt)) _ :=
        hparts.give (pktItem pkt)
      convert hnext using 1
      funext src
      rw [show (pktItem pkt).1.key.src = (side i).eid from hsrc]
      by_cases hthis : src = (side i).eid
      · subst hthis
        rw [Function.update_self, Function.update_self, List.map_append, run_append]
        rfl
      · rw [Function.update_of_ne hthis, Function.update_of_ne hthis]
    · cases halloc
    · exact absurd hfull.1 (h.not_full hends)
  · intro src hother
    rw [Function.update_of_ne (hother i)]
    exact h.others src hother

/-- The bridge was handed up messages that the endpoint accepted, and all of them once it took every
packet. -/
theorem BridgeInv.handed (h : BridgeInv side near cap taken got w) {me peer : Side}
    {v : Mctp (List MctpPktbuf)} (hend : TxSide me peer (taken me.eid) v) (hcap : peer.cap = cap) :
    w.handedFrom me.eid <+: (v.busLog 0).accepted ∧
      (v.dev = [] → w.handedFrom me.eid = (v.busLog 0).accepted) := by
  obtain ⟨st, hsim, hparts⟩ := h.sim
  have hout : (w.handedFrom me.eid).map Message.labelled
      = (run MsgLabel.key 4 peer.cap State.init ((taken me.eid).map pktItem)).out := by
    rw [hcap, ← hparts.out, ← hsim.handed, List.filter_map]
    rfl
  refine ⟨?_, fun hempty => ?_⟩
  · have hmono := hend.out_mono (List.prefix_append _ _)
    rw [← hout] at hmono
    exact (List.prefix_map_iff_of_injective Message.labelled_injective).mp hmono
  · have hall := hend.out_packets
    rw [hempty, List.append_nil, ← hout] at hall
    exact Message.labelled_injective.list_map hall

theorem BridgeInv.pop (h : BridgeInv side near cap taken got w) {pkt : MctpPktbuf}
    {rest : List MctpPktbuf} (hdev : w.dev i = pkt :: rest) :
    BridgeInv side near cap taken (Function.update got i (got i ++ [pkt]))
      { w with dev := Function.update w.dev i rest } := by
  refine ⟨⟨fun j => ?_, h.bindings, fun j => ?_⟩, h.max, ?_, h.others⟩
  · have hr := h.ready j
    exact ⟨hr.nBusses, hr.bridge, hr.bus, hr.other, hr.size, hr.enabled, hr.idle, hr.seq⟩
  · rw [show Mctp.handedFrom { w with dev := Function.update w.dev i rest } (side j).eid
      = w.handedFrom (side j).eid from rfl, ← h.sent j]
    dsimp only
    by_cases hj : j.rev = i
    · rw [hj, Function.update_self, Function.update_self, hdev, List.append_assoc]
      rfl
    · rw [Function.update_of_ne hj, Function.update_of_ne hj]
  · obtain ⟨st, hsim, hparts⟩ := h.sim
    exact ⟨st, hsim.passes (hsim.inv.passes rfl rfl), hparts⟩

end Bridge

/-! ### The end behind the bridge -/

/-- Packets of messages that `peer` may send: some endpoint has sent them, and these are on its wire
still. -/
theorem exists_txSide {me peer : Side} {got rest : List MctpPktbuf} {msgs : List Message}
    (hsize : mctpPacketSize mctpBtu ≤ peer.binding.pktSize) (hback : peer.binding.bus = some 0)
    (howner : peer.binding.mctp = some ())
    (hpackets : got ++ rest = msgPackets peer.binding peer.start msgs)
    (hsendable : ∀ msg ∈ msgs, Sendable peer me msg) :
    ∃ w, TxSide peer me got w ∧ w.dev = rest ∧ (w.busLog 0).accepted = msgs := by
  let pkts := msgPackets peer.binding peer.start msgs
  let bus : MctpBus :=
    { eid := peer.eid, binding := some peer.b, state := .txEnabled, mctp := some ()
      txSeq := UInt8.ofNat ((peer.start + pkts.length) % 4) }
  let w : Mctp (List MctpPktbuf) :=
    { mctpSetup (fun _ => peer.binding) 0 rest with
      nBusses := 1
      busses := fun _ => bus
      busLog := fun _ => ⟨msgs, pkts.map fun pkt => (pkt, ⟨0, false⟩)⟩ }
  have hsent : (w.busLog 0).sentPkts = pkts := by
    simp [w, BusLog.sentPkts, List.filter_map, Function.comp_def]
  have hseq : (w.busses 0).txSeq.toNat = (peer.start + pkts.length) % 4 := by
    have hlt := Nat.mod_lt (peer.start + pkts.length) (show 0 < 4 by omega)
    simp [w, bus]
    omega
  refine ⟨w, ⟨⟨⟨rfl, rfl, rfl, rfl, hback, howner⟩, ⟨⟨?_, ?_, ?_⟩, ?_, ?_⟩, ?_⟩, hsize, rfl, rfl,
    rfl, rfl, ?_, ?_, hsendable⟩, rfl, rfl⟩
  · exact fun msg hmsg => by cases hmsg
  · exact fun msg hmsg => by cases hmsg
  · exact fun msg hmsg => by cases hmsg
  · rw [hsent]
    exact hseq
  · rw [hsent]
    exact List.append_nil _
  · exact List.not_mem_nil
  · exact (by decide : 1 ≤ 10)
  · rw [hsent]
    exact hpackets

/-- The other end, as it looks on bus `i` of the bridge. -/
def beyond (side : Fin 2 → Side) (near : Fin 2 → MctpBinding) (i : Fin 2) : Side :=
  { side i.rev with binding := { near i with bus := some 0, mctp := some () }, start := 0 }

theorem TxSide.kept_from (me peer : Side) (gone : List MctpPktbuf) :
    KeptByAnswers wire (TxSide me peer gone) fun msg => msg.src = peer.eid ∧ ¬ msg.SetsEid where
  quiet := TxSide.quiet
  answer := by
    intro w msg mctp resp h hmsg hshort
    rw [hmsg.1]
    exact h.answer mctp resp hshort
  endpoint := TxSide.endpoint
  types := TxSide.types
  eid := And.right

/-! ### The network -/

structure Network where
  ends : Fin 2 → Mctp (List MctpPktbuf)
  bridge : Mctp (Fin 2 → List MctpPktbuf)

/-- One end sends a message to the other, the bridge takes the oldest packet of an end, or an end
takes the oldest packet that the bridge put on its bus. -/
inductive NetOp where
  | send (i : Fin 2) (tagOwner : Bool) (tag : UInt8) (msg : List UInt8)
  | forward (i : Fin 2)
  | receive (i : Fin 2)

def netStep (side : Fin 2 → Side) (net : Network) : NetOp → Network
  | .send i tagOwner tag msg =>
    { net with
      ends := Function.update net.ends i
        (mctpMessageTx wire (net.ends i) (side i.rev).eid tagOwner tag msg).1 }
  | .forward i =>
    match (net.ends i).dev with
    | [] => net
    | pkt :: rest =>
      { ends := Function.update net.ends i { net.ends i with dev := rest }
        bridge := mctpBusRx wires net.bridge i.val pkt }
  | .receive i =>
    match net.bridge.dev i with
    | [] => net
    | pkt :: rest =>
      { ends := Function.update net.ends i (mctpBusRx wire (net.ends i) (side i).b pkt)
        bridge := { net.bridge with dev := Function.update net.bridge.dev i rest } }

/-- A message sent is no longer than the other end takes, and does not set its endpoint id. -/
def NetOp.Ok (side : Fin 2 → Side) : NetOp → Prop
  | .send i tagOwner tag msg =>
    msg.length ≤ (side i.rev).cap ∧
      ¬ Message.SetsEid ⟨(side i).eid, (side i.rev).eid, tagOwner, tag, msg⟩
  | .forward _ => True
  | .receive _ => True

/-- The ids are two ordinary ones, an end takes any message of one packet of the other, and the
bridge takes what an end takes. -/
structure NetSetup (side : Fin 2 → Side) (cap : Nat) : Prop where
  source : ∀ i, (side i).eid ≠ mctpEidBroadcast
  distinct : (side 0).eid ≠ (side 1).eid
  chunk : ∀ i, (side i).binding.chunk ≤ (side i.rev).cap
  cap : ∀ i, (side i).cap ≤ cap

/-- A bridge between two enabled busses that has seen no packet yet. -/
structure FreshBridge (near : Fin 2 → MctpBinding) (cap : Nat)
    (w : Mctp (Fin 2 → List MctpPktbuf)) : Prop where
  ready : ∀ i : Fin 2, BridgeReady i.val i.rev.val i 0 w
  bindings : ∀ i : Fin 2, w.bindings i.val = near i
  max : w.maxMessageSize.toNat = cap
  free : ∀ j, (w.msgCtxs j).buf = none
  nothing : w.hist.handed = []
  dev : ∀ i, w.dev i = []

/-- The bridge took all that the ends put on their wires, and the ends what the bridge put there,
but for what is still on them. -/
def NetInv (side : Fin 2 → Side) (near : Fin 2 → MctpBinding) (cap : Nat) (net : Network) : Prop :=
  ∃ taken got, (∀ i, EndInv (side i) (side i.rev) (taken (side i).eid) (got i) (net.ends i)) ∧
    BridgeInv side near cap taken got net.bridge

section Network

variable {side : Fin 2 → Side} {near : Fin 2 → MctpBinding} {cap : Nat} {net : Network}
  {taken : UInt8 → List MctpPktbuf}
  {got : Fin 2 → List MctpPktbuf} {i : Fin 2}

theorem FreshBridge.bridgeInv {w : Mctp (Fin 2 → List MctpPktbuf)} (h : FreshBridge near cap w)
    (side : Fin 2 → Side) :
    BridgeInv side near cap (fun _ => []) (fun _ => []) w := by
  have hfrom : ∀ eid, w.handedFrom eid = [] := by
    intro eid
    rw [Mctp.handedFrom, h.nothing]
    rfl
  refine ⟨⟨fun i => ?_, h.bindings, fun i => ?_⟩, h.max, ?_, fun _ _ => rfl⟩
  · rw [hfrom]
    exact h.ready i
  · rw [hfrom, h.dev]
    rfl
  · -- a context does not depend on the route policy
    have hfree : FreshEndpoint 0 (w.busses 0).eid cap { w with routePolicy := .endpoint } :=
      ⟨⟨(h.ready 0).bus, rfl, rfl, h.max⟩, h.free, h.nothing⟩
    exact ⟨State.init, hfree.sim.passes (hfree.sim.inv.passes rfl rfl), Parts.init⟩

/-- What the bridge sent on bus `i` could have come from the other end itself, where that may send
the messages. -/
theorem BridgeInv.exists_sender {w : Mctp (Fin 2 → List MctpPktbuf)}
    (h : BridgeInv side near cap taken got w) (i : Fin 2)
    (hsendable : ∀ msg ∈ w.handedFrom (side i.rev).eid,
      Sendable (beyond side near i) (side i) msg) :
    ∃ v, TxSide (beyond side near i) (side i) (got i) v ∧ v.dev = w.dev i ∧
      (v.busLog 0).accepted = w.handedFrom (side i.rev).eid := by
  have hready := (h.ready i.rev).size
  have hsent := h.sent i.rev
  rw [Fin.rev_rev] at hready hsent
  rw [h.bindings] at hready
  exact exists_txSide hready rfl rfl hsent hsendable

theorem BridgeInv.exists_peer {w : Mctp (Fin 2 → List MctpPktbuf)}
    {ends : Fin 2 → Mctp (List MctpPktbuf)} (h : BridgeInv side near cap taken got w)
    (hsetup : NetSetup side cap)
    (hends : ∀ i, TxSide (side i) (side i.rev) (taken (side i).eid) (ends i)) (i : Fin 2) :
    ∃ v, TxSide (beyond side near i) (side i) (got i) v ∧ v.dev = w.dev i ∧
      (v.busLog 0).accepted = w.handedFrom (side i.rev).eid := by
  apply h.exists_sender i
  intro msg hmsg
  have hend : TxSide (side i.rev) { side i.rev.rev with cap := cap } _ (ends i.rev) :=
    (hends i.rev).widen rfl (hsetup.cap i.rev.rev)
  have hsend := (hends i.rev).sendable msg ((h.handed hend rfl).1.subset hmsg)
  rw [Fin.rev_rev] at hsend
  refine ⟨hsend.src, hsend.dest, hsend.tag, fun _ => ?_, hsend.keepsEid⟩
  by_cases hlong : (side i.rev).binding.chunk < msg.bytes.length
  · exact hsend.fits hlong
  · have hchunk := hsetup.chunk i.rev
    rw [Fin.rev_rev] at hchunk
    omega

theorem NetInv.step (h : NetInv side near cap net) (hsetup : NetSetup side cap)
    {op : NetOp} (hop : op.Ok side) :
    NetInv side near cap (netStep side net op) := by
  obtain ⟨taken, got, hends, hbridge⟩ := h
  cases op with
  | send i tagOwner tag msg =>
      refine ⟨taken, got, fun j => ?_, hbridge⟩
      show EndInv _ _ _ _ (Function.update net.ends i _ j)
      by_cases hj : j = i
      · subst hj
        rw [Function.update_self]
        exact (hends j).messageTx hop.1 hop.2
      · rw [Function.update_of_ne hj]
        exact hends j
  | forward i =>
      rw [netStep]
      split
      · exact ⟨taken, got, hends, hbridge⟩
      · rename_i pkt rest hdev
        refine ⟨_, got, fun j => ?_,
          hbridge.busRx hsetup.distinct hsetup.source
            (fun j => (hends j).tx.widen rfl (hsetup.cap j.rev)) hdev⟩
        show EndInv _ _ _ _ (Function.update net.ends i _ j)
        by_cases hj : j = i
        · subst hj
          rw [Function.update_self, Function.update_self]
          exact (hends j).pop hdev
        · have hne : (side j).eid ≠ (side i).eid := by
            obtain rfl | rfl : i = 0 ∨ i = 1 := by omega
            · obtain rfl : j = 1 := by omega
              exact hsetup.distinct.symm
            · obtain rfl : j = 0 := by omega
              exact hsetup.distinct
          rw [Function.update_of_ne hj, Function.update_of_ne hne]
          exact hends j
  | receive i =>
      rw [netStep]
      split
      · exact ⟨taken, got, hends, hbridge⟩
      · rename_i pkt rest hdev
        refine ⟨taken, _, fun j => ?_, hbridge.pop hdev⟩
        show EndInv _ _ _ _ (Function.update net.ends i _ j)
        by_cases hj : j = i
        · subst hj
          obtain ⟨v, hv, hvdev, -⟩ := hbridge.exists_peer hsetup (fun j => (hends j).tx) j
          obtain ⟨hrx, hmsg⟩ := (hends j).rx.receive hv (hvdev.trans hdev) (hsetup.source j.rev)
          rw [Function.update_self, Function.update_self]
          refine ⟨(TxSide.kept_from _ _ _).mctpBusRx (hends j).tx fun msg hhanded => ?_, hrx⟩
          exact ⟨(hmsg msg hhanded).src, (hmsg msg hhanded).keepsEid⟩
        · rw [Function.update_of_ne hj, Function.update_of_ne hj]
          exact hends j

theorem NetInv.run (h : NetInv side near cap net) (hsetup : NetSetup side cap) (ops : List NetOp)
    (hops : ∀ op ∈ ops, op.Ok side) :
    NetInv side near cap (ops.foldl (netStep side) net) := by
  induction ops generalizing net with
  | nil => exact h
  | cons op ops ih =>
      exact ih (h.step hsetup (hops op List.mem_cons_self)) fun op' hop' =>
        hops op' (List.mem_cons_of_mem _ hop')

end Network

def wideBinding : MctpBinding := { smallBinding with pktSize := 100, fits := by decide }

def smallNetwork : Network where
  ends := fun i => smallEnd (i == 1)
  bridge := (mctpBridgeBusses wires (mctpSetup (fun _ => wideBinding) 0 fun _ => []) 0 1).1

theorem smallNetwork_bridge :
    FreshBridge (fun i => { wideBinding with bus := some i, mctp := some () }) 33554432
      smallNetwork.bridge where
  ready := by
    intro i
    obtain rfl | rfl : i = 0 ∨ i = 1 := by omega
    · exact ⟨rfl, rfl, rfl, rfl, by decide, rfl, rfl, rfl⟩
    · exact ⟨rfl, rfl, rfl, rfl, by decide, rfl, rfl, rfl⟩
  bindings := by
    intro i
    obtain rfl | rfl : i = 0 ∨ i = 1 := by omega
    · rfl
    · rfl
  max := rfl
  free := fun _ => rfl
  nothing := rfl
  dev := fun _ => rfl

end LibMctp
