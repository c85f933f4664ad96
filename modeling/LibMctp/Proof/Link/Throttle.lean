import LibMctp.Lib.Drain
import LibMctp.Proof.Link.Capacity

/-!
# A binding that holds packets back

A binding has room for some packets on their way. To a packet that finds no room it answers `-EBUSY`
and disables its bus; when a packet has reached the other end it enables the bus again. However slow
the other end is, no packet is lost or sent twice, a message is refused only while there is no room,
and every message taken gets across.
-/

namespace LibMctp

open Fragment Reassembly

variable {δ : Type}

/-- A binding with room for `room` packets. -/
def throttle (room : Nat) : Env (List MctpPktbuf) where
  msgAlloc := fun _ => true
  pktAlloc := fun _ => true
  tx := fun _ d pkt => if d.length < room then (d ++ [pkt], ⟨0, false⟩) else (d, ⟨-ebusy, true⟩)
  start := fun _ => some fun d => (d, ⟨0, [true]⟩)

/-! ### The sending side -/

section Sender

variable {room b n start : Nat} {binding : MctpBinding} {s s' : BusIo (List MctpPktbuf)}

theorem throttle_tx_of_lt {d : List MctpPktbuf} (h : d.length < room) (b : Nat) (pkt : MctpPktbuf) :
    (throttle room).tx b d pkt = (d ++ [pkt], ⟨0, false⟩) := if_pos h

theorem throttle_tx_of_le {d : List MctpPktbuf} (h : room ≤ d.length) (b : Nat) (pkt : MctpPktbuf) :
    (throttle room).tx b d pkt = (d, ⟨-ebusy, true⟩) := if_neg (Nat.not_lt.mpr h)

theorem throttle_tx (room b : Nat) (d : List MctpPktbuf) (pkt : MctpPktbuf) :
    ((throttle room).tx b d pkt).2.rc = 0 ∨ ((throttle room).tx b d pkt).2.rc = -ebusy := by
  by_cases h : d.length < room
  · rw [throttle_tx_of_lt h]
    exact .inl rfl
  · rw [throttle_tx_of_le (Nat.not_lt.mp h)]
    exact .inr rfl

/-- The bus has sent all it has, or there is no room for the rest. -/
structure Rested (room : Nat) (bus : MctpBus) (held : List MctpPktbuf) : Prop where
  within : held.length ≤ room
  stops : bus.state = .txEnabled ∧ bus.txMsg = none ∨ bus.state = .txDisabled ∧ bus.txMsg ≠ none ∧
    held.length = room

theorem Sends.throttled (h : Sends (throttle room) b binding n s s')
    (henabled : s.bus.state = .txEnabled) (hroom : s.dev.length ≤ room) :
    Rested room s'.bus s'.dev ∧ ∃ pkts, s'.dev = s.dev ++ pkts ∧
      s'.log.sentPkts = s.log.sentPkts ++ pkts := by
  induction h with
  | @idle n s hidle =>
      have hnone := hidle.resolve_left (not_not.mpr henabled)
      exact ⟨⟨hroom, .inl ⟨henabled, hnone⟩⟩, [], (List.append_nil _).symm,
        (List.append_nil _).symm⟩
  | @busy n s s' t f fs r hattempt hrc =>
      have hfull : s.dev.length = room := by
        by_contra hne
        have hanswer := hattempt.answer
        rw [throttle_tx_of_lt (by omega)] at hanswer
        rw [← (Prod.mk.inj hanswer).2] at hrc
        exact absurd hrc (by decide)
      have hanswer := hattempt.answer
      rw [throttle_tx_of_le hfull.ge] at hanswer
      obtain ⟨hdev, hr⟩ := Prod.mk.inj hanswer
      have hqueued : s'.bus.txMsg ≠ none := by
        intro hnone
        have hrest := hattempt.kept_rest
        rw [MctpBus.rest, hnone] at hrest
        cases hrest
      refine ⟨⟨by rw [← hdev]; exact hroom, .inr ⟨?_, hqueued, by rw [← hdev]; exact hfull⟩⟩,
        [], ?_, ?_⟩
      · rw [hattempt.state, ← hr]
        rfl
      · rw [← hdev, List.append_nil]
      · rw [hattempt.log, BusLog.sentPkts_push, ← hr, List.append_nil]
        rfl
  | @fail n s s' t f fs r hattempt hzero hbusy =>
      have hanswer := throttle_tx room b s.dev (fragPkt binding s.bus.label f)
      rw [hattempt.answer] at hanswer
      exact absurd hanswer (not_or.mpr ⟨hzero, hbusy⟩)
  | @more n s s' t u f fs r hattempt hzero _ ih =>
      have hlt : s.dev.length < room := by
        by_contra hfull
        have hanswer := hattempt.answer
        rw [throttle_tx_of_le (Nat.not_lt.mp hfull)] at hanswer
        rw [← (Prod.mk.inj hanswer).2] at hzero
        exact absurd hzero (by decide)
      have hanswer := hattempt.answer
      rw [throttle_tx_of_lt hlt] at hanswer
      obtain ⟨hdev, hr⟩ := Prod.mk.inj hanswer
      have hstate : t.bus.state = .txEnabled := by
        rw [hattempt.done_state, hattempt.state, ← hr]
        rfl
      obtain ⟨hrested, pkts, hpkts, hsent⟩ := ih hstate (by
        rw [hattempt.done_dev, ← hdev, List.length_append, List.length_singleton]
        exact hlt)
      refine ⟨hrested, fragPkt binding s.bus.label f :: pkts, ?_, ?_⟩
      · rw [hpkts, hattempt.done_dev, ← hdev, List.append_assoc]
        rfl
      · rw [hsent, hattempt.done_log, hattempt.log, BusLog.sentPkts_push,
          if_pos hzero, List.append_assoc]
        rfl

/-- The packets of the messages taken: those in `gone` have left, those the binding has room for are
on their way, and the rest is on the bus. -/
structure Throttled (room b : Nat) (binding : MctpBinding) (start : Nat) (gone : List MctpPktbuf)
    (w : Mctp (List MctpPktbuf)) (taken : List Message) : Prop where
  bus : BusInv b binding start w taken
  rested : Rested room (w.busses 0) w.dev
  sent : gone ++ w.dev = (w.busLog 0).sentPkts

variable {gone : List MctpPktbuf} {w : Mctp (List MctpPktbuf)} {taken : List Message}

theorem mctpSendTxQueue_throttled (h : BusInv b binding start w taken) (hchunk : 0 < binding.chunk)
    (henabled : (w.busses 0).state = .txEnabled) (hroom : w.dev.length ≤ room)
    (hsent : gone ++ w.dev = (w.busLog 0).sentPkts) :
    Throttled room b binding start gone (mctpSendTxQueue (throttle room) w 0) taken := by
  have hbinding := h.linked.busBinding
  obtain ⟨s', hsends, hw'⟩ := mctpSendTxQueue_sends (throttle room) w 0
    (by rw [hbinding]; exact hchunk) h.queue.ok h.queue.seq
  obtain ⟨hrested, pkts, hdev, hlog⟩ := hsends.throttled henabled hroom
  have hdev' : s'.dev = w.dev ++ pkts := hdev
  have hlog' : s'.log.sentPkts = (w.busLog 0).sentPkts ++ pkts := hlog
  refine ⟨h.sendTxQueue hchunk (throttle_tx room b), ?_, ?_⟩
  · rw [hw']
    simpa [Mctp.putBusIo] using hrested
  · rw [hw']
    simp [Mctp.putBusIo, hdev', hlog', ← hsent]

theorem Throttled.sent_prefix (h : Throttled room b binding start gone w taken) :
    gone ++ w.dev <+: msgPackets binding start taken := by
  rw [h.sent]
  exact h.bus.queue.sent_prefix

/-- With nothing on its way all packets have left. -/
theorem Throttled.all_gone (h : Throttled room b binding start gone w taken) (hroom : 0 < room)
    (hempty : w.dev = []) :
    gone = msgPackets binding start taken := by
  have hidle : (w.busses 0).txMsg = none := by
    rcases h.rested.stops with ⟨-, hnone⟩ | ⟨-, -, hfull⟩
    · exact hnone
    · rw [hempty] at hfull
      exact absurd hfull hroom.ne
  rw [← h.bus.queue.idle hidle, ← h.sent, hempty, List.append_nil]

theorem Throttled.pop (h : Throttled room b binding start gone w taken) (hchunk : 0 < binding.chunk)
    {pkt : MctpPktbuf} {rest : List MctpPktbuf} (hdev : w.dev = pkt :: rest) :
    Throttled room b binding start (gone ++ [pkt])
      (mctpBindingSetTxEnabled (throttle room) { w with dev := rest } b true) taken := by
  have hsent := h.sent
  rw [hdev, ← List.singleton_append, ← List.append_assoc] at hsent
  have hlen : rest.length ≤ room := by
    have hle := h.rested.within
    rw [hdev, List.length_cons] at hle
    omega
  have hlinked : Linked { w with dev := rest } b binding :=
    ⟨h.bus.linked.nBusses, h.bus.linked.bus, h.bus.linked.mctp, h.bus.linked.eq, h.bus.linked.back,
      h.bus.linked.owner⟩
  have hbus : BusInv b binding start { w with dev := rest } taken :=
    ⟨hlinked, h.bus.queue, h.bus.terminated⟩
  rcases h.rested.stops with ⟨henabled, hnone⟩ | ⟨hdisabled, -, -⟩
  · have hsame : mctpBindingSetTxEnabled (throttle room) { w with dev := rest } b true
        = { w with dev := rest } := by
      unfold mctpBindingSetTxEnabled
      rw [hlinked.back_eq]
      dsimp only
      rw [henabled]
      rfl
    rw [hsame]
    exact ⟨hbus, ⟨hlen, .inl ⟨henabled, hnone⟩⟩, hsent⟩
  · have hsends : mctpBindingSetTxEnabled (throttle room) { w with dev := rest } b true
        = mctpSendTxQueue (throttle room) (Mctp.setBus { w with dev := rest } 0
          { w.busses 0 with state := .txEnabled }) 0 := by
      unfold mctpBindingSetTxEnabled
      rw [hlinked.back_eq]
      dsimp only
      rw [hdisabled]
      rfl
    rw [hsends]
    exact mctpSendTxQueue_throttled (hbus.setState .txEnabled) hchunk
      (by simp [Mctp.setBus]) hlen hsent

/-- A call of `mctp_message_tx`: the message is taken, or another is on the bus for want of room, or
the tag is none. -/
theorem Throttled.messageTx (h : Throttled room b binding start gone w taken)
    (hsize : mctpPacketSize mctpBtu ≤ binding.pktSize) (eid : UInt8) (tagOwner : Bool) (tag : UInt8)
    (bytes : List UInt8) :
    ∃ w' rc, mctpMessageTx (throttle room) w eid tagOwner tag bytes = (w', rc) ∧
      (rc = 0 ∧ tag.toNat < 8 ∧ (w.busses 0).txMsg = none ∧
          Throttled room b binding start gone w'
            (taken ++ [⟨(w.busses 0).eid, eid, tagOwner, tag, bytes⟩]) ∨
        rc ≠ 0 ∧ (tag &&& mctpHdrTagMask = tag → (w.busses 0).txMsg ≠ none) ∧
          Throttled room b binding start gone w' taken) := by
  have hchunk := chunk_pos hsize
  have halloc : (throttle room).msgAlloc w.nMsgAlloc = true := rfl
  have honly := mctpMessageTx_txOnly (throttle room) w eid tagOwner tag bytes
  cases hcall : mctpMessageTx (throttle room) w eid tagOwner tag bytes with
  | mk w' rc =>
      rw [hcall] at honly
      refine ⟨w', rc, rfl, ?_⟩
      obtain ⟨hrc, hnothing, -⟩ | ⟨rfl, htaken⟩ :=
        mctpMessageTx_cases (throttle room) h.bus.linked hcall
      · refine .inr ⟨hrc, ?_, ?_⟩
        · intro htag
          rcases h.rested.stops with ⟨henabled, hnone⟩ | ⟨-, hqueued, -⟩
          · -- an idle bus takes the message
            obtain ⟨w₁, hcall₁, -⟩ :=
              mctpMessageTx_taken h.bus.linked halloc (by rw [henabled]; decide) hsize hnone eid
                tagOwner htag bytes
            rw [hcall] at hcall₁
            exact absurd (Prod.mk.inj hcall₁).2 hrc
          · exact hqueued
        · refine ⟨h.bus.of_nothingSent honly.toSameSetup hnothing, ?_, ?_⟩
          · rw [hnothing.busses, hnothing.dev]
            exact h.rested
          · rw [hnothing.busLog, hnothing.dev]
            exact h.sent
      · refine .inl ⟨rfl, tag_lt_of_mask htaken.tag, htaken.free, ?_⟩
        obtain ⟨w₁, buf, hsent, honly₁, hbuf, rfl⟩ := htaken.sent
        have hfree : (w₁.busses 0).txMsg = none := by
          rw [hsent.busses]
          exact htaken.free
        have henabled : (w₁.busses 0).state = .txEnabled := by
          rw [hsent.busses]
          rcases h.rested.stops with ⟨henabled, -⟩ | ⟨-, hqueued, -⟩
          · exact henabled
          · exact absurd htaken.free hqueued
        have h₁ := (h.bus.of_nothingSent honly₁.toSameSetup hsent).take (throttle room) hfree hbuf
          (tag_lt_of_mask htaken.tag)
        apply mctpSendTxQueue_throttled h₁ hchunk
        · rw [Mctp.take_bus]
          exact henabled
        · show w₁.dev.length ≤ room
          rw [hsent.dev]
          exact h.rested.within
        · show gone ++ w₁.dev = _
          rw [hsent.dev, Mctp.take_log, hsent.busLog]
          exact h.sent

theorem Throttled.isTxReady (h : Throttled room b binding start gone w taken) (eid : UInt8) :
    mctpIsTxReady w eid = (w.busses 0).txMsg.isNone ∧
      (mctpIsTxReady w eid = false → w.dev.length = room) := by
  have hready : mctpIsTxReady w eid = (w.busses 0).txMsg.isNone := by
    rw [mctpIsTxReady, h.bus.linked.findBusForEid]
  refine ⟨hready, fun hbusy => ?_⟩
  rcases h.rested.stops with ⟨-, hnone⟩ | ⟨-, -, hfull⟩
  · rw [hready, hnone] at hbusy
    cases hbusy
  · exact hfull

end Sender

/-! ### The receiving side -/

theorem FreshEndpoint.sim_stream {env : Env δ} {b : Nat} {eid : UInt8} {cap start : Nat}
    {w : Mctp δ} {binding : MctpBinding} {msgs : List Message} {got : List MctpPktbuf}
    (hfresh : FreshEndpoint b eid cap w) (halloc : ∀ n, env.msgAlloc n = true)
    (hstream : Streams binding cap msgs) (hkeeps : ∀ msg ∈ msgs, ¬ msg.SetsEid)
    (hgot : got <+: msgPackets binding start msgs) :
    Sim cap (rxRun env b w got) (putTogether cap eid got) := by
  refine (rxRun_sim hfresh.toRxReady hfresh.sim halloc got ?_ ?_).2
  · intro pre pkt hpre hsim _ _ _
    apply hsim.not_full
    intro k k'
    exact hstream.one_under_way (((List.prefix_append pre [pkt]).trans hpre).trans hgot)
  · intro pre new hpre hsim hnew msg hmsg
    rw [hfresh.nothing, List.nil_append] at hnew
    have hout : msg.labelled ∈ (putTogether cap eid pre).out := by
      rw [putTogether, ← hsim.handed, hnew]
      exact List.mem_map_of_mem hmsg
    obtain ⟨msg', hmsg', heq⟩ := List.mem_map.mp ((hstream.out (hpre.trans hgot)).1.subset hout)
    rw [← Message.labelled_injective heq]
    exact hkeeps _ (List.mem_of_mem_filter hmsg')

/-! ### The link -/

/-- The two ends, the messages for which `mctp_message_tx` returned 0, and the packets that reached
the other end. -/
structure FlowLink (δ : Type) where
  sender : Mctp (List MctpPktbuf)
  receiver : Mctp δ
  taken : List Message := []
  delivered : List MctpPktbuf := []

inductive FlowOp where
  | send (eid : UInt8) (tagOwner : Bool) (tag : UInt8) (bytes : List UInt8)
  | deliver

/-- A call of `mctp_message_tx`, or the oldest packet on its way reaches the other end and the
binding enables the bus. -/
def flowStep (room b : Nat) (env : Env δ) (b' : Nat) (l : FlowLink δ) : FlowOp → FlowLink δ
  | .send eid tagOwner tag bytes =>
    let (w, rc) := mctpMessageTx (throttle room) l.sender eid tagOwner tag bytes
    { l with
      sender := w
      taken := if rc = 0 then l.taken ++ [⟨(l.sender.busses 0).eid, eid, tagOwner, tag, bytes⟩]
        else l.taken }
  | .deliver =>
    match l.sender.dev with
    | [] => l
    | pkt :: rest =>
      { l with
        sender := mctpBindingSetTxEnabled (throttle room) { l.sender with dev := rest } b true
        receiver := mctpBusRx env l.receiver b' pkt
        delivered := l.delivered ++ [pkt] }

/-- A message of several packets is no longer than the other end takes, and none sets its endpoint
id. -/
def FlowOp.Ok (binding : MctpBinding) (src : UInt8) (cap : Nat) : FlowOp → Prop
  | .send eid tagOwner tag bytes =>
    (binding.chunk < bytes.length → bytes.length ≤ cap) ∧
      ¬ Message.SetsEid ⟨src, eid, tagOwner, tag, bytes⟩
  | .deliver => True

instance (binding : MctpBinding) (src : UInt8) (cap : Nat) :
    DecidablePred (FlowOp.Ok binding src cap)
  | .send eid tagOwner tag bytes =>
    inferInstanceAs
      (Decidable ((binding.chunk < bytes.length → bytes.length ≤ cap) ∧
        ¬ Message.SetsEid ⟨src, eid, tagOwner, tag, bytes⟩))
  | .deliver => isTrue trivial

/-- A sender on an enabled bus and an endpoint, before anything was sent. -/
structure FreshFlow (b : Nat) (binding : MctpBinding) (start : Nat) (src : UInt8) (b' : Nat)
    (eid : UInt8) (cap : Nat) (l : FlowLink δ) : Prop where
  linked : Linked l.sender b binding
  size : mctpPacketSize mctpBtu ≤ binding.pktSize
  source : (l.sender.busses 0).eid = src
  valid : src ≠ mctpEidBroadcast
  enabled : (l.sender.busses 0).state = .txEnabled
  idle : (l.sender.busses 0).txMsg = none
  seq : (l.sender.busses 0).txSeq.toNat = start % 4
  log : l.sender.busLog 0 = {}
  empty : l.sender.dev = []
  terminated : l.sender.hist.Terminated
  receiver : FreshEndpoint b' eid cap l.receiver
  taken : l.taken = []
  delivered : l.delivered = []

section Flow

variable {room b start b' cap : Nat} {binding : MctpBinding} {src eid : UInt8} {env : Env δ}
  {l₀ l : FlowLink δ}

/-- What holds along a run from `l₀`. -/
structure FlowInv (room b : Nat) (binding : MctpBinding) (start : Nat) (src : UInt8) (env : Env δ)
    (b' cap : Nat) (l₀ l : FlowLink δ) : Prop where
  sender : Throttled room b binding start l.delivered l.sender l.taken
  source : (l.sender.busses 0).eid = src
  receiver : l.receiver = rxRun env b' l₀.receiver l.delivered
  streams : Streams binding cap l.taken
  keepsEid : ∀ msg ∈ l.taken, ¬ msg.SetsEid

theorem FreshFlow.inv (h : FreshFlow b binding start src b' eid cap l) (room : Nat) (env : Env δ) :
    FlowInv room b binding start src env b' cap l l := by
  have hqueue : QueueInv binding start [] (l.sender.busses 0) (l.sender.busLog 0) := by
    rw [h.log]
    exact .init h.idle h.seq
  constructor
  · rw [h.taken, h.delivered]
    refine ⟨⟨h.linked, hqueue, h.terminated⟩,
      ⟨by rw [h.empty]; exact Nat.zero_le _, .inl ⟨h.enabled, h.idle⟩⟩, ?_⟩
    rw [h.empty, h.log]
    rfl
  · exact h.source
  · rw [h.delivered]
    rfl
  · rw [h.taken]
    exact ⟨chunk_pos h.size, by simp, by simp, by simp⟩
  · simp [h.taken]

theorem FlowInv.step (h : FlowInv room b binding start src env b' cap l₀ l)
    (hsize : mctpPacketSize mctpBtu ≤ binding.pktSize) (hsrc : src ≠ mctpEidBroadcast) {op : FlowOp}
    (hop : op.Ok binding src cap) :
    FlowInv room b binding start src env b' cap l₀ (flowStep room b env b' l op) := by
  cases op with
  | send eid tagOwner tag bytes =>
      have honly := mctpMessageTx_txOnly (throttle room) l.sender eid tagOwner tag bytes
      obtain ⟨w', rc, hcall, hcases⟩ := h.sender.messageTx hsize eid tagOwner tag bytes
      have hstep : flowStep room b env b' l (.send eid tagOwner tag bytes) = { l with
          sender := w'
          taken := if rc = 0 then l.taken ++ [⟨(l.sender.busses 0).eid, eid, tagOwner, tag, bytes⟩]
            else l.taken } := by
        dsimp only [flowStep]
        rw [hcall]
      rw [hcall] at honly
      have hsrc' : (w'.busses 0).eid = src := (honly.eid 0).trans h.source
      rw [hstep]
      rcases hcases with ⟨rfl, htag, -, hsender⟩ | ⟨hrc, -, hsender⟩
      · rw [if_pos rfl]
        rw [h.source] at hsender ⊢
        refine ⟨hsender, hsrc', h.receiver, ⟨h.streams.chunk, ?_, ?_, ?_⟩, ?_⟩
        all_goals
          intro msg hmsg
          rcases List.mem_append.mp hmsg with hold | hnew
        · exact h.streams.source msg hold
        · rw [List.mem_singleton.mp hnew]
          exact hsrc
        · exact h.streams.tag msg hold
        · rw [List.mem_singleton.mp hnew]
          exact htag
        · exact h.streams.fits msg hold
        · rw [List.mem_singleton.mp hnew]
          exact hop.1
        · exact h.keepsEid msg hold
        · rw [List.mem_singleton.mp hnew]
          exact hop.2
      · rw [if_neg hrc]
        exact ⟨hsender, hsrc', h.receiver, h.streams, h.keepsEid⟩
  | deliver =>
      cases hdev : l.sender.dev with
      | nil =>
          have hstep : flowStep room b env b' l .deliver = l := by
            dsimp only [flowStep]
            rw [hdev]
          rw [hstep]
          exact h
      | cons pkt rest =>
          have hstep : flowStep room b env b' l .deliver = { l with
              sender := mctpBindingSetTxEnabled (throttle room) { l.sender with dev := rest } b true
              receiver := mctpBusRx env l.receiver b' pkt
              delivered := l.delivered ++ [pkt] } := by
            dsimp only [flowStep]
            rw [hdev]
          rw [hstep]
          refine ⟨h.sender.pop h.streams.chunk hdev, ?_, ?_, h.streams, h.keepsEid⟩
          · have honly := mctpBindingSetTxEnabled_txOnly (throttle room)
              { l.sender with dev := rest } b true
            exact (honly.eid 0).trans h.source
          · show mctpBusRx env l.receiver b' pkt = _
            rw [rxRun_concat, h.receiver]

theorem FlowInv.run (h : FlowInv room b binding start src env b' cap l₀ l)
    (hsize : mctpPacketSize mctpBtu ≤ binding.pktSize) (hsrc : src ≠ mctpEidBroadcast)
    (ops : List FlowOp) (hops : ∀ op ∈ ops, op.Ok binding src cap) :
    FlowInv room b binding start src env b' cap l₀ (ops.foldl (flowStep room b env b') l) := by
  induction ops generalizing l with
  | nil => exact h
  | cons op ops ih =>
      exact ih (h.step hsize hsrc (hops op List.mem_cons_self)) fun op' hop' =>
        hops op' (List.mem_cons_of_mem _ hop')

/-- The other end has handed up a beginning of the messages taken for it, and all of them once all
packets were delivered. -/
theorem FlowInv.handed (h : FlowInv room b binding start src env b' cap l₀ l)
    (halloc : ∀ n, env.msgAlloc n = true) (hfresh : FreshEndpoint b' eid cap l₀.receiver) :
    l.receiver.hist.handed <+: l.taken.filter (fun msg =>
      mctpRxDestIsLocal { eid := eid } msg.dest) ∧
      (l.delivered = msgPackets binding start l.taken →
        l.receiver.hist.handed = l.taken.filter fun msg =>
          mctpRxDestIsLocal { eid := eid } msg.dest) := by
  have hgot : l.delivered <+: msgPackets binding start l.taken :=
    (List.prefix_append _ _).trans h.sender.sent_prefix
  have hsim := hfresh.sim_stream halloc h.streams h.keepsEid hgot
  obtain ⟨hpre, hall⟩ : (putTogether cap eid l.delivered).out <+: _ ∧
      (_ → (putTogether cap eid l.delivered).out = _) :=
    h.streams.out hgot
  rw [← hsim.handed, ← h.receiver] at hpre hall
  exact ⟨(List.prefix_map_iff_of_injective Message.labelled_injective).mp hpre,
    fun heq => Message.labelled_injective.list_map (hall heq)⟩

end Flow

/-- **Holding back loses nothing.** However many messages are sent and however slowly the packets
reach the other end, there are never more of them on their way than there is room for, and the other
end hands up the messages taken for it, in order and each at most once. A message with a valid tag
is taken exactly where `mctp_is_tx_ready` says so, and where it does not there is no room. -/
theorem flowRun_delivers (room : Nat) (env : Env δ) (halloc : ∀ n, env.msgAlloc n = true) {b : Nat}
    {binding : MctpBinding} {start : Nat} {src : UInt8} {b' : Nat} {eid : UInt8} {cap : Nat}
    {l : FlowLink δ} (hfresh : FreshFlow b binding start src b' eid cap l) (ops : List FlowOp)
    (hops : ∀ op ∈ ops, op.Ok binding src cap) :
    let after := ops.foldl (flowStep room b env b') l
    after.sender.dev.length ≤ room ∧
      after.receiver.hist.handed <+: after.taken.filter (fun msg =>
        mctpRxDestIsLocal { eid := eid } msg.dest) ∧
      ∀ dest, (mctpIsTxReady after.sender dest = false → after.sender.dev.length = room) ∧
        ∀ tagOwner tag bytes, tag &&& mctpHdrTagMask = tag →
          ((mctpMessageTx (throttle room) after.sender dest tagOwner tag bytes).2 = 0 ↔
            mctpIsTxReady after.sender dest = true) := by
  intro after
  have hinv := (hfresh.inv room env).run hfresh.size hfresh.valid ops hops
  refine ⟨hinv.sender.rested.within, (hinv.handed halloc hfresh.receiver).1, fun dest => ?_⟩
  obtain ⟨hready, hbusy⟩ := hinv.sender.isTxReady dest
  refine ⟨hbusy, fun tagOwner tag bytes htag => ?_⟩
  rw [hready, Option.isNone_iff_eq_none]
  obtain ⟨w', rc, hcall, ⟨rfl, -, hfree, -⟩ | ⟨hrc, hqueued, -⟩⟩ :=
    hinv.sender.messageTx hfresh.size dest tagOwner tag bytes
  · rw [hcall]
    exact ⟨fun _ => hfree, fun _ => rfl⟩
  · rw [hcall]
    exact ⟨fun h => absurd h hrc, fun h => absurd h (hqueued htag)⟩

def narrowFlow : FlowLink (List MctpPktbuf) where
  sender := (mctpRegisterBus (throttle 1) (mctpSetup (fun _ => smallBinding) 0 []) 0 8).1
  receiver := wiredNine

theorem narrowFlow_fresh :
    FreshFlow 0 { smallBinding with bus := some 0, mctp := some () } 0 8 0 9
      33554432 narrowFlow where
  linked := ⟨rfl, rfl, rfl, rfl, rfl, rfl⟩
  size := by decide
  source := rfl
  valid := by decide
  enabled := rfl
  idle := rfl
  seq := rfl
  log := rfl
  empty := rfl
  terminated := List.not_mem_nil
  receiver := wiredNine_fresh
  taken := rfl
  delivered := rfl

def narrowOps : List FlowOp := [.send 9 true 1 (List.replicate 100 7), .send 9 true 2 [5], .deliver]

theorem flowRun_delivers_narrow :
    let after := narrowOps.foldl (flowStep 1 0 wire 0) narrowFlow
    (after.taken.length = 1 ∧ mctpIsTxReady after.sender 9 = true) ∧
    after.sender.dev.length ≤ 1 := by
  refine ⟨by decide +kernel, ?_⟩
  exact (flowRun_delivers 1 wire (fun _ => rfl) narrowFlow_fresh narrowOps (by decide)).1

/-! ### Delivering all -/

section Drains

variable {room b start b' cap : Nat} {binding : MctpBinding} {src eid : UInt8} {env : Env δ}
  {l₀ l : FlowLink δ}

def flowLoad (binding : MctpBinding) (start : Nat) (l : FlowLink δ) : Nat :=
  (msgPackets binding start l.taken).length - l.delivered.length

theorem FlowInv.deliver (h : FlowInv room b binding start src env b' cap l₀ l) :
    (flowStep room b env b' l .deliver).taken = l.taken ∧
      (l.sender.dev = [] → flowStep room b env b' l .deliver = l) ∧
      (l.sender.dev ≠ [] →
        flowLoad binding start (flowStep room b env b' l .deliver) < flowLoad binding start l) := by
  have hle := h.sender.sent_prefix.length_le
  dsimp only [flowStep]
  cases hdev : l.sender.dev with
  | nil => exact ⟨rfl, fun _ => rfl, fun hne => absurd rfl hne⟩
  | cons pkt rest =>
      rw [hdev, List.length_append, List.length_cons] at hle
      refine ⟨rfl, fun hnil => absurd hnil (List.cons_ne_nil _ _), fun _ => ?_⟩
      unfold flowLoad
      dsimp only
      rw [List.length_append, List.length_singleton]
      omega

theorem flow_drains (hsize : mctpPacketSize mctpBtu ≤ binding.pktSize)
    (hsrc : src ≠ mctpEidBroadcast) (taken : List Message) :
    Drain.Drains (flowStep room b env b') (fun op => op = .deliver)
      (fun l => FlowInv room b binding start src env b' cap l₀ l ∧ l.taken = taken)
      (fun l _ => l.sender.dev ≠ []) (flowLoad binding start) where
  keeps := by
    rintro l op rfl ⟨h, htaken⟩
    exact ⟨h.step hsize hsrc trivial, h.deliver.1.trans htaken⟩
  lowers := by
    rintro l op rfl ⟨h, -⟩ hpending
    exact h.deliver.2.2 hpending
  rests := by
    rintro l op rfl ⟨h, -⟩ hidle
    rw [h.deliver.2.1 (not_not.mp hidle)]
    exact ⟨rfl, fun _ => Iff.rfl⟩

end Drains

/-- **Every message taken gets across.** Where there is room for a packet, nothing is left to send
once as many packets were delivered as the messages taken need, and the other end has handed up all
that was for it. -/
theorem flowRun_drains (room : Nat) (hroom : 0 < room) (env : Env δ)
    (halloc : ∀ n, env.msgAlloc n = true) {b : Nat} {binding : MctpBinding} {start : Nat}
    {src : UInt8} {b' : Nat} {eid : UInt8} {cap : Nat} {l : FlowLink δ}
    (hfresh : FreshFlow b binding start src b' eid cap l) (ops : List FlowOp)
    (hops : ∀ op ∈ ops, op.Ok binding src cap) :
    let after := ops.foldl (flowStep room b env b') l
    ∀ n, (msgPackets binding start after.taken).length ≤ after.delivered.length + n →
      let last := (List.replicate n FlowOp.deliver).foldl (flowStep room b env b') after
      (last.sender.busses 0).txMsg = none ∧ last.sender.dev = [] ∧
        last.receiver.hist.handed = after.taken.filter fun msg =>
          mctpRxDestIsLocal { eid := eid } msg.dest := by
  intro after n henough last
  have hinv := (hfresh.inv room env).run hfresh.size hfresh.valid ops hops
  have hdrains : Drain.Drains (flowStep room b env b') (fun op => op = .deliver)
      (fun k => FlowInv room b binding start src env b' cap l k ∧ k.taken = after.taken)
      (fun k _ => k.sender.dev ≠ [])
      (flowLoad binding start) := flow_drains hfresh.size hfresh.valid after.taken
  have hrounds : (List.replicate n [FlowOp.deliver]).flatten = List.replicate n FlowOp.deliver := by
    simp
  have hidle := hdrains.rounds (List.replicate n [FlowOp.deliver])
    (by
      intro round hround
      rw [List.eq_of_mem_replicate hround]
      exact ⟨by simp, by simp⟩)
    after ⟨hinv, rfl⟩
    (by
      unfold flowLoad
      rw [List.length_replicate]
      omega)
  rw [hrounds] at hidle
  obtain ⟨⟨hlast, htaken⟩, -⟩ := hdrains.run (List.replicate n FlowOp.deliver)
    (by simp) after ⟨hinv, rfl⟩
  have hempty : last.sender.dev = [] := not_not.mp (hidle .deliver rfl)
  have hgone := hlast.sender.all_gone hroom hempty
  refine ⟨?_, hempty, ?_⟩
  · rcases hlast.sender.rested.stops with ⟨-, hnone⟩ | ⟨-, -, hfull⟩
    · exact hnone
    · have hzero : last.sender.dev.length = room := hfull
      rw [hempty] at hzero
      exact absurd hzero hroom.ne
  · have hhanded := (hlast.handed halloc hfresh.receiver).2 hgone
    rw [htaken] at hhanded
    exact hhanded

/-- The first message of two packets gets across. -/
theorem flowRun_drains_narrow :
    let after := narrowOps.foldl (flowStep 1 0 wire 0) narrowFlow
    ((List.replicate 1 FlowOp.deliver).foldl (flowStep 1 0 wire 0) after).receiver.hist.handed
      = [⟨8, 9, true, 1, List.replicate 100 7⟩] := by
  intro after
  have hall := flowRun_drains 1 (by decide) wire (fun _ => rfl) narrowFlow_fresh narrowOps
    (by decide) 1 (by decide +kernel)
  exact hall.2.2.trans (by decide +kernel)

end LibMctp
