import LibMctp.Lib.Drain
import LibMctp.Proof.Context.Pipe
import LibMctp.Proof.Driver.Memory
import LibMctp.Proof.Link.Capacity

/-!
# Messages between two transports

Two transports on a pipe send each other messages and poll. What one of them wrote and the other has
not read stays in the pipe, and the callback at either end is given the messages for it from the
other end, in order.
-/

namespace LibMctp

open Fragment Reassembly

variable {π : Type}

/-! ### One end -/

def transportBinding : MctpBinding :=
  { mctpMmbiInit with txStorage := true, bus := some 0, mctp := some () }

theorem transportBinding_chunk : transportBinding.chunk = 65536 := by decide

theorem transportBinding_bare : transportBinding.Bare := ⟨rfl, rfl, by decide⟩

/-- What a transport is to a machine that put together the packets `got`. -/
def received (eid : UInt8) (got : List MctpPktbuf) : State UInt8 MsgLabel MsgKey :=
  putTogether mctpMaxMessageSize.toNat eid got

/-- A transport that sent all of the messages and was given the packets. -/
structure TransportInv (eid : UInt8) (cb : Nat) (accepted : List Message) (got : List MctpPktbuf)
    (ctx : MctpMmbiContext π) : Prop where
  linked : Linked ctx.mctp 0 transportBinding
  handle : ctx.mctp.dev.1.deviceHandle = true
  idle : (ctx.mctp.busses 0).txMsg = none
  enabled : (ctx.mctp.busses 0).state = .txEnabled
  seq : (ctx.mctp.busses 0).txSeq.toNat = (msgPackets transportBinding 0 accepted).length % 4
  ready : RxReady 0 eid mctpMaxMessageSize.toNat ctx.mctp
  sim : Sim mctpMaxMessageSize.toNat ctx.mctp (received eid got)
  messageRx : ctx.mctp.messageRx = true
  rxCb : ctx.rxCb = some cb
  calls : ctx.calls = ctx.mctp.hist.handed.map fun msg => (cb, msg.src, msg.bytes)

section End

variable {port : Bool → MmbiPort π} {sent : π → Bool → List (List UInt8)} {i : Bool} {eid : UInt8}
  {cb : Nat}
  {accepted : List Message} {got : List MctpPktbuf} {ctx : MctpMmbiContext π}

def MctpMmbiContext.onDevice (ctx : MctpMmbiContext π) (p : π) : MctpMmbiContext π :=
  { ctx with mctp := { ctx.mctp with dev := (ctx.mctp.dev.1, p) } }

theorem TransportInv.onDevice (h : TransportInv eid cb accepted got ctx) (p : π) :
    TransportInv eid cb accepted got (ctx.onDevice p) where
  linked := ⟨h.linked.nBusses, h.linked.bus, h.linked.mctp, h.linked.eq,
    h.linked.back, h.linked.owner⟩
  handle := h.handle
  idle := h.idle
  enabled := h.enabled
  seq := h.seq
  ready := ⟨h.ready.bus, h.ready.endpoint, h.ready.eid, h.ready.max⟩
  sim := h.sim.passes (h.sim.inv.passes rfl rfl)
  messageRx := h.messageRx
  rxCb := h.rxCb
  calls := h.calls

def transportMsg (eid : UInt8) (m : UInt8 × List UInt8) : Message := ⟨eid, m.1, false, 0, m.2⟩

def nextPackets (n : Nat) (msg : Message) : List MctpPktbuf :=
  (cut 4 transportBinding.chunk true n msg.bytes).map (fragPkt transportBinding msg.label)

theorem msgPackets_next (accepted : List Message) (msg : Message) :
    msgPackets transportBinding 0 (accepted ++ [msg])
      = msgPackets transportBinding 0 accepted ++ nextPackets (msgPackets transportBinding 0
        accepted).length msg := by
  rw [msgPackets_concat, Nat.zero_add]
  rfl

theorem fragPkt_transport {l : MsgLabel} {f : Frag UInt8} (hlen : f.payload.length ≤ 65536) :
    (fragPkt transportBinding l f).Flat ∧ (fragPkt transportBinding l f).data ≠ [] ∧
      (fragPkt transportBinding l f).data.length ≤ 65540 := by
  have hflat : (fragPkt transportBinding l f).Flat :=
    fragPkt_flat rfl (by unfold mctpHdrSize; omega)
  have hsize : (fragPkt transportBinding l f).data.length = 4 + f.payload.length := by
    rw [← hflat.end_]
    rfl
  refine ⟨hflat, List.ne_nil_of_length_pos (by omega), by omega⟩

theorem replayTx_mmbi (port : Bool → MmbiPort π) (i : Bool) {d : MctpBindingMmbi × π}
    (hhandle : d.1.deviceHandle = true) (b : Nat) (txed : List (MctpPktbuf × TxResult)) :
    (replayTx (pipeEnv port i) b d txed).1 = d.1 := by
  induction txed using List.reverseRecOn with
  | nil => rfl
  | append_singleton txed x ih =>
      rw [replayTx_append]
      generalize replayTx (pipeEnv port i) b d txed = d' at ih
      have hkept : (mctpMmbiTx (port i) d'.1 d'.2 x.1).1.1 = d'.1 := by
        rw [mctpMmbiTx]
        dsimp only
        rw [if_pos (by rw [ih]; exact hhandle)]
      exact hkept.trans ih

variable (port i) in
/-- **Sending.** A message whose packets are all taken with the first attempt is sent when the call
returns. -/
theorem TransportInv.send_on (h : TransportInv eid cb accepted got ctx) (m : UInt8 × List UInt8)
    {P : List (Frag UInt8) → MctpBindingMmbi × π → Prop}
    (htx : ∀ f fs, f :: fs <:+ cut 4 transportBinding.chunk true (msgPackets transportBinding 0
      accepted).length m.2 → ∀ d, P (f :: fs) d →
      ((pipeEnv port i).tx 0 d (fragPkt transportBinding (transportMsg eid m).label f)).2 = ⟨0,
        false⟩ ∧ P fs ((pipeEnv port i).tx 0 d
          (fragPkt transportBinding (transportMsg eid m).label f)).1)
    (hdev : P (cut 4 transportBinding.chunk true (msgPackets transportBinding 0 accepted).length
      m.2) ctx.mctp.dev) :
    ∃ w', mctpMessageTx (pipeEnv port i) ctx.mctp m.1 false 0 m.2 = (w', 0) ∧
      TransportInv eid cb (accepted ++ [transportMsg eid m]) got { ctx with mctp := w' } ∧
      w'.dev = replayTx (pipeEnv port i) 0 ctx.mctp.dev
        ((nextPackets (msgPackets transportBinding 0 accepted).length (transportMsg eid m)).map
          fun pkt => (pkt, ⟨0, false⟩)) := by
  have htag : (0 : UInt8) &&& mctpHdrTagMask = 0 := by decide
  obtain ⟨w', hcall, htaken⟩ : ∃ w', mctpMessageTx (pipeEnv port i) ctx.mctp m.1 false 0 m.2
    = (w', 0) ∧
      TxTaken (pipeEnv port i) ctx.mctp 0 ⟨(ctx.mctp.busses 0).eid, m.1, false, 0, m.2⟩ w' :=
    mctpMessageTx_taken h.linked rfl (by rw [h.enabled]; decide) (by decide)
      h.idle m.1 false htag m.2
  have honly := mctpMessageTx_txOnly (pipeEnv port i) ctx.mctp m.1 false 0 m.2
  rw [hcall] at honly
  rw [h.ready.eid] at htaken
  have hwhole := htaken.sentWhole_along h.linked.bus h.linked.eq htx hdev
    (by decide) h.enabled h.seq
  obtain ⟨new, htxed, hreplay⟩ := htaken.replayed h.linked.bus
  have hnew : new = (nextPackets (msgPackets transportBinding 0 accepted).length
      (transportMsg eid m)).map fun pkt => (pkt, ⟨0, false⟩) := by
    rw [List.append_cancel_left (htxed.symm.trans hwhole.txed), nextPackets, List.map_map]
    rfl
  rw [hnew] at hreplay
  refine ⟨w', hcall, ?_, hreplay⟩
  constructor
  · exact h.linked.of_sameSetup honly.toSameSetup
  · show w'.dev.1.deviceHandle = true
    rw [hreplay, replayTx_mmbi port i h.handle]
    exact h.handle
  · exact hwhole.idle
  · exact hwhole.enabled
  · show (w'.busses 0).txSeq.toNat = _
    rw [hwhole.seq, msgPackets_next, List.length_append, nextPackets, List.length_map]
    rfl
  · exact h.ready.of_sameSetup honly.toSameSetup (honly.eid 0)
  · exact h.sim.passes (h.sim.inv.passes honly.msgCtxs honly.handed)
  · exact honly.messageRx.trans h.messageRx
  · exact h.rxCb
  · show ctx.calls = w'.hist.handed.map _
    rw [honly.handed]
    exact h.calls

/-- **Sending on a pipe.** The packets of the message are in the pipe when the call returns. -/
theorem TransportInv.send (h : TransportInv eid cb accepted got ctx) (hpipe : IsPipe port sent)
    (m : UInt8 × List UInt8) :
    ∃ w', mctpMessageTx (pipeEnv port i) ctx.mctp m.1 false 0 m.2 = (w', 0) ∧
      TransportInv eid cb (accepted ++ [transportMsg eid m]) got { ctx with mctp := w' } ∧
      sent w'.dev.2 = Function.update (sent ctx.mctp.dev.2) i (sent ctx.mctp.dev.2 i ++
        (nextPackets (msgPackets transportBinding 0 accepted).length (transportMsg eid m)).map
        MctpPktbuf.bytes) := by
  have hpacket : ∀ f ∈ cut 4 transportBinding.chunk true (msgPackets transportBinding 0
    accepted).length m.2,
      f.payload.length ≤ 65536 := fun f hf => payload_le_of_mem_cut (by decide) hf
  -- each packet is written to the pipe with the first attempt
  obtain ⟨w', hcall, hinv, hdev⟩ := h.send_on port i m (P := fun _ d => d.1.deviceHandle = true)
    (fun f fs hf d hd => by
      obtain ⟨hflat, hne, hlen⟩ := fragPkt_transport (l := (transportMsg eid m).label)
        (hpacket f (hf.mem List.mem_cons_self))
      obtain ⟨hok, hmmbi, -⟩ := hpipe.tx i d.1 d.2 hd hflat hne (by omega) 0
      exact ⟨hok, (congrArg MctpBindingMmbi.deviceHandle hmmbi).trans hd⟩)
    h.handle
  refine ⟨w', hcall, hinv, ?_⟩
  obtain ⟨-, hsent⟩ := hpipe.replay i ctx.mctp.dev.1 ctx.mctp.dev.2 h.handle 0
    ((nextPackets (msgPackets transportBinding 0 accepted).length (transportMsg eid m)).map
      fun pkt => (pkt, ⟨0, false⟩)) (by
      intro x hx
      obtain ⟨pkt, hpkt, rfl⟩ := List.mem_map.mp hx
      obtain ⟨f, hf, rfl⟩ := List.mem_map.mp hpkt
      obtain ⟨hflat, hne, hlen⟩ :=
        fragPkt_transport (l := (transportMsg eid m).label) (hpacket f hf)
      exact ⟨hflat, hne, hlen.trans_lt (by decide)⟩)
  rw [hdev, hsent, List.map_map]
  rfl

theorem foldl_mmbiInternalRx (msgs : List Message) (ctx : MctpMmbiContext π)
    (hcb : ctx.rxCb = some cb) :
    (msgs.map Message.upcall).foldl mmbiInternalRx ctx
      = { ctx with calls := ctx.calls ++ msgs.map fun msg => (cb, msg.src, msg.bytes) } := by
  induction msgs generalizing ctx with
  | nil =>
      rw [List.map_nil, List.map_nil, List.append_nil]
      rfl
  | cons msg msgs ih =>
      have hcall : mmbiInternalRx ctx msg.upcall
          = { ctx with calls := ctx.calls ++ [(cb, msg.src, msg.bytes)] } := by
        unfold mmbiInternalRx Message.upcall
        dsimp only
        rw [hcb]
      rw [List.map_cons, List.foldl_cons, hcall,
        ih { ctx with calls := ctx.calls ++ [(cb, msg.src, msg.bytes)] } hcb]
      simp

/-- **Polling an empty pipe** does nothing. -/
theorem TransportInv.poll_empty (h : TransportInv eid cb accepted got ctx)
    (hpipe : IsPipe port sent) (hempty : (sent ctx.mctp.dev.2 !i) = []) :
    mctpMmbiContextPoll (pipeEnv port i) (port i) ctx = (ctx, 0) := by
  have hpeek : (port i).peekNamedPipe ctx.mctp.dev.2 = some 0 := by
    rw [hpipe.peekNamedPipe, hempty]
    rfl
  have hpoll : mctpMmbiPoll (pipeEnv port i) (port i) ctx.mctp 0 = (ctx.mctp, 0) := by
    unfold mctpMmbiPoll mmbiPollPacket
    dsimp only
    rw [h.handle, hpeek]
    rfl
  unfold mctpMmbiContextPoll
  rw [hpoll]
  dsimp only
  rw [List.drop_length]
  rfl

theorem received_concat (eid : UInt8) (got : List MctpPktbuf) (pkt : MctpPktbuf) :
    received eid (got ++ [pkt])
      = if pktTaken eid pkt then
          machine MsgLabel.key 4 mctpMaxMessageSize.toNat (received eid got) (pktItem pkt)
        else received eid got := by
  unfold received putTogether
  rw [endpointItems_concat]
  split
  · exact run_append _ _ _
  · rfl

theorem TransportInv.pktAlloced (h : TransportInv eid cb accepted got ctx) :
    TransportInv eid cb accepted got { ctx with mctp := ctx.mctp.pktAlloced } where
  linked := ⟨h.linked.nBusses, h.linked.bus, h.linked.mctp, h.linked.eq,
    h.linked.back, h.linked.owner⟩
  handle := h.handle
  idle := h.idle
  enabled := h.enabled
  seq := h.seq
  ready := ⟨h.ready.bus, h.ready.endpoint, h.ready.eid, h.ready.max⟩
  sim := h.sim.passes (h.sim.inv.passes rfl rfl)
  messageRx := h.messageRx
  rxCb := h.rxCb
  calls := h.calls

/-- **Polling.** A packet that is read is put together with those before it. -/
theorem TransportInv.poll_on (h : TransportInv eid cb accepted got ctx) {pkt : MctpPktbuf} {p' : π}
    (hpeek : ((port i).peekNamedPipe ctx.mctp.dev.2).getD 1 ≠ 0)
    (hfile : (port i).readFile ctx.mctp.dev.2 65544 = (p', .ok pkt.bytes)) (hflat : pkt.Flat)
    (hne : pkt.data ≠ []) (hlen : pkt.data.length ≤ 65540)
    (howner : (pktLabel pkt).tagOwner = false)
    (hone : ∀ k k', (received eid got).asm k ≠ none → (received eid got).asm k' ≠ none → k = k') :
    ∃ ctx', mctpMmbiContextPoll (pipeEnv port i) (port i) ctx = (ctx', 0) ∧
      TransportInv eid cb accepted (got ++ [pkt]) ctx' ∧
      ctx'.mctp.dev.2 = p' := by
  have hbytes := hflat.bytes_eq
  have hsize : (ctx.mctp.bindings 0).pktSize = 65540 := by
    rw [h.linked.eq]
    rfl
  have hread : maxToRead (ctx.mctp.bindings 0).pktSize = 65544 := by
    rw [hsize]
    decide
  have hpos : 0 < pkt.bytes.length := by
    rw [hbytes]
    exact List.length_pos_of_ne_nil hne
  have hpoll := mctpMmbiPoll_eq (pipeEnv port i) (by rw [h.linked.eq]; exact transportBinding_bare)
    h.handle hpeek (by rw [hread]; exact hfile) hpos (by rw [hsize, hbytes]; exact hlen) rfl
  -- the packet buffer is allocated once the device was read
  have h₁ := (h.onDevice p').pktAlloced
  have hdev₁ : ((ctx.onDevice p').mctp.pktAlloced).dev = (ctx.mctp.dev.1, p') := rfl
  have hupcalls₁ : ((ctx.onDevice p').mctp.pktAlloced).hist.upcalls = ctx.mctp.hist.upcalls := rfl
  have hcalls₁ := h₁.calls
  rw [show Mctp.pktAlloced { ctx.mctp with dev := (ctx.mctp.dev.1, p') }
    = (ctx.onDevice p').mctp.pktAlloced from rfl, hsize] at hpoll
  rw [show (ctx.onDevice p') = { ctx with mctp := (ctx.onDevice p').mctp } from rfl] at h₁
  generalize (ctx.onDevice p').mctp.pktAlloced = w₁ at h₁ hdev₁ hupcalls₁ hpoll hcalls₁
  have hlabel : pktLabel (receivedPkt 65540 pkt.bytes) = pktLabel pkt :=
    congrArg Prod.fst (pktItem_receivedPkt 65540 hflat)
  have hcontrol : ∀ k, (w₁.bindings 0).bus = some k → (w₁.busBinding k).controlRx = false := by
    intro k hk
    obtain rfl : k = 0 := Option.some.inj (hk.symm.trans h₁.ready.bus)
    rw [h₁.linked.busBinding]
    rfl
  obtain ⟨hquiet, msgs, hhanded, hupcalls, -⟩ :=
    mctpBusRx_notOwner (pipeEnv port i) h₁.ready.endpoint h₁.messageRx hcontrol
    (by rw [hlabel, howner])
  have hsim : Sim mctpMaxMessageSize.toNat
    (mctpBusRx (pipeEnv port i) w₁ 0 (receivedPkt 65540 pkt.bytes))
      (received eid (got ++ [pkt])) := by
    rw [received_concat, ← pktTaken_receivedPkt 65540 hflat, ← pktItem_receivedPkt 65540 hflat]
    exact h₁.sim.step h₁.ready rfl fun _ _ _ => h₁.sim.not_full hone
  generalize mctpBusRx (pipeEnv port i) w₁ 0 (receivedPkt 65540 pkt.bytes)
    = w' at hpoll hquiet hhanded hupcalls hsim
  refine ⟨{ ctx with mctp := w', calls := ctx.calls ++ msgs.map fun msg =>
    (cb, msg.src, msg.bytes) }, ?_, ?_, ?_⟩
  · unfold mctpMmbiContextPoll
    rw [hpoll]
    dsimp only
    rw [hupcalls, hupcalls₁, List.drop_left,
      foldl_mmbiInternalRx msgs { ctx with mctp := w' } h.rxCb]
  · constructor
    · exact h₁.linked.of_sameSetup hquiet.setup
    · show w'.dev.1.deviceHandle = true
      rw [hquiet.sent.dev]
      exact h₁.handle
    · show (w'.busses 0).txMsg = none
      rw [hquiet.sent.busses]
      exact h₁.idle
    · show (w'.busses 0).state = .txEnabled
      rw [hquiet.sent.busses]
      exact h₁.enabled
    · show (w'.busses 0).txSeq.toNat = _
      rw [hquiet.sent.busses]
      exact h₁.seq
    · exact h₁.ready.of_sameSetup hquiet.setup (by rw [hquiet.sent.busses])
    · exact hsim
    · exact hquiet.setup.messageRx.trans h₁.messageRx
    · exact h.rxCb
    · show _ = w'.hist.handed.map _
      rw [hhanded, List.map_append]
      exact congrArg (· ++ _) hcalls₁
  · show w'.dev.2 = _
    rw [hquiet.sent.dev, hdev₁]

/-- **Polling a pipe.** The oldest packet is taken out of it. -/
theorem TransportInv.poll (h : TransportInv eid cb accepted got ctx) (hpipe : IsPipe port sent)
    {pkt : MctpPktbuf} {rest : List (List UInt8)}
    (hsent : (sent ctx.mctp.dev.2 !i) = pkt.bytes :: rest) (hflat : pkt.Flat) (hne : pkt.data ≠ [])
    (hlen : pkt.data.length ≤ 65540) (howner : (pktLabel pkt).tagOwner = false)
    (hone : ∀ k k', (received eid got).asm k ≠ none → (received eid got).asm k' ≠ none → k = k') :
    ∃ ctx', mctpMmbiContextPoll (pipeEnv port i) (port i) ctx = (ctx', 0) ∧
      TransportInv eid cb accepted (got ++ [pkt]) ctx' ∧
      sent ctx'.mctp.dev.2 = Function.update (sent ctx.mctp.dev.2) (!i) rest := by
  have hpos : 0 < pkt.bytes.length := by
    rw [hflat.bytes_eq]
    exact List.length_pos_of_ne_nil hne
  obtain ⟨p', hfile, hsent'⟩ := hpipe.readFile ctx.mctp.dev.2 i pkt.bytes rest 65544 hsent
    (by rw [hflat.bytes_eq]; omega)
  have hpeek : ((port i).peekNamedPipe ctx.mctp.dev.2).getD 1 ≠ 0 := by
    rw [hpipe.peekNamedPipe, hsent, List.flatten_cons, List.length_append, Option.getD_some]
    omega
  obtain ⟨ctx', hpoll, hinv, hdev⟩ := h.poll_on hpeek hfile hflat hne hlen howner hone
  refine ⟨ctx', hpoll, hinv, ?_⟩
  rw [hdev, hsent']

end End

/-! ### The messages of one side -/

section Messages

variable {eid : UInt8} {sends : List (UInt8 × List UInt8)}

def transportMsgs (eid : UInt8) (sends : List (UInt8 × List UInt8)) : List Message :=
  sends.map (transportMsg eid)

theorem mem_transportMsgs {msg : Message} (h : msg ∈ transportMsgs eid sends) :
    ∃ m ∈ sends, msg = transportMsg eid m := by
  obtain ⟨m, hm, rfl⟩ := List.mem_map.mp h
  exact ⟨m, hm, rfl⟩

theorem transportMsgs_tag : ∀ msg ∈ transportMsgs eid sends, msg.tag.toNat < 8 := by
  intro msg hmsg
  obtain ⟨m, -, rfl⟩ := mem_transportMsgs hmsg
  exact Nat.zero_lt_succ 7

theorem transport_pkt {pkt : MctpPktbuf}
    (h : pkt ∈ msgPackets transportBinding 0 (transportMsgs eid sends)) :
    (pkt.Flat ∧ pkt.data ≠ [] ∧ pkt.data.length ≤ 65540) ∧ (pktLabel pkt).tagOwner = false := by
  obtain ⟨msg, hmsg, hlabel⟩ := label_of_mem_msgPackets (by decide) transportMsgs_tag h
  obtain ⟨m, -, rfl⟩ := mem_transportMsgs hmsg
  refine ⟨?_, by rw [hlabel]; rfl⟩
  obtain ⟨x, hx, rfl⟩ := List.mem_map.mp h
  obtain ⟨_, _, _, s, hcut⟩ := mem_stream hx
  exact fragPkt_transport (payload_le_of_mem_cut (by decide) hcut)

/-- The other end can put them together. -/
theorem transportMsgs_streams (hsrc : eid ≠ mctpEidBroadcast)
    (hcap : ∀ m ∈ sends, m.2.length ≤ mctpMaxMessageSize.toNat) :
    Streams transportBinding mctpMaxMessageSize.toNat (transportMsgs eid sends) where
  chunk := by decide
  source := by
    intro msg hmsg
    obtain ⟨m, -, rfl⟩ := mem_transportMsgs hmsg
    exact hsrc
  tag := transportMsgs_tag
  fits := by
    intro msg hmsg _
    obtain ⟨m, hm, rfl⟩ := mem_transportMsgs hmsg
    exact hcap m hm

end Messages

/-! ### The link -/

structure TransportLink (π : Type) where
  pipe : π
  ends : Bool → MctpMmbiContext π

inductive TransportOp where
  | send (i : Bool) (dstEid : UInt8) (data : List UInt8)
  | poll (i : Bool)

/-- One call at one end, which finds the pipe as the calls before left it. -/
def transportStep (port : Bool → MmbiPort π) (l : TransportLink π) : TransportOp → TransportLink π
  | .send i dstEid data =>
    let ctx := (mctpTransportSend (pipeEnv port i) ((l.ends i).onDevice l.pipe) dstEid data).1
    ⟨ctx.mctp.dev.2, Function.update l.ends i ctx⟩
  | .poll i =>
    let ctx := (mctpTransportPoll (pipeEnv port i) (port i) ((l.ends i).onDevice l.pipe)).1
    ⟨ctx.mctp.dev.2, Function.update l.ends i ctx⟩

def TransportOp.sent (i : Bool) : TransportOp → Option (UInt8 × List UInt8)
  | .send j dstEid data => if j = i then some (dstEid, data) else none
  | .poll _ => none

def TransportOp.Fits : TransportOp → Prop
  | .send _ _ data => data.length ≤ mctpMaxMessageSize.toNat
  | .poll _ => True

instance : DecidablePred TransportOp.Fits
  | .send _ _ data => inferInstanceAs (Decidable (data.length ≤ mctpMaxMessageSize.toNat))
  | .poll _ => isTrue trivial

section Link

variable {port : Bool → MmbiPort π} {sent : π → Bool → List (List UInt8)} {eid : Bool → UInt8}
  {cb : Bool → Nat}
  {sends : Bool → List (UInt8 × List UInt8)} {l : TransportLink π}

/-- The pipe holds what was sent and not read. -/
structure TransportLinkInv (sent : π → Bool → List (List UInt8)) (eid : Bool → UInt8)
    (cb : Bool → Nat) (sends : Bool → List (UInt8 × List UInt8)) (l : TransportLink π)
    (gone held : Bool → List MctpPktbuf) : Prop where
  packets : ∀ i, gone i ++ held i = msgPackets transportBinding 0 (transportMsgs (eid i) (sends i))
  pipe : ∀ i, sent l.pipe i = (held i).map MctpPktbuf.bytes
  ends : ∀ i, TransportInv (eid i) (cb i) (transportMsgs (eid i) (sends i)) (gone !i) (l.ends i)
  fits : ∀ i, ∀ m ∈ sends i, m.2.length ≤ mctpMaxMessageSize.toNat

variable {gone held : Bool → List MctpPktbuf}

theorem TransportLinkInv.send (h : TransportLinkInv sent eid cb sends l gone held)
    (hpipe : IsPipe port sent) (i : Bool) {dstEid : UInt8} {data : List UInt8}
    (hfits : data.length ≤ mctpMaxMessageSize.toNat) :
    ∃ held, TransportLinkInv sent eid cb (Function.update sends i (sends i ++ [(dstEid, data)]))
      (transportStep port l (.send i dstEid data)) gone held := by
  obtain ⟨w', hcall, hinv, hsent⟩ := ((h.ends i).onDevice l.pipe).send (i := i) hpipe (dstEid, data)
  have hstep : transportStep port l (.send i dstEid data)
      = ⟨w'.dev.2, Function.update l.ends i { (l.ends i).onDevice l.pipe with mctp := w' }⟩ := by
    dsimp only [transportStep, mctpTransportSend, mctpMmbiSend]
    rw [hcall]
  have hmsgs : transportMsgs (eid i) (sends i ++ [(dstEid, data)])
      = transportMsgs (eid i) (sends i) ++ [transportMsg (eid i) (dstEid, data)] := List.map_append
  refine ⟨Function.update held i
    (held i ++ nextPackets (msgPackets transportBinding 0 (transportMsgs (eid i) (sends i))).length
    (transportMsg (eid i) (dstEid, data))), ?_, ?_, ?_, ?_⟩
  · intro j
    by_cases hj : j = i
    · subst hj
      rw [Function.update_self, Function.update_self, hmsgs, msgPackets_next,
        ← h.packets j, List.append_assoc]
    · rw [Function.update_of_ne hj, Function.update_of_ne hj]
      exact h.packets j
  · intro j
    rw [hstep]
    show sent w'.dev.2 j = _
    rw [hsent]
    by_cases hj : j = i
    · subst hj
      rw [Function.update_self, Function.update_self, List.map_append, ← h.pipe j]
      rfl
    · rw [Function.update_of_ne hj, Function.update_of_ne hj]
      exact h.pipe j
  · intro j
    rw [hstep]
    by_cases hj : j = i
    · subst hj
      rw [Function.update_self, hmsgs]
      show TransportInv _ _ _ _ (Function.update l.ends j _ j)
      rw [Function.update_self]
      exact hinv
    · rw [Function.update_of_ne hj]
      show TransportInv _ _ _ _ (Function.update l.ends i _ j)
      rw [Function.update_of_ne hj]
      exact h.ends j
  · intro j m hm
    by_cases hj : j = i
    · subst hj
      rw [Function.update_self, List.mem_append, List.mem_singleton] at hm
      rcases hm with hm | rfl
      · exact h.fits j m hm
      · exact hfits
    · rw [Function.update_of_ne hj] at hm
      exact h.fits j m hm

theorem TransportLinkInv.poll (h : TransportLinkInv sent eid cb sends l gone held)
    (hpipe : IsPipe port sent) (heid : ∀ i, eid i ≠ mctpEidBroadcast) (i : Bool) :
    (∃ gone held, TransportLinkInv sent eid cb sends (transportStep port l (.poll i)) gone held) ∧
      sent (transportStep port l (.poll i)).pipe
        = Function.update (sent l.pipe) (!i) (sent l.pipe !i).tail := by
  have hend := (h.ends i).onDevice l.pipe
  have hother : ∀ ctx : MctpMmbiContext π, ∀ {j}, j ≠ i →
      Function.update l.ends i ctx j = l.ends j :=
    fun ctx _ hj => Function.update_of_ne hj _ _
  cases hheld : held !i with
  | nil =>
      have hempty : (sent l.pipe !i) = [] := by
        rw [h.pipe, hheld]
        rfl
      have hpoll := hend.poll_empty (i := i) hpipe hempty
      have hstep : transportStep port l (.poll i)
          = ⟨l.pipe, Function.update l.ends i ((l.ends i).onDevice l.pipe)⟩ := by
        dsimp only [transportStep, mctpTransportPoll]
        rw [hpoll]
        rfl
      rw [hstep]
      refine ⟨⟨gone, held, h.packets, h.pipe, fun j => ?_, h.fits⟩, ?_⟩
      · by_cases hj : j = i
        · subst hj
          show TransportInv _ _ _ _ (Function.update l.ends j _ j)
          rw [Function.update_self]
          exact hend
        · show TransportInv _ _ _ _ (Function.update l.ends i _ j)
          rw [hother _ hj]
          exact h.ends j
      · rw [hempty, List.tail_nil, ← hempty, Function.update_eq_self]
  | cons pkt rest =>
      have hall := h.packets !i
      rw [hheld] at hall
      have hpkt : pkt ∈ msgPackets transportBinding 0 (transportMsgs (eid !i) (sends !i)) := by
        rw [← hall]
        exact List.mem_append_right _ List.mem_cons_self
      obtain ⟨⟨hflat, hne, hlen⟩, howner⟩ := transport_pkt hpkt
      have hstream := transportMsgs_streams (heid !i) (h.fits !i)
      have hpkts : (sent l.pipe !i) = pkt.bytes :: rest.map MctpPktbuf.bytes := by
        rw [h.pipe, hheld]
        rfl
      obtain ⟨ctx', hpoll, hinv, hsent⟩ := hend.poll hpipe hpkts hflat hne hlen howner fun k k' =>
        hstream.one_under_way (hall ▸ List.prefix_append _ _)
      have hstep : transportStep port l (.poll i)
          = ⟨ctx'.mctp.dev.2, Function.update l.ends i ctx'⟩ := by
        dsimp only [transportStep, mctpTransportPoll]
        rw [hpoll]
      rw [hstep]
      have htail : sent ctx'.mctp.dev.2
          = Function.update (sent l.pipe) (!i) (sent l.pipe !i).tail := by
        rw [hpkts]
        exact hsent
      refine ⟨⟨Function.update gone (!i) (gone (!i) ++ [pkt]), Function.update held (!i) rest,
        fun j => ?_, fun j => ?_, fun j => ?_,
        h.fits⟩, htail⟩
      · by_cases hj : j = !i
        · subst hj
          rw [Function.update_self, Function.update_self, List.append_assoc]
          exact hall
        · rw [Function.update_of_ne hj, Function.update_of_ne hj]
          exact h.packets j
      · show sent ctx'.mctp.dev.2 j = _
        rw [hsent]
        by_cases hj : j = !i
        · subst hj
          rw [Function.update_self, Function.update_self]
        · rw [Function.update_of_ne hj, Function.update_of_ne hj]
          exact h.pipe j
      · by_cases hj : j = i
        · subst hj
          rw [Function.update_self]
          show TransportInv _ _ _ _ (Function.update l.ends j _ j)
          rw [Function.update_self]
          exact hinv
        · rw [Function.update_of_ne (fun hnot => hj (Bool.not_inj hnot))]
          show TransportInv _ _ _ _ (Function.update l.ends i _ j)
          rw [hother _ hj]
          exact h.ends j

theorem newTransport_inv (port : Bool → MmbiPort π) (i : Bool) {p : Platform} {r : Resources}
    (hr : r.Ok) {now : Nat} {pipe : π} {eid : UInt8} {ctx : MctpMmbiContext π}
    (hinit : (mctpTransportInit (pipeEnv port i) p r now pipe eid).2 = some ctx) (cb : Nat) :
    TransportInv eid cb [] [] (mctpTransportSetRxCallback ctx (some cb)) := by
  obtain ⟨o, hhandle, hbinding, rfl⟩ := mctpTransportInit_some hr hinit
  have hmctp := contextMctp_eq (port i) (fun _ => true) (fun _ => true) now pipe eid
    (by rw [hbinding]; decide)
  dsimp only [mctpTransportSetRxCallback, mctpMmbiSetRxCallback, newContext]
  rw [hmctp]
  obtain ⟨r', binding, mmbi⟩ := o
  obtain rfl : binding = _ := hbinding
  exact {
    linked := ⟨rfl, rfl, rfl, rfl, rfl, rfl⟩
    handle := hhandle
    idle := rfl
    enabled := rfl
    seq := rfl
    ready := ⟨rfl, rfl, rfl, rfl⟩
    sim := FreshEndpoint.sim
      (⟨⟨rfl, rfl, rfl, rfl⟩, fun _ => rfl, rfl⟩ : FreshEndpoint 0 eid mctpMaxMessageSize.toNat _)
    messageRx := rfl
    rxCb := rfl
    calls := rfl }

end Link

/-- What the callback of end `i` is to hear of these calls. -/
def heard (eid : Bool → UInt8) (cb : Bool → Nat) (ops : List TransportOp) (i : Bool) :
    List (Nat × UInt8 × List UInt8) :=
  ((ops.filterMap (TransportOp.sent !i)).filter fun m => mctpRxDestIsLocal { eid := eid i } m.1).map
    fun m => (cb i, eid !i, m.2)

/-- Two transports that were just set up, with their callbacks, on an empty pipe. -/
structure FreshTransports (port : Bool → MmbiPort π) (sent : π → Bool → List (List UInt8))
    (eid : Bool → UInt8) (cb : Bool → Nat) (l : TransportLink π) : Prop where
  empty : ∀ i, sent l.pipe i = []
  source : ∀ i, eid i ≠ mctpEidBroadcast
  init : ∀ i, ∃ p r now ctx, r.Ok ∧
    (mctpTransportInit (pipeEnv port i) p r now l.pipe (eid i)).2 = some ctx ∧
    l.ends i = mctpTransportSetRxCallback ctx (some (cb i))

/-- The link is where these calls lead. -/
def Reached (sent : π → Bool → List (List UInt8)) (eid : Bool → UInt8) (cb : Bool → Nat)
    (ops : List TransportOp) (l : TransportLink π) : Prop :=
  ∃ gone held, TransportLinkInv sent eid cb (fun i => ops.filterMap (TransportOp.sent i))
    l gone held

section Run

variable {port : Bool → MmbiPort π} {sent : π → Bool → List (List UInt8)} {eid : Bool → UInt8}
  {cb : Bool → Nat}
  {ops : List TransportOp} {l : TransportLink π}

theorem FreshTransports.reached (h : FreshTransports port sent eid cb l) :
    Reached sent eid cb [] l := by
  refine ⟨fun _ => [], fun _ => [], fun _ => rfl, h.empty, fun i => ?_, fun i m hm =>
    (List.not_mem_nil hm).elim⟩
  obtain ⟨p, r, now, ctx, hr, hinit, hend⟩ := h.init i
  rw [hend]
  exact newTransport_inv port i hr hinit (cb i)

theorem Reached.step (h : Reached sent eid cb ops l) (hpipe : IsPipe port sent)
    (heid : ∀ i, eid i ≠ mctpEidBroadcast) {op : TransportOp} (hop : op.Fits) :
    Reached sent eid cb (ops ++ [op]) (transportStep port l op) := by
  obtain ⟨gone, held, h⟩ := h
  cases op with
  | send j dstEid data =>
      obtain ⟨held', h'⟩ := h.send hpipe j hop
      refine ⟨gone, held', ?_⟩
      convert h' using 1
      funext k
      by_cases hk : k = j
      · subst hk
        rw [Function.update_self, List.filterMap_append]
        simp [TransportOp.sent]
      · rw [Function.update_of_ne hk, List.filterMap_append]
        simp [TransportOp.sent, Ne.symm hk]
  | poll j =>
      obtain ⟨⟨gone', held', h'⟩, -⟩ := h.poll hpipe heid j
      refine ⟨gone', held', ?_⟩
      convert h' using 1
      funext k
      rw [List.filterMap_append]
      simp [TransportOp.sent]

theorem Reached.run (h : Reached sent eid cb ops l) (hpipe : IsPipe port sent)
    (heid : ∀ i, eid i ≠ mctpEidBroadcast) (ops' : List TransportOp) (hops : ∀ op ∈ ops', op.Fits) :
    Reached sent eid cb (ops ++ ops') (ops'.foldl (transportStep port) l) := by
  induction ops' generalizing ops l with
  | nil =>
      rw [List.append_nil]
      exact h
  | cons op ops' ih =>
      have hnext := ih (h.step hpipe heid (hops op List.mem_cons_self)) fun op' hop' =>
        hops op' (List.mem_cons_of_mem _ hop')
      rw [List.append_assoc] at hnext
      exact hnext

/-- The callback heard a beginning of what it is to hear, and all of it when nothing is left in the
pipe. -/
theorem Reached.calls (h : Reached sent eid cb ops l) (heid : ∀ i, eid i ≠ mctpEidBroadcast)
    (i : Bool) :
    (l.ends i).calls <+: heard eid cb ops i ∧
      ((sent l.pipe !i) = [] → (l.ends i).calls = heard eid cb ops i) := by
  obtain ⟨gone, held, h⟩ := h
  have hend := h.ends i
  have hcalls : (l.ends i).calls = (received (eid i) (gone !i)).out.map fun o =>
      (cb i, o.1.src, o.2) := by
    rw [hend.calls, ← hend.sim.handed, List.map_map]
    rfl
  have hheard : heard eid cb ops i
    = (((transportMsgs (eid !i) (ops.filterMap (TransportOp.sent !i))).filter fun msg =>
      mctpRxDestIsLocal { eid := eid i } msg.dest).map Message.labelled).map fun o =>
        (cb i, o.1.src, o.2) := by
    rw [heard, transportMsgs, List.filter_map, List.map_map, List.map_map]
    rfl
  obtain ⟨hpre, hall⟩ := (transportMsgs_streams (heid !i) (h.fits !i)).out
    (h.packets (!i) ▸ List.prefix_append _ _)
  rw [hcalls, hheard, received]
  refine ⟨hpre.map _, fun hdone => ?_⟩
  have hnone : (held !i) = [] := by
    have hpipe' := h.pipe !i
    rw [hdone] at hpipe'
    exact List.map_eq_nil_iff.mp hpipe'.symm
  have hgone := h.packets !i
  rw [hnone, List.append_nil] at hgone
  rw [hall hgone]

end Run

/-- **Messages get across.** However two transports on a pipe send each other messages and poll,
each callback is given messages that the other end sent to it, in order and once, and it was given
all of them when nothing is left in the pipe. -/
theorem transportRun_delivers (port : Bool → MmbiPort π) (sent : π → Bool → List (List UInt8))
    (eid : Bool → UInt8) (cb : Bool → Nat) (l : TransportLink π) (ops : List TransportOp)
    (hpipe : IsPipe port sent) (hfresh : FreshTransports port sent eid cb l)
    (hops : ∀ op ∈ ops, op.Fits) :
    let after := ops.foldl (transportStep port) l
    ∀ i, (after.ends i).calls <+: heard eid cb ops i ∧
      ((sent after.pipe !i) = [] → (after.ends i).calls = heard eid cb ops i) := by
  intro after i
  have hreached := hfresh.reached.run hpipe hfresh.source ops hops
  rw [List.nil_append] at hreached
  exact hreached.calls hfresh.source i

/-- The two handles of a pipe in message mode. `p i` is what end `i` wrote and the other has not
read. -/
def pipePort (i : Bool) : MmbiPort (Bool → List (List UInt8)) where
  writeFile := fun p buf => (Function.update p i (p i ++ [buf]), some buf.length)
  readFile := fun p n =>
    match p !i with
    | [] => (p, .error errorBrokenPipe)
    | msg :: rest =>
        if msg.length ≤ n then (Function.update p (!i) rest, .ok msg) else (p, .error 0)
  peekNamedPipe := fun p => some (p !i).flatten.length

theorem pipePort_isPipe : IsPipe pipePort id where
  writeFile := fun _ _ _ _ => ⟨rfl, rfl⟩
  peekNamedPipe := fun _ _ => rfl
  readFile := by
    intro p i msg rest n hp hlen
    dsimp only [id] at hp
    refine ⟨Function.update p (!i) rest, ?_, rfl⟩
    dsimp only [pipePort]
    rw [hp]
    exact if_pos hlen

def generous : Platform := ⟨fun _ => true, fun _ => true⟩

def pipeTransport (i : Bool) : MctpMmbiContext (Bool → List (List UInt8)) :=
  newContext (pipeEnv pipePort i) {}
    (Opening.initDevice generous ⟨Resources.threeBlocks {}, mctpMmbiInit, {}⟩).1 0 (fun _ => [])
    (if i then 9 else 8)

theorem pipeTransport_fresh :
    FreshTransports pipePort id (fun i => if i then 9 else 8) (fun i => if i then 1 else 0)
    ⟨fun _ => [], fun i =>
      mctpTransportSetRxCallback (pipeTransport i) (some (if i then 1 else 0))⟩ where
  empty := fun _ => rfl
  source := by decide
  init := fun i =>
    ⟨generous, {}, 0, pipeTransport i, ⟨List.nodup_nil, by simp⟩, by cases i <;> rfl, rfl⟩

/-- 8 sends a message to 9 and one to 10, and 9 answers. -/
theorem transportRun_delivers_answer :
    let after :=
      ([.send false 9 [1, 2, 3], .send false 10 [4], .poll true, .send true 8 [5],
        .poll false, .poll true] :
      List TransportOp).foldl (transportStep pipePort)
        ⟨fun _ => [], fun i =>
          mctpTransportSetRxCallback (pipeTransport i) (some (if i then 1 else 0))⟩
    (after.ends true).calls <+: [(1, 8, [1, 2, 3])] ∧
    (after.pipe false = [] → (after.ends true).calls = [(1, 8, [1, 2, 3])]) :=
  transportRun_delivers pipePort id _ _ _ _ pipePort_isPipe pipeTransport_fresh (by decide) true

/-! ### Polling until nothing is left -/

def TransportOp.IsPoll : TransportOp → Prop
  | .send _ _ _ => False
  | .poll _ => True

def TransportOp.Pending (sent : π → Bool → List (List UInt8)) (l : TransportLink π) :
    TransportOp → Prop
  | .send _ _ _ => False
  | .poll i => (sent l.pipe !i) ≠ []

def pipeLoad (sent : π → Bool → List (List UInt8)) (l : TransportLink π) : Nat :=
  (sent l.pipe true).length + (sent l.pipe false).length

section Polls

variable {port : Bool → MmbiPort π} {sent : π → Bool → List (List UInt8)} {eid : Bool → UInt8}
  {cb : Bool → Nat}
  {ops : List TransportOp} {l : TransportLink π}

theorem Reached.poll_sent (h : Reached sent eid cb ops l) (hpipe : IsPipe port sent)
    (heid : ∀ i, eid i ≠ mctpEidBroadcast) (i : Bool) :
    sent (transportStep port l (.poll i)).pipe
      = Function.update (sent l.pipe) (!i) (sent l.pipe !i).tail := by
  obtain ⟨gone, held, h⟩ := h
  exact (h.poll hpipe heid i).2

theorem transport_drains (hpipe : IsPipe port sent) (heid : ∀ i, eid i ≠ mctpEidBroadcast)
    (cb : Bool → Nat) :
    Drain.Drains (transportStep port) TransportOp.IsPoll (fun l => ∃ ops, Reached sent eid cb ops l)
      (TransportOp.Pending sent) (pipeLoad sent) where
  keeps := by
    intro l op hop h
    obtain ⟨ops, h⟩ := h
    cases op with
    | send i dstEid data => exact hop.elim
    | poll i => exact ⟨_, h.step hpipe heid trivial⟩
  lowers := by
    intro l op hop h hpending
    obtain ⟨ops, h⟩ := h
    cases op with
    | send i dstEid data => exact hop.elim
    | poll i =>
        have hpos := List.length_pos_of_ne_nil (show (sent l.pipe !i) ≠ [] from hpending)
        rw [pipeLoad, pipeLoad, h.poll_sent hpipe heid]
        cases i <;> simp at hpos ⊢ <;> omega
  rests := by
    intro l op hop h hidle
    obtain ⟨ops, h⟩ := h
    cases op with
    | send i dstEid data => exact hop.elim
    | poll i =>
        have hempty : (sent l.pipe !i) = [] := not_not.mp hidle
        have hsame : sent (transportStep port l (.poll i)).pipe = sent l.pipe := by
          rw [h.poll_sent hpipe heid, hempty, List.tail_nil, ← hempty, Function.update_eq_self]
        refine ⟨by rw [pipeLoad, pipeLoad, hsame], fun op' => ?_⟩
        unfold TransportOp.Pending
        rw [hsame]

end Polls

/-- **All messages arrive.** Once both ends poll as often as there are packets in the pipe, in any
order, nothing is left in it and each callback has heard all that the other end sent to it. -/
theorem transportRun_drains (port : Bool → MmbiPort π) (sent : π → Bool → List (List UInt8))
    (eid : Bool → UInt8) (cb : Bool → Nat) (l : TransportLink π) (ops : List TransportOp)
    (rounds : List (List TransportOp)) (hpipe : IsPipe port sent)
    (hfresh : FreshTransports port sent eid cb l) (hops : ∀ op ∈ ops, op.Fits)
    (hrounds : ∀ round ∈ rounds, (∀ op ∈ round, ∃ i, op = .poll i) ∧
      ∀ i, TransportOp.poll i ∈ round)
    (henough : pipeLoad sent (ops.foldl (transportStep port) l) ≤ rounds.length) :
    let after := rounds.flatten.foldl (transportStep port) (ops.foldl (transportStep port) l)
    ∀ i, sent after.pipe i = [] ∧ (after.ends i).calls = heard eid cb ops i := by
  intro after
  have hround : ∀ round ∈ rounds, Drain.Round TransportOp.IsPoll round := by
    intro round hmem
    obtain ⟨honly, hall⟩ := hrounds round hmem
    constructor
    · intro op hop
      obtain ⟨i, rfl⟩ := honly op hop
      trivial
    · intro op hop
      cases op with
      | send i dstEid data => exact hop.elim
      | poll i => exact hall i
  have hpolls : ∀ op ∈ rounds.flatten, ∃ i, op = .poll i := by
    intro op hop
    obtain ⟨round, hmem, hop⟩ := List.mem_flatten.mp hop
    exact (hrounds round hmem).1 op hop
  have hmid := hfresh.reached.run hpipe hfresh.source ops hops
  rw [List.nil_append] at hmid
  have hidle := (transport_drains hpipe hfresh.source cb).rounds rounds hround _ ⟨ops, hmid⟩ henough
  have hempty : ∀ i, sent after.pipe i = [] := by
    intro i
    have hpending : ¬ (sent after.pipe !!i) ≠ [] := hidle (.poll !i) trivial
    rw [Bool.not_not] at hpending
    exact not_not.mp hpending
  have hlast := hmid.run hpipe hfresh.source rounds.flatten (by
    intro op hop
    obtain ⟨i, rfl⟩ := hpolls op hop
    trivial)
  have hsame : ∀ i, (rounds.flatten.filterMap (TransportOp.sent i)) = [] := by
    intro i
    rw [List.filterMap_eq_nil_iff]
    intro op hop
    obtain ⟨j, rfl⟩ := hpolls op hop
    rfl
  intro i
  refine ⟨hempty i, ?_⟩
  rw [(hlast.calls hfresh.source i).2 (hempty !i), heard, heard, List.filterMap_append,
    hsame, List.append_nil]

/-- Both ends have sent, and then poll in turn. -/
theorem transportRun_drains_both :
    let after :=
      ([[.poll true, .poll false], [.poll false, .poll true]] : List
        (List TransportOp)).flatten.foldl (transportStep pipePort)
      (([.send false 9 [1, 2, 3], .send true 8 [5]] : List TransportOp).foldl
        (transportStep pipePort) ⟨fun _ => [], fun i =>
          mctpTransportSetRxCallback (pipeTransport i) (some (if i then 1 else 0))⟩)
    (after.ends true).calls = [(1, 8, [1, 2, 3])] ∧ (after.ends false).calls = [(0, 9, [5])] := by
  have hall := transportRun_drains pipePort id _ _ _ [.send false 9 [1, 2, 3], .send true 8 [5]]
    [[.poll true, .poll false], [.poll false, .poll true]] pipePort_isPipe pipeTransport_fresh
    (by decide) (by simp) (by decide)
  exact ⟨(hall true).2, (hall false).2⟩

end LibMctp
