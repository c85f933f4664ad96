import LibMctp.Model.State

/-!
# Transmitting

`core.c` from `mctp_packet_tx` to `mctp_message_tx`: one message at a time is cut into packets, and
each packet is rebuilt from the position in the message on every attempt to send it.

The functions below `mctp_send_tx_queue` reach the instance only through the bus they are given, so
they act on `BusIo`: that bus, its device, its log and the history. Positions never pass the length
of the message, which is why their differences are plain subtractions here.
-/

namespace LibMctp

variable {δ : Type}

/-- One bus with what transmitting on it touches. -/
structure BusIo (δ : Type) where
  bus : MctpBus
  dev : δ
  log : BusLog
  hist : History

def Mctp.busIo (w : Mctp δ) (i : Fin 2) : BusIo δ := ⟨w.busses i, w.dev, w.busLog i, w.hist⟩

def Mctp.putBusIo (w : Mctp δ) (i : Fin 2) (s : BusIo δ) : Mctp δ :=
  { w with
    busses := Function.update w.busses i s.bus
    busLog := Function.update w.busLog i s.log
    dev := s.dev
    hist := s.hist }

/-- What `mctp_binding_set_tx_enabled(binding, false)` does to the bus. -/
def MctpBus.txDisable (bus : MctpBus) : MctpBus :=
  match bus.state with
  | .constructed => bus
  | .txEnabled => { bus with state := .txDisabled }
  | .txDisabled => bus

section Bus

/-! The binding of the bus, its number, and whether a capture handler is set. -/

variable (env : Env δ) (b : Nat) (binding : MctpBinding) (capture : Bool)

def mctpPacketTx (s : BusIo δ) (pkt : MctpPktbuf) : BusIo δ × Int :=
  if s.bus.state ≠ .txEnabled then (s, -1)
  else
    let hist := (s.hist.deref binding.mctp).capture capture pkt true
    let (dev, r) := env.tx b s.dev pkt
    let bus := if r.disables then s.bus.txDisable else s.bus
    (⟨bus, dev, { s.log with txed := s.log.txed ++ [(pkt, r)] }, hist⟩, r.rc)

/-- The `flags_seq_tag` byte of the packet at position `p` carrying `payloadLen` bytes. -/
def txFlagsSeqTag (bus : MctpBus) (p payloadLen : Nat) : UInt8 :=
  let flags := (if bus.txTo then 1 else 0) <<< mctpHdrToShift ||| bus.txTag <<< mctpHdrTagShift
  let flags := if p = 0 then flags ||| mctpHdrFlagSom else flags
  let flags := if p + payloadLen ≥ bus.txMsglen then flags ||| mctpHdrFlagEom else flags
  flags ||| bus.txSeq <<< mctpHdrSeqShift

/-- `mctp_next_tx_pkt`: the packet in `tx_storage`, and the bus with `tx_pktlen` set. The header
room before the packet keeps whatever the storage held and is written as zeros here. -/
def mctpNextTxPkt (bus : MctpBus) : Option (MctpPktbuf × MctpBus) :=
  match bus.txMsg with
  | none => none
  | some msg =>
    let p := bus.txMsgpos
    let payloadLen := bus.txMsglen - p
    let maxPayloadLen := mctpBodySize binding.pktSize
    let payloadLen := if payloadLen > maxPayloadLen then maxPayloadLen else payloadLen
    let hdr : List UInt8 :=
      [binding.version &&& 0xf, bus.txDest, bus.txSrc, txFlagsSeqTag bus p payloadLen]
    let payload := (msg.bytes.drop p).take payloadLen
    let pkt := mctpPktbufInit binding (List.replicate binding.pktHeader 0 ++ hdr ++ payload)
    some ({ pkt with end_ := pkt.start + mctpHdrSize + payloadLen },
      { bus with txPktlen := payloadLen })

def mctpTxComplete (s : BusIo δ) : BusIo δ :=
  match s.bus.txMsg with
  | none => s
  | some msg =>
    let bus := { s.bus with
      txSeq := (s.bus.txSeq + 1) &&& mctpHdrSeqMask
      txMsgpos := s.bus.txMsgpos + s.bus.txPktlen }
    if bus.txMsgpos ≥ bus.txMsglen then
      { s with bus := { bus with txMsg := none }, hist := s.hist.mctpMsgFree msg binding.mctp }
    else { s with bus := bus }

/-- The loop of `mctp_send_tx_queue`, run for a number of rounds. -/
def mctpSendTxQueueLoop : Nat → BusIo δ → BusIo δ
  | 0, s =>
    if s.bus.txMsg.isSome ∧ s.bus.state = .txEnabled then { s with hist := s.hist.fault .hang }
    else s
  | rounds + 1, s =>
    if s.bus.state ≠ .txEnabled then s
    else match mctpNextTxPkt binding s.bus with
      | none => s
      | some (pkt, bus) =>
        let (s, rc) := mctpPacketTx env b binding capture { s with bus := bus } pkt
        if rc = 0 then mctpSendTxQueueLoop rounds (mctpTxComplete binding s)
        else if rc = -ebusy then s
        else mctpTxComplete binding s

end Bus

/-- `mctp_send_tx_queue`. Each round that goes on sends at least one byte, so one round for each
byte left and one more are enough. -/
def mctpSendTxQueue (env : Env δ) (w : Mctp δ) (i : Fin 2) : Mctp δ :=
  let bus := w.busses i
  w.putBusIo i (mctpSendTxQueueLoop env (bus.binding.getD 0) (w.busBinding i) w.capture
    (bus.txMsglen - bus.txMsgpos + 1) (w.busIo i))

def mctpBindingSetTxEnabled (env : Env δ) (w : Mctp δ) (b : Nat) (enable : Bool) : Mctp δ :=
  match (w.bindings b).bus with
  | none => w.withHist (w.hist.fault .nullBus)
  | some i =>
    let bus := w.busses i
    match bus.state with
    | .constructed =>
      if !enable then w
      else if (w.bindings b).pktSize < mctpPacketSize mctpBtu then w
      else w.setBus i { bus with state := .txEnabled }
    | .txEnabled =>
      if enable then w else w.setBus i { bus with state := .txDisabled }
    | .txDisabled =>
      if !enable then w
      else mctpSendTxQueue env (w.setBus i { bus with state := .txEnabled }) i

/-- The `err` exit of `mctp_message_tx_on_bus`. -/
def mctpMessageTxErr (w : Mctp δ) (i : Fin 2) (msg : MsgBuf) (rc : Int) : Mctp δ × Int :=
  (mctpMsgFree w msg (w.busBinding i).mctp, rc)

/-- The bus once it has taken a message to send. `tx_seq` goes on from the previous message. -/
def MctpBus.take (bus : MctpBus) (src dest : UInt8) (tagOwner : Bool) (msgTag : UInt8)
    (msg : MsgBuf) (msgLen : Nat) : MctpBus :=
  { bus with
    txMsg := some msg
    txMsglen := msgLen
    txMsgpos := 0
    txSrc := src
    txDest := dest
    txTo := tagOwner
    txTag := msgTag }

def BusLog.accept (log : BusLog) (msg : Message) : BusLog :=
  { log with accepted := log.accepted ++ [msg] }

/-- The instance once a bus has taken a message to send. -/
def Mctp.take (w : Mctp δ) (i : Fin 2) (src dest : UInt8) (tagOwner : Bool) (msgTag : UInt8)
    (msg : MsgBuf) (msgLen : Nat) : Mctp δ :=
  { w with
    busses := Function.update w.busses i ((w.busses i).take src dest tagOwner msgTag msg msgLen)
    busLog := Function.update w.busLog i
      ((w.busLog i).accept ⟨src, dest, tagOwner, msgTag, msg.bytes.take msgLen⟩) }

def mctpMessageTxOnBus (env : Env δ) (w : Mctp δ) (i : Fin 2) (src dest : UInt8) (tagOwner : Bool)
    (msgTag : UInt8) (msg : MsgBuf) (msgLen : Nat) : Mctp δ × Int :=
  let bus := w.busses i
  if bus.state = .constructed then mctpMessageTxErr w i msg (-enxio)
  else if msgTag &&& mctpHdrTagMask ≠ msgTag then mctpMessageTxErr w i msg (-einval)
  else
    let validMtu := decide (mctpBodySize (w.busBinding i).pktSize ≥ mctpBtu)
    let w := w.withHist (w.hist.assert validMtu .assertValidMtu)
    if !validMtu then mctpMessageTxErr w i msg (-einval)
    else if bus.txMsg.isSome then mctpMessageTxErr w i msg (-ebusy)
    else (mctpSendTxQueue env (w.take i src dest tagOwner msgTag msg msgLen) i, 0)

def findBusForEid (w : Mctp δ) (_dest : UInt8) : Option (Fin 2) :=
  if w.nBusses = 0 then none else some 0

def mctpMessageTxAlloced (env : Env δ) (w : Mctp δ) (eid : UInt8) (tagOwner : Bool) (msgTag : UInt8)
    (msg : MsgBuf) (msgLen : Nat) : Mctp δ × Int :=
  if msgTag &&& mctpHdrTagMask ≠ msgTag then (mctpMsgFree w msg (some ()), -einval)
  else match findBusForEid w eid with
    | none => (mctpMsgFree w msg (some ()), 0)
    | some i => mctpMessageTxOnBus env w i (w.busses i).eid eid tagOwner msgTag msg msgLen

def mctpMessageTx (env : Env δ) (w : Mctp δ) (eid : UInt8) (tagOwner : Bool) (msgTag : UInt8)
    (msg : List UInt8) : Mctp δ × Int :=
  match mctpMsgDup env w msg (some ()) with
  | (w, none) => (w, -enomem)
  | (w, some copy) => mctpMessageTxAlloced env w eid tagOwner msgTag copy msg.length

def mctpIsTxReady (w : Mctp δ) (eid : UInt8) : Bool :=
  match findBusForEid w eid with
  | none => true
  | some i => (w.busses i).txMsg.isNone

end LibMctp
