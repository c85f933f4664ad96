import LibMctp.Model.Control
import LibMctp.Model.Tags

/-!
# Receiving

`core.c` from the reassembly contexts to `mctp_bus_rx`: packets are collected per source,
destination and tag, and a complete message is routed by `mctp_rx` to the local handlers or to the
other bus.
-/

namespace LibMctp

variable {δ : Type}

/-! ### Reassembly contexts -/

/-- The entry test of `mctp_msg_ctx_lookup`. -/
def MctpMsgCtx.carries (src dest tag : UInt8) (ctx : MctpMsgCtx) : Bool :=
  ctx.buf.isSome && ctx.src == src && ctx.dest == dest && ctx.tag == tag

def mctpMsgCtxLookup (w : Mctp δ) (src dest tag : UInt8) : Option (Fin 16) :=
  Table.first (MctpMsgCtx.carries src dest tag) w.msgCtxs

/-- `mctp_msg_ctx_create`. The slot keeps its new key even where the allocation fails. -/
def mctpMsgCtxCreate (env : Env δ) (w : Mctp δ) (src dest tag : UInt8) : Mctp δ × Option (Fin 16) :=
  match Table.first (fun ctx : MctpMsgCtx => ctx.buf.isNone) w.msgCtxs with
  | none => (w, none)
  | some j =>
    let ctx := { w.msgCtxs j with
      src := src
      dest := dest
      tag := tag
      bufSize := 0
      bufAllocSize := w.maxMessageSize.toNat }
    match mctpMsgAlloc env w ctx.bufAllocSize (some ()) with
    | (w, none) => (w.setCtx j ctx, none)
    | (w, some buf) => (w.setCtx j { ctx with buf := some buf }, some j)

def mctpMsgCtxDrop (w : Mctp δ) (i : Fin 2) (j : Fin 16) : Mctp δ :=
  let ctx := w.msgCtxs j
  let hist := match ctx.buf with
    | some buf => w.hist.mctpMsgFree buf (w.busses i).mctp
    | none => w.hist.deref (w.busses i).mctp
  (w.setCtx j { ctx with buf := none }).withHist hist

def mctpMsgCtxReset (ctx : MctpMsgCtx) : MctpMsgCtx := { ctx with bufSize := 0, fragmentSize := 0 }

/-- `mctp_msg_ctx_add_pkt`, `none` where it returns an error. -/
def mctpMsgCtxAddPkt (ctx : MctpMsgCtx) (pkt : MctpPktbuf) : Option MctpMsgCtx :=
  let len := subSize (mctpPktbufSize pkt) mctpHdrSize
  if addSize len ctx.bufSize < ctx.bufSize then none
  else if addSize ctx.bufSize len > ctx.bufAllocSize then none
  else some { ctx with
    buf := ctx.buf.map fun buf =>
      { buf with bytes := writeBytes buf.bytes ctx.bufSize (mctpPktbufData pkt len) }
    bufSize := addSize ctx.bufSize len }

/-! ### Complete messages -/

def mctpCtrlCmdIsTransport (hdr : MctpCtrlMsgHdr) : Bool :=
  decide (hdr.commandCode ≥ mctpCtrlCmdFirstTransport) &&
    decide (hdr.commandCode ≤ mctpCtrlCmdLastTransport)

/-- `mctp_ctrl_handle_msg`. It gives `control_rx` the tag where the handler takes the owner bit, and
the owner bit where it takes the tag. -/
def mctpCtrlHandleMsg (env : Env δ) (w : Mctp δ) (i : Fin 2) (src msgTag : UInt8) (tagOwner : Bool)
    (buffer : List UInt8) : Mctp δ × Bool :=
  if mctpCtrlCmdIsTransport (ctrlMsgHdr buffer) then
    if (w.busBinding i).controlRx then
      (w.upcall (.controlRx src (msgTag != 0) tagOwner.toUInt8 buffer), true)
    else (w, false)
  else mctpControlHandler env w i src tagOwner msgTag buffer

def mctpRxDestIsLocal (bus : MctpBus) (dest : UInt8) : Bool :=
  dest == bus.eid || dest == mctpEidNull || dest == mctpEidBroadcast

def mctpCtrlCmdIsRequest (hdr : MctpCtrlMsgHdr) : Bool :=
  hdr.icMsgType == mctpCtrlHdrMsgType && hdr.rqDgramInst &&& mctpCtrlHdrFlagRequest != 0

/-- The control part of the endpoint branch of `mctp_rx`. The boolean is whether the message was
handled. -/
def mctpRxControl (env : Env δ) (w : Mctp δ) (i : Fin 2) (msg : Message) : Mctp δ × Bool :=
  if msg.bytes.length ≥ mctpCtrlMsgHdrSize ∧ mctpCtrlCmdIsRequest (ctrlMsgHdr msg.bytes) then
    mctpCtrlHandleMsg env w i msg.src msg.tag msg.tagOwner msg.bytes
  else (w, false)

/-- The endpoint branch of `mctp_rx`. -/
def mctpRxEndpoint (env : Env δ) (w : Mctp δ) (i : Fin 2) (msg : Message) : Mctp δ :=
  let w := if !msg.tagOwner then mctpDeallocTag w i msg.dest msg.src msg.tag else w
  match mctpRxControl env w i msg with
  | (w, true) => w
  | (w, false) =>
      if w.messageRx then w.upcall (.messageRx msg.src msg.tagOwner msg.tag msg.bytes) else w

/-- The bridge branch of `mctp_rx`, over the busses left to visit. A failed copy ends the loop. -/
def mctpRxBridge (env : Env δ) (i : Fin 2) (msg : Message) : List (Fin 2) → Mctp δ → Mctp δ
  | [], w => w
  | k :: ks, w =>
    if ¬ (k.val : Int) < w.nBusses then w
    else if k = i then mctpRxBridge env i msg ks w
    else match mctpMsgDup env w msg.bytes (some ()) with
      | (w, none) => w
      | (w, some copy) =>
        mctpRxBridge env i msg ks
          (mctpMessageTxOnBus env w k msg.src msg.dest msg.tagOwner msg.tag copy msg.bytes.length).1

def Mctp.handUp (w : Mctp δ) (msg : Message) : Mctp δ :=
  w.withHist { w.hist with handed := w.hist.handed ++ [msg] }

/-- `mctp_rx`, for a message received on bus `i`. -/
def mctpRx (env : Env δ) (w : Mctp δ) (i : Fin 2) (msg : Message) : Mctp δ :=
  let w := w.handUp msg
  match w.routePolicy with
  | .endpoint => if mctpRxDestIsLocal (w.busses i) msg.dest then mctpRxEndpoint env w i msg else w
  | .bridge => mctpRxBridge env i msg [0, 1] w

/-! ### Packets -/

def hdrFlags (hdr : MctpHdr) : UInt8 := hdr.flagsSeqTag &&& (mctpHdrFlagSom ||| mctpHdrFlagEom)
def hdrTag (hdr : MctpHdr) : UInt8 := (hdr.flagsSeqTag >>> mctpHdrTagShift) &&& mctpHdrTagMask
def hdrSeq (hdr : MctpHdr) : UInt8 := (hdr.flagsSeqTag >>> mctpHdrSeqShift) &&& mctpHdrSeqMask
def hdrTagOwner (hdr : MctpHdr) : Bool :=
  (hdr.flagsSeqTag >>> mctpHdrToShift) &&& mctpHdrToMask != 0

/-- The `SOM | EOM` case: the message is handed up without a context. -/
def busRxSingle (env : Env δ) (w : Mctp δ) (i : Fin 2) (pkt : MctpPktbuf) : Mctp δ :=
  let hdr := mctpPktbufHdr pkt
  let len := subSize (subSize pkt.end_ pkt.mctpHdrOff) mctpHdrSize
  match mctpMsgDup env w (mctpPktbufData pkt len) (some ()) with
  | (w, none) => w
  | (w, some p) =>
    mctpMsgFree (mctpRx env w i ⟨hdr.src, hdr.dest, hdrTagOwner hdr, hdrTag hdr, p.bytes⟩)
      p (some ())

/-- The end of the `SOM` case, on the context found or made. -/
def busRxStart (w : Mctp δ) (i : Fin 2) (pkt : MctpPktbuf) (j : Fin 16) : Mctp δ :=
  let ctx := { w.msgCtxs j with fragmentSize := mctpPktbufSize pkt }
  match mctpMsgCtxAddPkt ctx pkt with
  | none => mctpMsgCtxDrop (w.setCtx j ctx) i j
  | some ctx => w.setCtx j { ctx with lastSeq := hdrSeq (mctpPktbufHdr pkt) }

/-- The `SOM` case. -/
def busRxSom (env : Env δ) (w : Mctp δ) (i : Fin 2) (pkt : MctpPktbuf) : Mctp δ :=
  let hdr := mctpPktbufHdr pkt
  match mctpMsgCtxLookup w hdr.src hdr.dest (hdrTag hdr) with
  | some j => busRxStart (w.setCtx j (mctpMsgCtxReset (w.msgCtxs j))) i pkt j
  | none =>
    match mctpMsgCtxCreate env w hdr.src hdr.dest (hdrTag hdr) with
    | (w, none) => w
    | (w, some j) => busRxStart w i pkt j

/-- The `EOM` case. -/
def busRxEom (env : Env δ) (w : Mctp δ) (i : Fin 2) (pkt : MctpPktbuf) : Mctp δ :=
  let hdr := mctpPktbufHdr pkt
  match mctpMsgCtxLookup w hdr.src hdr.dest (hdrTag hdr) with
  | none => w
  | some j =>
    let ctx := w.msgCtxs j
    if (ctx.lastSeq + 1) % 4 ≠ hdrSeq hdr then mctpMsgCtxDrop w i j
    else if mctpPktbufSize pkt > ctx.fragmentSize then mctpMsgCtxDrop w i j
    else match mctpMsgCtxAddPkt ctx pkt with
      | none => mctpMsgCtxDrop w i j
      | some ctx =>
        let w := w.setCtx j ctx
        let bytes := match ctx.buf with
          | some buf => readBytes buf.bytes 0 ctx.bufSize
          | none => []
        mctpMsgCtxDrop (mctpRx env w i ⟨ctx.src, ctx.dest, hdrTagOwner hdr, hdrTag hdr, bytes⟩) i j

/-- The case of neither `SOM` nor `EOM`. -/
def busRxMiddle (w : Mctp δ) (i : Fin 2) (pkt : MctpPktbuf) : Mctp δ :=
  let hdr := mctpPktbufHdr pkt
  match mctpMsgCtxLookup w hdr.src hdr.dest (hdrTag hdr) with
  | none => w
  | some j =>
    let ctx := w.msgCtxs j
    if (ctx.lastSeq + 1) % 4 ≠ hdrSeq hdr then mctpMsgCtxDrop w i j
    else if mctpPktbufSize pkt ≠ ctx.fragmentSize then mctpMsgCtxDrop w i j
    else match mctpMsgCtxAddPkt ctx pkt with
      | none => mctpMsgCtxDrop w i j
      | some ctx => w.setCtx j { ctx with lastSeq := hdrSeq hdr }

/-- `mctp_bus_rx` on binding `b`. -/
def mctpBusRx (env : Env δ) (w : Mctp δ) (b : Nat) (pkt : MctpPktbuf) : Mctp δ :=
  match (w.bindings b).bus with
  | none => w.withHist (w.hist.fault .nullBus)
  | some i =>
    if mctpPktbufSize pkt < mctpHdrSize then w
    else
      let w := w.withHist ((w.hist.deref (w.bindings b).mctp).capture w.capture pkt false)
      let hdr := mctpPktbufHdr pkt
      if hdr.src = mctpEidBroadcast then w
      else if w.routePolicy = .endpoint ∧ mctpRxDestIsLocal (w.busses i) hdr.dest = false then w
      else if hdrFlags hdr = mctpHdrFlagSom ||| mctpHdrFlagEom then busRxSingle env w i pkt
      else if hdrFlags hdr = mctpHdrFlagSom then busRxSom env w i pkt
      else if hdrFlags hdr = mctpHdrFlagEom then busRxEom env w i pkt
      else busRxMiddle w i pkt

end LibMctp
