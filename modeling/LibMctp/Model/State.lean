import LibMctp.Model.Packet
import Mathlib.Algebra.Order.Ring.Nat
import Mathlib.Logic.Function.Basic

/-!
# The state of one MCTP instance

`struct mctp` of `core-internal.h` with everything it reaches, and what the code outside the library
contributes: the outcome of every allocation, the clock reading, and the bindings' callbacks, which
act on a device state of their own.

The instance also carries histories that the source does not keep: the messages handed up, the
packets given to a binding and what it answered, the calls into the heap, and the faults (a failed
assertion, a NULL `struct mctp` being read). They only grow and no function reads them.
-/

namespace LibMctp

/-! ### Constants of `core-internal.h` -/

/-- The value the build sets; the header's own default is 65536. -/
def mctpMaxMessageSize : UInt64 := 33554432
/-- Milliseconds. -/
def mctpTagTimeout : Nat := 6000
def mctpControlMaxTypes : Nat := 10

/-- A buffer of `__mctp_msg_alloc`: which allocation made it, the size asked for, and the bytes
written so far. -/
structure MsgBuf where
  addr : Nat
  size : Nat
  bytes : List UInt8
  deriving DecidableEq, Repr

inductive MctpBusState where
  | constructed
  | txEnabled
  | txDisabled
  deriving DecidableEq, Repr

structure MctpBus where
  eid : UInt8 := 0
  binding : Option Nat := none
  state : MctpBusState := .constructed
  mctp : Option Unit := none
  txMsg : Option MsgBuf := none
  txMsgpos : Nat := 0
  txMsglen : Nat := 0
  txPktlen : Nat := 0
  txSeq : UInt8 := 0
  txSrc : UInt8 := 0
  txDest : UInt8 := 0
  txTo : Bool := false
  txTag : UInt8 := 0
  deriving DecidableEq, Repr

structure MctpMsgCtx where
  buf : Option MsgBuf := none
  src : UInt8 := 0
  dest : UInt8 := 0
  tag : UInt8 := 0
  lastSeq : UInt8 := 0
  bufSize : Nat := 0
  bufAllocSize : Nat := 0
  fragmentSize : Nat := 0
  deriving DecidableEq, Repr

structure MctpReqTag where
  localEid : UInt8 := 0
  remote : UInt8 := 0
  tag : UInt8 := 0
  expiry : Nat := 0
  deriving DecidableEq, Repr

/-- `struct mctp_control`. -/
structure MctpControl where
  msgTypes : List UInt8 := List.replicate mctpControlMaxTypes 0
  numMsgTypes : Nat := 0
  deriving DecidableEq, Repr

inductive RoutePolicy where
  | endpoint
  | bridge
  deriving DecidableEq, Repr

/-! ### Histories -/

/-- A complete message with its addressing, as `mctp_rx` and `mctp_message_tx_on_bus` take it. -/
structure Message where
  src : UInt8
  dest : UInt8
  tagOwner : Bool
  tag : UInt8
  bytes : List UInt8
  deriving DecidableEq, Repr

/-- A call of a handler, with the arguments in the order of `mctp_rx_fn`. -/
inductive Upcall where
  | messageRx (src : UInt8) (tagOwner : Bool) (tag : UInt8) (bytes : List UInt8)
  | controlRx (src : UInt8) (tagOwner : Bool) (tag : UInt8) (bytes : List UInt8)
  deriving DecidableEq, Repr

inductive HeapOp where
  | msgAlloc (addr : Nat)
  | msgFree (addr : Nat)
  | pktAlloc (addr : Nat)
  | pktFree (addr : Nat)
  deriving DecidableEq, Repr

/-- What the source must never do. `hang` is a transmit loop still running after one round for each
byte left and one more. -/
inductive Fault where
  | nullMctp
  | nullBus
  | assertBusses
  | assertTxStorage
  | assertValidMtu
  | assertLocal
  | hang
  deriving DecidableEq, Repr

structure History where
  handed : List Message := []
  upcalls : List Upcall := []
  captured : List (MctpPktbuf × Bool) := []
  heap : List HeapOp := []
  faults : List Fault := []

/-- What a call of `binding->tx` answers, and whether it called
`mctp_binding_set_tx_enabled(binding, false)` before it returned. -/
structure TxResult where
  rc : Int
  disables : Bool := false
  deriving DecidableEq, Repr

/-- What one bus did since it was registered: the messages `mctp_message_tx_on_bus` took, and each
packet given to `binding->tx` with its answer. -/
structure BusLog where
  accepted : List Message := []
  txed : List (MctpPktbuf × TxResult) := []

/-! ### The instance and its environment -/

/-- `struct mctp`. The array sizes are `MCTP_MAX_BUSSES`, `MCTP_REASSEMBLY_CTXS` and
`MCTP_REQ_TAGS`. -/
structure Mctp (δ : Type) where
  nBusses : Int
  busses : Fin 2 → MctpBus
  bindings : Nat → MctpBinding
  messageRx : Bool
  capture : Bool
  msgCtxs : Fin 16 → MctpMsgCtx
  reqTags : Fin 16 → MctpReqTag
  tagRoundRobin : UInt8
  routePolicy : RoutePolicy
  maxMessageSize : UInt64
  control : MctpControl
  platformNow : Nat
  nMsgAlloc : Nat
  nPktAlloc : Nat
  dev : δ
  busLog : Fin 2 → BusLog
  hist : History

/-- What a call of `binding->start` answers, and the calls of `mctp_binding_set_tx_enabled` it
made. -/
structure StartResult where
  rc : Int
  enables : List Bool := []

/-- The code outside the library. `msgAlloc n` and `pktAlloc n` say whether the `n`-th allocation of
a message or packet buffer succeeds; a binding is named by its number. -/
structure Env (δ : Type) where
  msgAlloc : Nat → Bool
  pktAlloc : Nat → Bool
  tx : Nat → δ → MctpPktbuf → δ × TxResult
  start : Nat → Option (δ → δ × StartResult)

variable {δ : Type}

def History.fault (hist : History) (fault : Fault) : History :=
  { hist with faults := hist.faults ++ [fault] }

/-- Reading a field through a `struct mctp *`. -/
def History.deref (hist : History) (mctp : Option Unit) : History :=
  match mctp with
  | some _ => hist
  | none => hist.fault .nullMctp

def History.assert (hist : History) (holds : Bool) (fault : Fault) : History :=
  if holds then hist else hist.fault fault

/-- `mctp->capture(pkt, outgoing, mctp->capture_data)`, if a handler is set. -/
def History.capture (hist : History) (set : Bool) (pkt : MctpPktbuf) (outgoing : Bool) : History :=
  if set then { hist with captured := hist.captured ++ [(pkt, outgoing)] } else hist

/-- `__mctp_msg_free(ptr, mctp)`. -/
def History.mctpMsgFree (hist : History) (ptr : MsgBuf) (mctp : Option Unit) : History :=
  let hist := hist.deref mctp
  { hist with heap := hist.heap ++ [.msgFree ptr.addr] }

def Mctp.withHist (w : Mctp δ) (hist : History) : Mctp δ := { w with hist := hist }

/-- Calling into the code above the stack. -/
def Mctp.upcall (w : Mctp δ) (call : Upcall) : Mctp δ :=
  w.withHist { w.hist with upcalls := w.hist.upcalls ++ [call] }

def Mctp.setBus (w : Mctp δ) (i : Fin 2) (bus : MctpBus) : Mctp δ :=
  { w with busses := Function.update w.busses i bus }

def Mctp.setBinding (w : Mctp δ) (b : Nat) (binding : MctpBinding) : Mctp δ :=
  { w with bindings := Function.update w.bindings b binding }

def Mctp.setCtx (w : Mctp δ) (j : Fin 16) (ctx : MctpMsgCtx) : Mctp δ :=
  { w with msgCtxs := Function.update w.msgCtxs j ctx }

/-- `busses[i].binding`, followed. -/
def Mctp.busBinding (w : Mctp δ) (i : Fin 2) : MctpBinding :=
  match (w.busses i).binding with
  | some b => w.bindings b
  | none => default

/-- `__mctp_msg_alloc(size, mctp)`. -/
def mctpMsgAlloc (env : Env δ) (w : Mctp δ) (size : Nat) (mctp : Option Unit) :
    Mctp δ × Option MsgBuf :=
  let hist := w.hist.deref mctp
  let addr := w.nMsgAlloc
  if env.msgAlloc addr then
    ({ w with nMsgAlloc := addr + 1, hist := { hist with heap := hist.heap ++ [.msgAlloc addr] } },
      some ⟨addr, size, []⟩)
  else ({ w with nMsgAlloc := addr + 1, hist := hist }, none)

/-- `__mctp_msg_free(ptr, mctp)`. -/
def mctpMsgFree (w : Mctp δ) (ptr : MsgBuf) (mctp : Option Unit) : Mctp δ :=
  w.withHist (w.hist.mctpMsgFree ptr mctp)

def mctpMsgDup (env : Env δ) (w : Mctp δ) (msg : List UInt8) (mctp : Option Unit) :
    Mctp δ × Option MsgBuf :=
  match mctpMsgAlloc env w msg.length mctp with
  | (w, none) => (w, none)
  | (w, some copy) => (w, some { copy with bytes := msg })

end LibMctp
