import LibMctp.Model.Driver
import LibMctp.Model.Receive

/-!
# The MMBI binding

`mmbi.c` below its high level interface. A binding sends and receives through a device handle, if it
has one, and else through two memory regions. The calls on a handle are a parameter; `driverPort` is
the one where the handle leads to the driver. The lock around receiving and the sleeps between
attempts do not appear.

The device state of the instance is the rest of `struct mctp_binding_mmbi` beside what is behind the
handle. The instance has no second MMBI binding.
-/

namespace LibMctp

variable {δ : Type}

/-- `struct mctp_binding_mmbi`, less the binding it starts with and the lock. A region is `none`
where its pointer is NULL. -/
structure MctpBindingMmbi where
  rxStorage : Option (List UInt8) := none
  txStorage : Option (List UInt8) := none
  memorySize : Nat := 0
  deviceHandle : Bool := false
  deriving DecidableEq, Repr

/-- The calls on an open handle. `WriteFile` gives the bytes written, `ReadFile` the bytes read or
the last error, `PeekNamedPipe` the bytes available; `none` is a return of FALSE. -/
structure MmbiPort (δ : Type) where
  writeFile : δ → List UInt8 → δ × Option Nat
  readFile : δ → Nat → δ × Except Nat (List UInt8)
  peekNamedPipe : δ → Option Nat

def errorBrokenPipe : Nat := 109

/-! ### Setting a binding up -/

def mctpMmbiInit : MctpBinding where
  version := 1
  bus := none
  mctp := none
  pktSize := mctpPacketSize 65536
  pktHeader := 0
  pktTrailer := 0
  fits := by decide
  txStorage := false
  controlRx := false

/-- `mctp_mmbi_init_mem`. `ok` is whether `__mctp_alloc` returns storage. -/
def mctpMmbiInitMem (binding : MctpBinding) (mmbi : MctpBindingMmbi)
    (txAddr rxAddr : Option (List UInt8)) (size : Nat) (ok : Bool) :
    MctpBinding × MctpBindingMmbi × Int :=
  let mmbi := { mmbi with txStorage := txAddr, rxStorage := rxAddr, memorySize := size }
  ({ binding with txStorage := ok }, mmbi, if ok then 0 else -enomem)

/-- `mctp_mmbi_init_device`. `opens` is whether `CreateFileA` returns a handle. -/
def mctpMmbiInitDevice (binding : MctpBinding) (mmbi : MctpBindingMmbi) (opens ok : Bool) :
    MctpBinding × MctpBindingMmbi × Int :=
  if !opens then (binding, mmbi, -1)
  else
    ({ binding with txStorage := ok }, { mmbi with deviceHandle := true },
      if ok then 0 else -enomem)

/-! ### Sending -/

/-- The bytes of a packet from its header on, as many as `mctp_pktbuf_size` says. -/
def MctpPktbuf.bytes (pkt : MctpPktbuf) : List UInt8 :=
  readBytes pkt.data pkt.mctpHdrOff (mctpPktbufSize pkt)

/-- The retry loop of `mctp_mmbi_tx`: what the last `WriteFile` answered. -/
def mmbiWriteLoop (port : MmbiPort δ) (buf : List UInt8) (len : Nat) :
    Nat → δ × Option Nat → δ × Option Nat
  | 0, last => last
  | retries + 1, (dev, _) =>
    match port.writeFile dev buf with
    | (dev, res) =>
        if res = some len then (dev, res) else mmbiWriteLoop port buf len retries (dev, res)

def mctpMmbiTx (port : MmbiPort δ) (mmbi : MctpBindingMmbi) (dev : δ) (pkt : MctpPktbuf) :
    (MctpBindingMmbi × δ) × Int :=
  let len := mctpPktbufSize pkt
  if mmbi.deviceHandle then
    let (dev, res) := mmbiWriteLoop port (pkt.bytes.take (len % 2 ^ 32)) len 3 (dev, none)
    ((mmbi, dev), if res = some len then 0 else -eio)
  else match mmbi.txStorage with
    | none => ((mmbi, dev), -1)
    | some region =>
      if len > mmbi.memorySize then ((mmbi, dev), -emsgsize)
      else (({ mmbi with txStorage := some (writeBytes region 0 pkt.bytes) }, dev), 0)

/-- The environment of an instance whose binding is this one; `mctp_mmbi_start` enables it. -/
def mmbiEnv (port : MmbiPort δ) (msgAlloc pktAlloc : Nat → Bool) : Env (MctpBindingMmbi × δ) where
  msgAlloc := msgAlloc
  pktAlloc := pktAlloc
  tx := fun _ d pkt => let (d, rc) := mctpMmbiTx port d.1 d.2 pkt; (d, { rc := rc })
  start := fun _ => some fun d => (d, { rc := 0, enables := [true] })

/-! ### Receiving -/

/-- `mctp_pktbuf_alloc` on the heap of the instance. No storage is asked for where the packet is too
long. -/
def Mctp.pktbufAlloc (env : Env δ) (w : Mctp δ) (b len : Nat) : Mctp δ × Option MctpPktbuf :=
  let addr := w.nPktAlloc
  match mctpPktbufAlloc (w.bindings b) (env.pktAlloc addr) len with
  | none =>
    ({ w with nPktAlloc := if len > (w.bindings b).storageSize then addr else addr + 1 }, none)
  | some pkt =>
    ({ w with
        nPktAlloc := addr + 1
        hist := { w.hist with heap := w.hist.heap ++ [.pktAlloc addr] } }, some pkt)

/-- `sizeof(rx_buf)`. -/
def rxBufSize : Nat := 65536 + 10

/-- `max_to_read`, a `DWORD`. -/
def maxToRead (pktSize : Nat) : Nat :=
  let maxToRead := addUlong (pktSize % 2 ^ 32) 4
  if maxToRead > rxBufSize then rxBufSize else maxToRead

/-- What a poll comes to: a return code without a byte read, bytes for which `mctp_pktbuf_alloc`
gave no buffer, or a packet for `mctp_bus_rx`. -/
inductive MmbiPoll where
  | idle (rc : Int)
  | noBuffer (bytes : List UInt8)
  | packet (pkt : MctpPktbuf)
  deriving DecidableEq, Repr

/-- The bytes of a successful `ReadFile` put into a packet buffer. -/
def mmbiFill (env : Env δ) (w : Mctp δ) (b : Nat) (bytes : List UInt8) : Mctp δ × MmbiPoll :=
  if bytes.length > 0 then
    match w.pktbufAlloc env b bytes.length with
    | (w, none) => (w, .noBuffer bytes)
    | (w, some pkt) => (w, .packet { pkt with data := writeBytes pkt.data pkt.mctpHdrOff bytes })
  else (w, .idle 0)

/-- `mctp_mmbi_poll` up to `mctp_bus_rx`. -/
def mmbiPollPacket (env : Env (MctpBindingMmbi × δ)) (port : MmbiPort δ)
    (w : Mctp (MctpBindingMmbi × δ)) (b : Nat) : Mctp (MctpBindingMmbi × δ) × MmbiPoll :=
  let (mmbi, dev) := w.dev
  if !mmbi.deviceHandle then (w, .idle 0)
  else if (port.peekNamedPipe dev).getD 1 = 0 then (w, .idle 0)
  else match port.readFile dev (maxToRead (w.bindings b).pktSize) with
    | (dev, .error err) =>
        ({ w with dev := (mmbi, dev) }, .idle (if err = errorBrokenPipe then -epipe else 0))
    | (dev, .ok bytes) => mmbiFill env { w with dev := (mmbi, dev) } b bytes

def mctpMmbiPoll (env : Env (MctpBindingMmbi × δ)) (port : MmbiPort δ)
    (w : Mctp (MctpBindingMmbi × δ)) (b : Nat) : Mctp (MctpBindingMmbi × δ) × Int :=
  match mmbiPollPacket env port w b with
  | (w, .idle rc) => (w, rc)
  | (w, .noBuffer _) => (w, -enomem)
  | (w, .packet pkt) => (mctpBusRx env w b pkt, 0)

def mctpMmbiRx (env : Env (MctpBindingMmbi × δ)) (w : Mctp (MctpBindingMmbi × δ)) (b len : Nat) :
    Mctp (MctpBindingMmbi × δ) × Int :=
  match w.dev.1.rxStorage with
  | none => (w, -einval)
  | some region =>
    if len > w.dev.1.memorySize then (w, -emsgsize)
    else
      let addr := w.nPktAlloc
      match w.pktbufAlloc env b len with
      | (w, none) => (w, -enomem)
      | (w, some pkt) =>
        let (pkt, rc) := mctpPktbufPush pkt (readBytes region 0 len)
        if rc ≠ 0 then (w.withHist { w.hist with heap := w.hist.heap ++ [.pktFree addr] }, -1)
        else (mctpBusRx env w b pkt, 0)

/-! ### The driver behind the handle -/

/-- The calls on a handle of the driver's device `deviceId`. `PeekNamedPipe` fails, since this is no
pipe. A request in which a copy leaves the ring's storage leaves no driver behind, and every later
call fails. -/
def driverPort {size : Nat} (deviceId : Nat) : MmbiPort (Option (MmbiSharedContext size)) where
  writeFile := fun dev buf =>
    match dev.bind fun ctx => mmbiEvtIoWrite ctx deviceId buf with
    | none => (none, none)
    | some (ctx, .deviceBusy) => (some ctx, none)
    | some (ctx, .success information) => (some ctx, some information)
  readFile := fun dev length =>
    match dev.bind fun ctx => mmbiEvtIoRead ctx deviceId length with
    | none => (none, .error 0)
    | some (ctx, bytes, _) => (some ctx, .ok bytes)
  peekNamedPipe := fun _ => none

end LibMctp
