import LibMctp.Model.Instance
import LibMctp.Model.Mmbi

/-!
# The high level interface

The second half of `mmbi.c`, and `transport.c`, which does the same under other names. One call sets
up an instance with an MMBI binding on an open device; then messages are sent without a tag of their
own, and a poll gives the messages it completes to one callback.

The structures behind a context are named by the calls of `__mctp_alloc` that gave them (of
`calloc`, for that of a transport), and the handles by the calls of `CreateFileA`. A context that is
NULL and the debug output do not appear.
-/

namespace LibMctp

variable {δ : Type}

/-! ### Structures and handles -/

/-- What `__mctp_alloc` and `CreateFileA` answer, call by call. -/
structure Platform where
  alloc : Nat → Bool
  opens : Nat → Bool

/-- The calls made so far, the structures allocated and not freed, and the handles opened. No
function closes one. `badFrees` are the structures given back that were not allocated, or were freed
before. -/
structure Resources where
  nAlloc : Nat := 0
  nOpen : Nat := 0
  blocks : List Nat := []
  badFrees : List Nat := []
  handles : List Nat := []
  deriving DecidableEq, Repr

def Resources.mctpAlloc (p : Platform) (r : Resources) : Resources × Option Nat :=
  let addr := r.nAlloc
  if p.alloc addr then ({ r with nAlloc := addr + 1, blocks := r.blocks ++ [addr] }, some addr)
  else ({ r with nAlloc := addr + 1 }, none)

def Resources.mctpFree (r : Resources) (addr : Nat) : Resources :=
  if addr ∈ r.blocks then { r with blocks := r.blocks.erase addr }
  else { r with badFrees := r.badFrees ++ [addr] }

/-! ### Opening the device -/

/-- An MMBI binding as it is set up. -/
structure Opening where
  resources : Resources
  binding : MctpBinding
  mmbi : MctpBindingMmbi

/-- `mctp_mmbi_init_device`, with the calls it makes. -/
def Opening.initDevice (p : Platform) (o : Opening) : Opening × Int :=
  let opens := p.opens o.resources.nOpen
  let r := { o.resources with nOpen := o.resources.nOpen + 1 }
  if opens then
    let (r, storage) := { r with handles := r.handles ++ [o.resources.nOpen] }.mctpAlloc p
    let (binding, mmbi, rc) := mctpMmbiInitDevice o.binding o.mmbi true storage.isSome
    (⟨r, binding, mmbi⟩, rc)
  else
    let (binding, mmbi, rc) := mctpMmbiInitDevice o.binding o.mmbi false false
    (⟨r, binding, mmbi⟩, rc)

/-- The retry loop of `mctp_mmbi_context_init`. -/
def Opening.retry (p : Platform) : Nat → Opening → Opening
  | 0, o => o
  | retries + 1, o =>
    let (o, rc) := o.initDevice p
    if rc = 0 then o else o.retry p retries

/-! ### Contexts -/

/-- `struct mctp_mmbi_context`, and `struct mctp_transport`. The binding is binding 0 of the
instance. `rxCb` is the callback with the context it was registered with, and `calls` what it was
called with. -/
structure MctpMmbiContext (δ : Type) where
  addr : Nat
  mctpAddr : Nat
  mmbiAddr : Nat
  mctp : Mctp (MctpBindingMmbi × δ)
  rxCb : Option Nat := none
  calls : List (Nat × UInt8 × List UInt8) := []

/-- What `mctp_mmbi_context_init` and `mctp_transport_init` have in common. `openDevice` is the
binding as it was left, and whether the context is kept. -/
def contextInit (openDevice : Opening → Opening × Bool) (env : Env (MctpBindingMmbi × δ))
    (p : Platform) (r : Resources) (now : Nat) (dev : δ) (localEid : UInt8) :
    Resources × Option (MctpMmbiContext δ) :=
  match r.mctpAlloc p with
  | (r, none) => (r, none)
  | (r, some addr) =>
    match r.mctpAlloc p with
    | (r, none) => (r.mctpFree addr, none)
    | (r, some mctpAddr) =>
      match r.mctpAlloc p with
      | (r, none) => ((r.mctpFree mctpAddr).mctpFree addr, none)
      | (r, some mmbiAddr) =>
        match openDevice ⟨r, mctpMmbiInit, {}⟩ with
        | (o, false) => (((o.resources.mctpFree mmbiAddr).mctpFree mctpAddr).mctpFree addr, none)
        | (o, true) =>
          let w := mctpSetup (fun _ => o.binding) now (o.mmbi, dev)
          let (w, _) := mctpRegisterBus env w 0 localEid
          let w := mctpBindingSetTxEnabled env w 0 true
          (o.resources, some {
            addr := addr, mctpAddr := mctpAddr, mmbiAddr := mmbiAddr, mctp := mctpSetRxAll w })

/-- Five attempts, and a context if any of them opened the device. -/
def mctpMmbiContextInit (env : Env (MctpBindingMmbi × δ)) (p : Platform) (r : Resources) (now : Nat)
    (dev : δ) (localEid : UInt8) : Resources × Option (MctpMmbiContext δ) :=
  contextInit (fun o => let o := o.retry p 5; (o, o.mmbi.deviceHandle)) env p r now dev localEid

/-- One attempt, and a context if it returned 0. -/
def mctpTransportInit (env : Env (MctpBindingMmbi × δ)) (p : Platform) (r : Resources) (now : Nat)
    (dev : δ) (localEid : UInt8) : Resources × Option (MctpMmbiContext δ) :=
  contextInit (fun o => let (o, rc) := o.initDevice p; (o, decide (rc = 0)))
    env p r now dev localEid

/-- `mctp_mmbi_context_destroy`. The instance is given as it was when it was freed. -/
def mctpMmbiContextDestroy (r : Resources) (ctx : MctpMmbiContext δ) :
    Resources × Mctp (MctpBindingMmbi × δ) :=
  let w := mctpUnregisterBus ctx.mctp 0
  let r := r.mctpFree ctx.mmbiAddr
  let w := mctpCleanup w
  let r := r.mctpFree ctx.mctpAddr
  (r.mctpFree ctx.addr, w)

def mctpTransportDestroy (r : Resources) (ctx : MctpMmbiContext δ) :
    Resources × Mctp (MctpBindingMmbi × δ) :=
  mctpMmbiContextDestroy r ctx

/-! ### Messages -/

def mctpMmbiSetRxCallback (ctx : MctpMmbiContext δ) (cb : Option Nat) : MctpMmbiContext δ :=
  { ctx with rxCb := cb }

def mctpTransportSetRxCallback (ctx : MctpMmbiContext δ) (cb : Option Nat) : MctpMmbiContext δ :=
  mctpMmbiSetRxCallback ctx cb

/-- `mmbi_internal_rx`. The binding has no `control_rx`. -/
def mmbiInternalRx (ctx : MctpMmbiContext δ) : Upcall → MctpMmbiContext δ
  | .messageRx eid _ _ msg =>
    match ctx.rxCb with
    | some cb => { ctx with calls := ctx.calls ++ [(cb, eid, msg)] }
    | none => ctx
  | .controlRx _ _ _ _ => ctx

/-- `mctp_mmbi_send`: tag 0, and the sender does not own it. -/
def mctpMmbiSend (env : Env (MctpBindingMmbi × δ)) (ctx : MctpMmbiContext δ) (dstEid : UInt8)
    (data : List UInt8) : MctpMmbiContext δ × Int :=
  let (w, rc) := mctpMessageTx env ctx.mctp dstEid false 0 data
  ({ ctx with mctp := w }, rc)

def mctpTransportSend (env : Env (MctpBindingMmbi × δ)) (ctx : MctpMmbiContext δ) (dstEid : UInt8)
    (data : List UInt8) :
    MctpMmbiContext δ × Int := mctpMmbiSend env ctx dstEid data

/-- `mctp_mmbi_context_poll`. The handlers it called are in the history of the instance. -/
def mctpMmbiContextPoll (env : Env (MctpBindingMmbi × δ)) (port : MmbiPort δ)
    (ctx : MctpMmbiContext δ) : MctpMmbiContext δ × Int :=
  let (w, rc) := mctpMmbiPoll env port ctx.mctp 0
  ((w.hist.upcalls.drop ctx.mctp.hist.upcalls.length).foldl mmbiInternalRx { ctx with mctp := w },
    rc)

def mctpTransportPoll (env : Env (MctpBindingMmbi × δ)) (port : MmbiPort δ)
    (ctx : MctpMmbiContext δ) :
    MctpMmbiContext δ × Int := mctpMmbiContextPoll env port ctx

end LibMctp
