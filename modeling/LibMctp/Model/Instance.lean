import LibMctp.Model.Transmit

/-!
# Setting an instance up

`mctp_setup`, the registration, bridging and removal of busses, and `mctp_cleanup` of `core.c`, with
the list of message types of `control.c` that `mctp_setup` starts.
-/

namespace LibMctp

variable {δ : Type}

/-! ### Message types -/

def mctpControlAddType (control : MctpControl) (msgType : UInt8) : MctpControl × Int :=
  if msgType ∈ control.msgTypes.take control.numMsgTypes then (control, 0)
  else if control.numMsgTypes = mctpControlMaxTypes then (control, -enospc)
  else
    ({ msgTypes := writeBytes control.msgTypes control.numMsgTypes [msgType]
       numMsgTypes := control.numMsgTypes + 1 }, 0)

/-- The loop of `mctp_control_remove_type` from index `i` on. It shortens the list it walks, so the
rounds left are counted apart. -/
def mctpControlRemoveLoop (msgType : UInt8) : Nat → Nat → MctpControl → MctpControl
  | 0, _, control => control
  | rounds + 1, i, control =>
    if i < control.numMsgTypes then
      if control.msgTypes.getD i 0 = msgType then
        mctpControlRemoveLoop msgType rounds (i + 1)
          { msgTypes := writeBytes control.msgTypes i
              (readBytes control.msgTypes (i + 1) (control.numMsgTypes - (i + 1)))
            numMsgTypes := control.numMsgTypes - 1 }
      else mctpControlRemoveLoop msgType rounds (i + 1) control
    else control

def mctpControlRemoveType (control : MctpControl) (msgType : UInt8) : MctpControl :=
  mctpControlRemoveLoop msgType control.numMsgTypes 0 control

/-! ### The instance -/

/-- `mctp_setup` on zeroed storage, beside bindings and a device that exist already. -/
def mctpSetup (bindings : Nat → MctpBinding) (now : Nat) (dev : δ) : Mctp δ where
  nBusses := 0
  busses := fun _ => {}
  bindings := bindings
  messageRx := false
  capture := false
  msgCtxs := fun _ => {}
  reqTags := fun _ => {}
  tagRoundRobin := 0
  routePolicy := .endpoint
  maxMessageSize := mctpMaxMessageSize
  control := (mctpControlAddType {} 0).1
  platformNow := now
  nMsgAlloc := 0
  nPktAlloc := 0
  dev := dev
  busLog := fun _ => {}
  hist := {}

def mctpSetMaxMessageSize (w : Mctp δ) (messageSize : UInt64) : Mctp δ :=
  { w with maxMessageSize := messageSize }

def mctpSetRxAll (w : Mctp δ) : Mctp δ := { w with messageRx := true }

/-- `binding->start(binding)`, if it is set. -/
def bindingStart (env : Env δ) (w : Mctp δ) (b : Nat) : Mctp δ × Int :=
  match env.start b with
  | none => (w, 0)
  | some start =>
    let (dev, r) := start w.dev
    (r.enables.foldl (fun w enable => mctpBindingSetTxEnabled env w b enable) { w with dev := dev },
      r.rc)

/-- Point a binding at a bus. -/
def Mctp.linkBinding (w : Mctp δ) (b : Nat) (i : Fin 2) : Mctp δ :=
  w.setBinding b { w.bindings b with bus := some i, mctp := some () }

/-- `mctp_register_bus` up to the start of the binding. -/
def Mctp.initBus (w : Mctp δ) (b : Nat) (eid : UInt8) : Mctp δ :=
  let hist := (w.hist.assert (decide (w.nBusses = 0)) .assertBusses).assert
    (w.bindings b).txStorage .assertTxStorage
  let w := { w with nBusses := 1, hist := hist, busLog := Function.update w.busLog 0 {} }
  let w := (w.setBus 0 { eid := eid, binding := some b, mctp := some () }).linkBinding b 0
  { w with routePolicy := .endpoint }

def mctpRegisterBus (env : Env δ) (w : Mctp δ) (b : Nat) (eid : UInt8) : Mctp δ × Int :=
  let (w, rc) := bindingStart env (w.initBus b eid) b
  if rc < 0 then
    ({ w.setBinding b { w.bindings b with bus := none } with nBusses := 0 }, rc)
  else (w, rc)

def mctpUnregisterBus (w : Mctp δ) (b : Nat) : Mctp δ :=
  { w.setBinding b { w.bindings b with mctp := none, bus := none } with nBusses := 0 }

/-- `mctp_bridge_busses`. It leaves the `mctp` pointers of both busses NULL. -/
def mctpBridgeBusses (env : Env δ) (w : Mctp δ) (b1 b2 : Nat) : Mctp δ × Int :=
  let hist := (w.hist.assert (w.bindings b1).txStorage .assertTxStorage).assert
    (w.bindings b2).txStorage .assertTxStorage
  let hist := hist.assert (decide (w.nBusses = 0)) .assertBusses
  let w := { w with nBusses := 2, hist := hist, busLog := fun _ => {} }
  let w := (w.setBus 0 { binding := some b1 }).linkBinding b1 0
  let w := (w.setBus 1 { binding := some b2 }).linkBinding b2 1
  let w := { w with routePolicy := .bridge }
  let (w, rc) := bindingStart env w b1
  if rc < 0 then (w, rc)
  else
    let (w, rc₂) := bindingStart env w b2
    (w, if (env.start b2).isSome then rc₂ else rc)

/-- `mctp_bus_destroy`. -/
def mctpBusDestroy (w : Mctp δ) (i : Fin 2) : Mctp δ :=
  match (w.busses i).txMsg with
  | none => w
  | some msg => mctpMsgFree (w.setBus i { w.busses i with txMsg := none }) msg (some ())

/-- `mctp_cleanup`. The pointers of the freed contexts are left as they are. -/
def mctpCleanup (w : Mctp δ) : Mctp δ :=
  let freeCtx (w : Mctp δ) (j : Fin 16) : Mctp δ :=
    match (w.msgCtxs j).buf with
    | none => w
    | some buf => mctpMsgFree w buf (some ())
  let w := (List.finRange 16).foldl freeCtx w
  let busses := ([1, 0] : List (Fin 2)).filter fun i => (i.val : Int) < w.nBusses
  { busses.foldl mctpBusDestroy w with nBusses := -1 }

end LibMctp
