import LibMctp.Proof.Instance.Buffers
import LibMctp.Proof.Instance.Types
import LibMctp.Proof.Tags.Unique

/-!
# The states of an endpoint

An endpoint is an instance with one bus, in any state that the calls on it lead to. Its bus and
binding stay linked, it sends packets only where these have the size the standard asks for, and the
message types it reports are those added and not removed since.
-/

namespace LibMctp

variable {δ : Type}

/-! ### Calls on an endpoint -/

inductive EndpointOp where
  | messageTx (eid : UInt8) (tagOwner : Bool) (msgTag : UInt8) (msg : List UInt8)
  | messageTxAlloced (eid : UInt8) (tagOwner : Bool) (msgTag : UInt8) (msg : List UInt8)
  | messageTxRequest (eid : UInt8) (msg : List UInt8)
  | setTxEnabled (enable : Bool)
  | busRx (pkt : MctpPktbuf)
  | busSetEid (eid : UInt8)
  | setMaxMessageSize (messageSize : UInt64)
  | setRxAll
  | addType (msgType : UInt8)
  | removeType (msgType : UInt8)
  | clock (now : Nat)

/-- One call on the endpoint with binding `b`. -/
def endpointStep (env : Env δ) (b : Nat) (w : Mctp δ) : EndpointOp → Mctp δ
  | .messageTx eid tagOwner msgTag msg => (mctpMessageTx env w eid tagOwner msgTag msg).1
  | .messageTxAlloced eid tagOwner msgTag msg =>
    (mctpMessageTxAlloced env w.lend eid tagOwner msgTag (w.lent msg) msg.length).1
  | .messageTxRequest eid msg => (mctpMessageTxRequest env w.lend eid (w.lent msg) msg.length).1
  | .setTxEnabled enable => mctpBindingSetTxEnabled env w b enable
  | .busRx pkt => mctpBusRx env w b pkt
  | .busSetEid eid => (mctpBusSetEid w b eid).1
  | .setMaxMessageSize messageSize => mctpSetMaxMessageSize w messageSize
  | .setRxAll => mctpSetRxAll w
  | .addType msgType => { w with control := (mctpControlAddType w.control msgType).1 }
  | .removeType msgType => { w with control := mctpControlRemoveType w.control msgType }
  | .clock now => { w with platformNow := now }

/-- The message types listed after a call. -/
def EndpointOp.types (types : List UInt8) : EndpointOp → List UInt8
  | .addType msgType => withType types msgType
  | .removeType msgType => withoutType types msgType
  | _ => types

/-- Bus 0 sends packets of the size the standard asks for, and numbers them modulo 4. -/
structure BusSane (w : Mctp δ) : Prop where
  seq : (w.busses 0).txSeq.toNat < 4
  mtu : (w.busses 0).state ≠ .constructed →
    ∃ b, (w.bindings b).bus = some 0 ∧ mctpPacketSize mctpBtu ≤ (w.bindings b).pktSize

/-- An endpoint on binding `b` that lists these message types. -/
structure EndpointInv (b : Nat) (binding : MctpBinding) (types : List UInt8) (w : Mctp δ) :
    Prop where
  linked : Linked w b binding
  only : ∀ b', (w.bindings b').bus = some 0 → b' = b
  endpoint : w.routePolicy = .endpoint
  sane : BusSane w
  lists : w.control.Lists types

theorem EndpointInv.mtu {b : Nat} {binding : MctpBinding} {types : List UInt8} {w : Mctp δ}
    (h : EndpointInv b binding types w) (hstate : (w.busses 0).state ≠ .constructed) :
    mctpPacketSize mctpBtu ≤ binding.pktSize := by
  obtain ⟨b', hb', hsize⟩ := h.sane.mtu hstate
  rw [h.only b' hb', h.linked.eq] at hsize
  exact hsize

/-! ### What every act keeps -/

section Acts

variable {w w' : Mctp δ}

theorem BusSane.of_bus (h : BusSane w) (hbindings : w'.bindings = w.bindings)
    (hseq : (w'.busses 0).txSeq = (w.busses 0).txSeq)
    (hstate : (w'.busses 0).state = (w.busses 0).state) : BusSane w' := by
  refine ⟨?_, ?_⟩
  · rw [hseq]
    exact h.seq
  · rw [hstate, hbindings]
    exact h.mtu

/-- One bus is written. -/
theorem BusSane.update (h : BusSane w) {i : Fin 2} {bus : MctpBus}
    (hbindings : w'.bindings = w.bindings) (hbusses : w'.busses = Function.update w.busses i bus)
    (hseq : (w.busses i).txSeq.toNat < 4 → bus.txSeq.toNat < 4)
    (hstate : bus.state ≠ .constructed → (w.busses i).state ≠ .constructed ∨
      ∃ b, (w.bindings b).bus = some i ∧ mctpPacketSize mctpBtu ≤ (w.bindings b).pktSize) :
    BusSane w' := by
  by_cases hi : i = 0
  · subst hi
    refine ⟨?_, ?_⟩
    · rw [hbusses, Function.update_self]
      exact hseq h.seq
    · rw [hbusses, Function.update_self, hbindings]
      exact fun hbus => (hstate hbus).elim h.mtu id
  · have hsame : w'.busses 0 = w.busses 0 := by
      rw [hbusses, Function.update_of_ne (Ne.symm hi)]
    exact h.of_bus hbindings (by rw [hsame]) (by rw [hsame])

theorem IoAct.sane {binding : MctpBinding} {s s' : BusIo δ} (h : IoAct binding s s') :
    (s.bus.txSeq.toNat < 4 → s'.bus.txSeq.toNat < 4) ∧
      (s'.bus.state ≠ .constructed → s.bus.state ≠ .constructed) := by
  cases h with
  | deref => exact ⟨id, id⟩
  | move _ _ _ _ hseq hstate => exact ⟨hseq, fun hne heq => hne (hstate.mpr heq)⟩
  | release => exact ⟨id, id⟩
  | hang => exact ⟨id, id⟩

theorem Act.busSane {x y : Mctp δ × List Nat} (h : Act x y) (hx : BusSane x.1) : BusSane y.1 := by
  cases h with
  | io hi hio =>
      obtain ⟨hseq, hstate⟩ := hio.sane
      exact hx.update rfl rfl hseq fun hne => .inl (hstate hne)
  | take src dest tagOwner msgTag msg msgLen hi hstate hidle =>
      exact hx.update rfl rfl id fun _ => .inl hstate
  | state hi hmtu =>
      exact hx.update rfl rfl id fun _ => Decidable.or_iff_not_imp_left.mpr fun hc =>
        hmtu (not_not.mp hc)
  | eid => exact hx.update rfl rfl id .inl
  | _ => exact hx.of_bus rfl rfl rfl

theorem Acts.busSane {x y : Mctp δ × List Nat} (h : Acts x y) (hx : BusSane x.1) : BusSane y.1 :=
  h.invariant (P := fun z => BusSane z.1) (fun hact hz => hact.busSane hz) hx

end Acts

/-! ### Runs -/

section Run

variable {env : Env δ} {b : Nat} {binding : MctpBinding} {types : List UInt8} {w w' : Mctp δ}

/-- What a call of the library keeps. -/
theorem EndpointInv.call (h : EndpointInv b binding types w) (hsane : BusSane w')
    (hsame : SameSetup env w w') :
    EndpointInv b binding types w' where
  linked := h.linked.of_sameSetup hsame
  only b' hb' := by
    rw [hsame.bindings] at hb'
    exact h.only b' hb'
  endpoint := hsame.routePolicy.trans h.endpoint
  sane := hsane
  lists := by
    rw [hsame.control]
    exact h.lists

theorem EndpointInv.lend (h : EndpointInv b binding types w) :
    EndpointInv b binding types w.lend where
  linked := ⟨h.linked.nBusses, h.linked.bus, h.linked.mctp, h.linked.eq,
    h.linked.back, h.linked.owner⟩
  only := h.only
  endpoint := h.endpoint
  sane := h.sane.of_bus rfl rfl rfl
  lists := h.lists

theorem EndpointInv.setControl (h : EndpointInv b binding types w) {control : MctpControl}
    {types' : List UInt8} (hlists : control.Lists types') :
    EndpointInv b binding types' { w with control := control } where
  linked := ⟨h.linked.nBusses, h.linked.bus, h.linked.mctp, h.linked.eq,
    h.linked.back, h.linked.owner⟩
  only := h.only
  endpoint := h.endpoint
  sane := h.sane.of_bus rfl rfl rfl
  lists := hlists

theorem EndpointInv.step (h : EndpointInv b binding types w) (op : EndpointOp) :
    EndpointInv b binding (op.types types) (endpointStep env b w op) := by
  cases op with
  | messageTx eid tagOwner msgTag msg =>
      exact h.call (Acts.busSane (mctpMessageTx_acts env []) h.sane)
        (mctpMessageTx_txOnly env w eid tagOwner msgTag msg).toSameSetup
  | messageTxAlloced eid tagOwner msgTag msg =>
      exact h.lend.call (Acts.busSane (mctpMessageTxAlloced_acts env [] (w.lent msg)) h.lend.sane)
        (mctpMessageTxAlloced_txOnly env _ _ _ _ _ _).toSameSetup
  | messageTxRequest eid msg =>
      have hacts : Acts (w.lend.requestChecked, [(w.lent msg).addr])
          (endpointStep env b w (.messageTxRequest eid msg), []) :=
        mctpMessageTxRequest_acts env [] (w.lent msg)
      have hsane : BusSane w.lend.requestChecked := by
        unfold Mctp.requestChecked
        split
        · exact h.lend.sane
        · exact h.lend.sane.of_bus rfl rfl rfl
      exact h.lend.call (hacts.busSane hsane) (mctpMessageTxRequest_cases env rfl).2.1
  | setTxEnabled enable =>
      exact h.call (Acts.busSane (mctpBindingSetTxEnabled_acts env []) h.sane)
        (mctpBindingSetTxEnabled_txOnly env w b enable).toSameSetup
  | busRx pkt =>
      exact h.call (Acts.busSane (mctpBusRx_acts env []) h.sane) (mctpBusRx_sameSetup env w b pkt)
  | busSetEid eid =>
      exact h.call (Acts.busSane (mctpBusSetEid_acts []) h.sane)
        (mctpBusSetEid_rxOnly env w b eid).toSameSetup
  | addType msgType => exact h.setControl (h.lists.add msgType)
  | removeType msgType => exact h.setControl (h.lists.remove msgType)
  | _ =>
      exact ⟨⟨h.linked.nBusses, h.linked.bus, h.linked.mctp, h.linked.eq, h.linked.back,
        h.linked.owner⟩, h.only,
      h.endpoint, h.sane.of_bus rfl rfl rfl, h.lists⟩

/-- **What the calls on an endpoint keep.** -/
theorem EndpointInv.run (h : EndpointInv b binding types w) (ops : List EndpointOp) :
    EndpointInv b binding (ops.foldl EndpointOp.types types)
      (ops.foldl (endpointStep env b) w) := by
  induction ops generalizing w types with
  | nil => exact h
  | cons op ops ih => exact ih (h.step op)

/-- An endpoint after the calls `ops` on it. -/
def endpointRun (env : Env δ) (bindings : Nat → MctpBinding) (now : Nat) (dev : δ) (b : Nat)
    (eid : UInt8) (ops : List EndpointOp) : Mctp δ :=
  ops.foldl (endpointStep env b) (mctpRegisterBus env (mctpSetup bindings now dev) b eid).1

/-- The bindings are on no bus yet, and binding `b` can be registered. -/
structure Registers (env : Env δ) (bindings : Nat → MctpBinding) (now : Nat) (dev : δ) (b : Nat)
    (eid : UInt8) : Prop where
  unlinked : ∀ b', (bindings b').bus = none
  starts : 0 ≤ (mctpRegisterBus env (mctpSetup bindings now dev) b eid).2

section Registers

variable {bindings : Nat → MctpBinding} {now : Nat} {dev : δ} {eid : UInt8}

theorem initBus_endpointInv (h : ∀ b', (bindings b').bus = none) (dev' : δ) :
    EndpointInv b { bindings b with bus := some 0, mctp := some () } [mctpCtrlHdrMsgType]
      { (mctpSetup bindings now dev).initBus b eid with dev := dev' } where
  linked := by
    refine ⟨rfl, ?_, ?_, ?_, rfl, rfl⟩
    · simp [Mctp.initBus, Mctp.linkBinding, Mctp.setBinding, Mctp.setBus]
    · simp [Mctp.initBus, Mctp.linkBinding, Mctp.setBinding, Mctp.setBus]
    · simp [Mctp.initBus, Mctp.linkBinding, Mctp.setBinding, Mctp.setBus, mctpSetup]
  only b' hb' := by
    by_contra hne
    have hother : ((mctpSetup bindings now dev).initBus b eid).bindings b' = bindings b' :=
      Function.update_of_ne hne _ _
    dsimp only at hb'
    rw [hother, h b'] at hb'
    cases hb'
  endpoint := rfl
  sane := by
    have hbus : ((mctpSetup bindings now dev).initBus b eid).busses 0
        = { eid := eid, binding := some b, mctp := some () } := by
      simp [Mctp.initBus, Mctp.linkBinding, Mctp.setBinding, Mctp.setBus]
    refine ⟨?_, fun hstate => ?_⟩
    · dsimp only
      rw [hbus]
      exact (by decide : 0 < 4)
    · dsimp only at hstate
      rw [hbus] at hstate
      exact absurd rfl hstate
  lists := lists_control

/-- **Every state of an endpoint is one.** -/
theorem Registers.endpointInv (h : Registers env bindings now dev b eid) (ops : List EndpointOp) :
    EndpointInv b { bindings b with bus := some 0, mctp := some () }
      (ops.foldl EndpointOp.types [mctpCtrlHdrMsgType])
      (endpointRun env bindings now dev b eid ops) := by
  refine EndpointInv.run ?_ ops
  have hrc := h.starts
  have hstarted : EndpointInv b { bindings b with bus := some 0, mctp := some () }
    [mctpCtrlHdrMsgType]
      (bindingStart env ((mctpSetup bindings now dev).initBus b eid) b).1 := by
    refine bindingStart_invariant env (initBus_endpointInv h.unlinked) fun w₁ enable h₁ => ?_
    have hstep : EndpointInv b _ _ (endpointStep env b w₁ (.setTxEnabled enable)) :=
      h₁.step (.setTxEnabled enable)
    exact hstep
  unfold mctpRegisterBus at hrc ⊢
  dsimp only at hrc ⊢
  split at hrc
  · omega
  · rename_i hneg
    rw [if_neg hneg]
    exact hstarted

end Registers

end Run

end LibMctp
