import LibMctp.Proof.Instance.Buffers

/-!
# The assertions of the transmit path

A bus is only enabled where the packets of its binding have the size the standard asks for, and it
sends only after that, so that the assertion on the packet size holds and the size of a body never
wraps. The assertion on the local EID of a request rests on nothing the library checks: a bus may be
registered with EID 0, and bridging gives it no other.
-/

namespace LibMctp

variable {δ : Type}

/-- Neither assertion of the transmit path has failed. -/
structure History.TxAsserted (hist : History) : Prop where
  validMtu : Fault.assertValidMtu ∉ hist.faults
  localEid : Fault.assertLocal ∉ hist.faults

/-- The assertions held, and no size of a body wrapped. `mctp_next_tx_pkt` computes that size for
each packet it builds, and every packet built is given to the binding and logged. -/
structure TxAsserts (w : Mctp δ) : Prop where
  asserted : w.hist.TxAsserted
  body : ∀ i, (w.busLog i).txed ≠ [] →
    mctpBodySize (w.busBinding i).pktSize + mctpHdrSize = (w.busBinding i).pktSize

/-- A bus that was enabled, or has sent, has a binding with packets of the size the standard asks
for. A binding that points at a bus is the one the bus points at, and none does where there is no
bus. -/
structure TxSafe (w : Mctp δ) : Prop where
  asserted : w.hist.TxAsserted
  started : ∀ i, (w.busses i).state ≠ .constructed →
    mctpPacketSize mctpBtu ≤ (w.busBinding i).pktSize
  sent : ∀ i, (w.busLog i).txed ≠ [] → mctpPacketSize mctpBtu ≤ (w.busBinding i).pktSize
  back : ∀ b i, (w.bindings b).bus = some i → (w.busses i).binding = some b
  unlinked : w.nBusses = 0 → ∀ b, (w.bindings b).bus = none

theorem pktSize_lt (binding : MctpBinding) : binding.pktSize < 2 ^ 64 := by
  have h := binding.fits
  omega

theorem mctpBodySize_add {binding : MctpBinding} (h : mctpPacketSize mctpBtu ≤ binding.pktSize) :
    mctpBodySize binding.pktSize + mctpHdrSize = binding.pktSize := by
  have hlt := pktSize_lt binding
  unfold mctpPacketSize mctpBtu at h
  rw [mctpBodySize, subSize_of_le (by omega) hlt]
  omega

theorem mctpBtu_le_mctpBodySize {binding : MctpBinding}
    (h : mctpPacketSize mctpBtu ≤ binding.pktSize) :
    mctpBtu ≤ mctpBodySize binding.pktSize := by
  have hadd := mctpBodySize_add h
  unfold mctpPacketSize at h
  omega

theorem TxSafe.txAsserts {w : Mctp δ} (h : TxSafe w) : TxAsserts w :=
  ⟨h.asserted, fun i hi => mctpBodySize_add (h.sent i hi)⟩

/-! ### Acts -/

section Histories

variable {hist : History}

theorem History.TxAsserted.fault (h : hist.TxAsserted) {fault : Fault}
    (hmtu : fault ≠ .assertValidMtu) (hlocal : fault ≠ .assertLocal) :
    (hist.fault fault).TxAsserted := by
  refine ⟨?_, ?_⟩
  · rw [History.fault, List.mem_append, List.mem_singleton, not_or]
    exact ⟨h.validMtu, hmtu.symm⟩
  · rw [History.fault, List.mem_append, List.mem_singleton, not_or]
    exact ⟨h.localEid, hlocal.symm⟩

theorem History.TxAsserted.deref (h : hist.TxAsserted) (p : Option Unit) :
    (hist.deref p).TxAsserted := by
  cases p with
  | none => exact h.fault (by decide) (by decide)
  | some _ => exact h

theorem History.TxAsserted.assert (h : hist.TxAsserted) (holds : Bool) {fault : Fault}
    (hmtu : fault ≠ .assertValidMtu) (hlocal : fault ≠ .assertLocal) :
    (hist.assert holds fault).TxAsserted := by
  cases holds with
  | false => exact h.fault hmtu hlocal
  | true => exact h

theorem History.TxAsserted.congr (h : hist.TxAsserted) {hist' : History}
    (hfaults : hist'.faults = hist.faults) : hist'.TxAsserted := by
  refine ⟨?_, ?_⟩
  · rw [hfaults]
    exact h.validMtu
  · rw [hfaults]
    exact h.localEid

theorem IoAct.txAsserted {binding : MctpBinding} {s s' : BusIo δ} (h : IoAct binding s s')
    (hs : s.hist.TxAsserted) :
    s'.hist.TxAsserted := by
  cases h with
  | deref => exact hs.deref _
  | move _ _ _ _ _ _ _ hfaults => exact hs.congr hfaults
  | release => exact hs.congr rfl
  | hang => exact hs.fault (by decide) (by decide)

end Histories

section Acts

variable {w w' : Mctp δ}

/-- The pointers are as before. -/
theorem TxSafe.of_sameLinks (h : TxSafe w) (hlinks : SameLinks w w')
    (hasserted : w'.hist.TxAsserted)
    (hstarted : ∀ i, (w'.busses i).state ≠ .constructed →
      mctpPacketSize mctpBtu ≤ (w.busBinding i).pktSize)
    (hsent : ∀ i, (w'.busLog i).txed ≠ [] → mctpPacketSize mctpBtu ≤ (w.busBinding i).pktSize) :
    TxSafe w' where
  asserted := hasserted
  started i hi := by
    rw [hlinks.busBinding i]
    exact hstarted i hi
  sent i hi := by
    rw [hlinks.busBinding i]
    exact hsent i hi
  back b i hb := by
    rw [hlinks.bindings] at hb
    rw [hlinks.binding]
    exact h.back b i hb
  unlinked hn := by
    rw [hlinks.bindings]
    exact h.unlinked (hlinks.nBusses.symm.trans hn)

/-- Only the history changes, and no assertion fails. -/
theorem TxSafe.noted (h : TxSafe w) {hist : History} (hasserted : hist.TxAsserted) :
    TxSafe (w.withHist hist) :=
  h.of_sameLinks ⟨rfl, rfl, fun _ => rfl, fun _ => rfl⟩ hasserted h.started h.sent

/-- One bus is written, and starts only where its packets have the size. -/
theorem TxSafe.update (h : TxSafe w) (hlinks : SameLinks w w') {i : Fin 2} {bus : MctpBus}
    {log : BusLog} (hasserted : w'.hist.TxAsserted)
    (hbusses : w'.busses = Function.update w.busses i bus)
    (hlogs : w'.busLog = Function.update w.busLog i log)
    (hstarted : bus.state ≠ .constructed → mctpPacketSize mctpBtu ≤ (w.busBinding i).pktSize)
    (hsent : log.txed = (w.busLog i).txed ∨ (w.busses i).state ≠ .constructed) : TxSafe w' := by
  refine h.of_sameLinks hlinks hasserted (fun k hk => ?_) fun k hk => ?_
  · rw [hbusses] at hk
    by_cases hki : k = i
    · rw [hki, Function.update_self] at hk
      rw [hki]
      exact hstarted hk
    · rw [Function.update_of_ne hki] at hk
      exact h.started k hk
  · rw [hlogs] at hk
    by_cases hki : k = i
    · rw [hki, Function.update_self] at hk
      rw [hki]
      rcases hsent with hsame | hstate
      · rw [hsame] at hk
        exact h.sent i hk
      · exact h.started i hstate
    · rw [Function.update_of_ne hki] at hk
      exact h.sent k hk

theorem IoAct.started {binding : MctpBinding} {s s' : BusIo δ} (h : IoAct binding s s') :
    (s'.bus.state ≠ .constructed → s.bus.state ≠ .constructed) ∧
      (s'.log.txed = s.log.txed ∨ s.bus.state ≠ .constructed) := by
  cases h with
  | deref => exact ⟨id, .inl rfl⟩
  | move _ _ _ _ _ hstate _ _ htxed => exact ⟨fun hne heq => hne (hstate.mpr heq), htxed⟩
  | release => exact ⟨id, .inl rfl⟩
  | hang => exact ⟨id, .inl rfl⟩

/-- **No act of a call makes an assertion fail.** -/
theorem Act.txSafe {x y : Mctp δ × List Nat} (h : Act x y) (hx : TxSafe x.1) : TxSafe y.1 := by
  have hlinks := h.sameLinks
  cases h with
  | note _ hfaults => exact hx.noted (hx.asserted.congr hfaults)
  | deref => exact hx.noted (hx.asserted.deref _)
  | nullBus => exact hx.noted (hx.asserted.fault (by decide) (by decide))
  | assertMtu _ hstate =>
      refine hx.noted ?_
      rw [decide_eq_true (mctpBtu_le_mctpBodySize (hx.started _ hstate))]
      exact hx.asserted
  | io _ hio =>
      obtain ⟨hstate, htxed⟩ := hio.started
      exact hx.update hlinks (hio.txAsserted hx.asserted) rfl rfl
        (fun hne => hx.started _ (hstate hne)) htxed
  | take _ _ _ _ _ _ _ hstate =>
      exact hx.update hlinks hx.asserted rfl rfl (fun _ => hx.started _ hstate) (.inl rfl)
  | @state w held i state _ hmtu =>
      refine hx.update hlinks hx.asserted rfl (Function.update_eq_self i w.busLog).symm
        (fun _ => ?_) (.inl rfl)
      by_cases hold : (w.busses i).state = .constructed
      · obtain ⟨b, hb, hsize⟩ := hmtu hold
        rw [Mctp.busBinding, hx.back b i hb]
        exact hsize
      · exact hx.started i hold
  | @eid w held i =>
      exact hx.update hlinks hx.asserted rfl (Function.update_eq_self i w.busLog).symm
        (fun hne => hx.started i hne) (.inl rfl)
  | _ => exact hx.of_sameLinks hlinks (hx.asserted.congr rfl) hx.started hx.sent

theorem Acts.txSafe {x y : Mctp δ × List Nat} (h : Acts x y) (hx : TxSafe x.1) : TxSafe y.1 :=
  h.invariant (P := fun z => TxSafe z.1) Act.txSafe hx

theorem History.mem_faults_deref {hist : History} {fault : Fault} (h : fault ∈ hist.faults)
    (p : Option Unit) :
    fault ∈ (hist.deref p).faults := by
  cases p with
  | none => exact List.mem_append_left _ h
  | some _ => exact h

theorem History.mem_faults_assert {hist : History} {fault : Fault} (h : fault ∈ hist.faults)
    (holds : Bool) (fault' : Fault) :
    fault ∈ (hist.assert holds fault').faults := by
  cases holds with
  | false => exact List.mem_append_left _ h
  | true => exact h

/-- A fault stays on record. -/
theorem Act.mem_faults {x y : Mctp δ × List Nat} (h : Act x y) {fault : Fault}
    (hx : fault ∈ x.1.hist.faults) :
    fault ∈ y.1.hist.faults := by
  cases h with
  | note _ hfaults =>
      rw [Mctp.withHist, hfaults]
      exact hx
  | deref => exact History.mem_faults_deref hx _
  | nullBus => exact List.mem_append_left _ hx
  | assertMtu => exact History.mem_faults_assert hx _ _
  | io _ hio =>
      cases hio with
      | deref => exact History.mem_faults_deref hx _
      | move _ _ _ _ _ _ _ hfaults =>
          rw [Mctp.putBusIo, hfaults]
          exact hx
      | release => exact hx
      | hang => exact List.mem_append_left _ hx
  | _ => exact hx

theorem Acts.mem_faults {x y : Mctp δ × List Nat} (h : Acts x y) {fault : Fault}
    (hx : fault ∈ x.1.hist.faults) :
    fault ∈ y.1.hist.faults :=
  h.invariant (P := fun z => fault ∈ z.1.hist.faults) (fun hact => hact.mem_faults) hx

end Acts

/-! ### Calls -/

section Calls

variable {env : Env δ} {w w' : Mctp δ}

theorem pktSize_relink (w : Mctp δ) (b : Nat) (bus : Option (Fin 2)) (mctp : Option Unit)
    (k : Nat) :
    (Function.update w.bindings b { w.bindings b with bus := bus, mctp := mctp } k).pktSize
      = (w.bindings k).pktSize := by
  by_cases hk : k = b
  · rw [hk, Function.update_self]
  · rw [Function.update_of_ne hk]

theorem busBinding_pktSize {i : Fin 2} (hbinding : (w'.busses i).binding = (w.busses i).binding)
    (hsize : ∀ b, (w'.bindings b).pktSize = (w.bindings b).pktSize) :
    (w'.busBinding i).pktSize = (w.busBinding i).pktSize := by
  rw [Mctp.busBinding, Mctp.busBinding, hbinding]
  cases (w.busses i).binding with
  | none => rfl
  | some b => exact hsize b

theorem TxSafe.initBus (h : TxSafe w) (hn : w.nBusses = 0) (b : Nat) (eid : UInt8) :
    TxSafe (w.initBus b eid) := by
  have hbusses : (w.initBus b eid).busses
      = Function.update w.busses 0 { eid := eid, binding := some b, mctp := some () } := rfl
  have hlogs : (w.initBus b eid).busLog = Function.update w.busLog 0 {} := rfl
  have hbindings : (w.initBus b eid).bindings
      = Function.update w.bindings b { w.bindings b with bus := some 0, mctp := some () } := rfl
  have hsize : ∀ i : Fin 2, i ≠ 0 →
      ((w.initBus b eid).busBinding i).pktSize = (w.busBinding i).pktSize := by
    intro i hi
    apply busBinding_pktSize
    · rw [hbusses, Function.update_of_ne hi]
    · intro k
      rw [hbindings, pktSize_relink]
  refine ⟨?_, fun i hi => ?_, fun i hi => ?_, fun b' i hb' => ?_, fun hone => ?_⟩
  · exact (h.asserted.assert _ (by decide) (by decide)).assert _ (by decide) (by decide)
  · by_cases hzero : i = 0
    · rw [hbusses, hzero, Function.update_self] at hi
      exact absurd rfl hi
    · rw [hbusses, Function.update_of_ne hzero] at hi
      rw [hsize i hzero]
      exact h.started i hi
  · by_cases hzero : i = 0
    · rw [hlogs, hzero, Function.update_self] at hi
      exact absurd rfl hi
    · rw [hlogs, Function.update_of_ne hzero] at hi
      rw [hsize i hzero]
      exact h.sent i hi
  · rw [hbindings] at hb'
    by_cases hsame : b' = b
    · rw [hsame, Function.update_self] at hb'
      rw [← Option.some.inj hb', hbusses, Function.update_self, hsame]
    · rw [Function.update_of_ne hsame, h.unlinked hn b'] at hb'
      cases hb'
  · exact absurd hone (by decide : (1 : Int) ≠ 0)

theorem TxSafe.initBridge (h : TxSafe w) (hn : w.nBusses = 0) (b1 b2 : Nat) :
    TxSafe (w.initBridge b1 b2) := by
  have hbusses : (w.initBridge b1 b2).busses
      = Function.update (Function.update w.busses 0
        { binding := some b1 }) 1 { binding := some b2 } := rfl
  have hconstructed : ∀ i, ((w.initBridge b1 b2).busses i).state = .constructed :=
    Fin.forall_fin_two.mpr ⟨rfl, rfl⟩
  refine ⟨?_, fun i hi => absurd (hconstructed i) hi, fun i hi => absurd rfl hi, fun b i hb =>
    ?_, fun hone => ?_⟩
  · exact ((h.asserted.assert _ (by decide) (by decide)).assert _ (by decide) (by decide)).assert _
      (by decide) (by decide)
  · have hsecond : (w.initBridge b1 b2).bindings b2
        = { (w.initBridge b1 b2).bindings b2 with bus := some 1 } := by
      simp [Mctp.initBridge, Mctp.linkBinding, Mctp.setBinding]
    by_cases hb2 : b = b2
    · rw [hb2, hsecond] at hb
      rw [← Option.some.inj hb, hb2, hbusses, Function.update_self]
    · have hother : (w.initBridge b1 b2).bindings b
          = Function.update w.bindings b1 { w.bindings b1 with bus := some 0, mctp := some () } b :=
          Function.update_of_ne hb2 _ _
      rw [hother] at hb
      by_cases hb1 : b = b1
      · rw [hb1, Function.update_self] at hb
        rw [← Option.some.inj hb, hb1]
        rfl
      · rw [Function.update_of_ne hb1, h.unlinked hn b] at hb
        cases hb
  · exact absurd hone (by decide : (2 : Int) ≠ 0)

theorem TxSafe.setDev (h : TxSafe w) (dev : δ) : TxSafe { w with dev := dev } :=
  h.of_sameLinks ⟨rfl, rfl, fun _ => rfl, fun _ => rfl⟩ h.asserted h.started h.sent

theorem TxSafe.bindingStart (h : TxSafe w) (b : Nat) : TxSafe (bindingStart env w b).1 :=
  bindingStart_invariant env h.setDev fun _ _ h₁ =>
    Acts.txSafe (mctpBindingSetTxEnabled_acts env []) h₁

/-- No binding points at a bus any more. -/
theorem TxSafe.unlink (h : TxSafe w) (hbusses : w'.busses = w.busses) (hlogs : w'.busLog = w.busLog)
    (hhist : w'.hist = w.hist) (hsize : ∀ b, (w'.bindings b).pktSize = (w.bindings b).pktSize)
    (hunlinked : ∀ b, (w'.bindings b).bus = none) : TxSafe w' := by
  have hpkt : ∀ i, (w'.busBinding i).pktSize = (w.busBinding i).pktSize := by
    intro i
    apply busBinding_pktSize
    · rw [hbusses]
    · exact hsize
  refine ⟨?_, fun i hi => ?_, fun i hi => ?_, fun b i hb => ?_, fun _ => hunlinked⟩
  · rw [hhist]
    exact h.asserted
  · rw [hbusses] at hi
    rw [hpkt]
    exact h.started i hi
  · rw [hlogs] at hi
    rw [hpkt]
    exact h.sent i hi
  · rw [hunlinked b] at hb
    cases hb

theorem TxSafe.mctpRegisterBus (h : TxSafe w) (hn : w.nBusses = 0) (b : Nat) (eid : UInt8) :
    TxSafe (mctpRegisterBus env w b eid).1 := by
  have hstarted : TxSafe (LibMctp.bindingStart env (w.initBus b eid) b).1 :=
    (h.initBus hn b eid).bindingStart b
  have hbindings := (bindingStart_links env (w.initBus b eid) b).1
  unfold LibMctp.mctpRegisterBus
  dsimp only
  generalize LibMctp.bindingStart env (w.initBus b eid) b = started at hstarted hbindings ⊢
  split
  · -- the start failed, and the only binding that was linked is taken back
    have hsize :
      ∀ k, (Function.update started.1.bindings b { started.1.bindings b with bus := none }
        k).pktSize
        = (started.1.bindings k).pktSize := pktSize_relink started.1 b none _
    have hunlinked :
        ∀ k, (Function.update started.1.bindings b { started.1.bindings b with bus := none } k).bus
        = none := by
      intro k
      by_cases hk : k = b
      · rw [hk, Function.update_self]
      · rw [Function.update_of_ne hk, hbindings]
        exact (congrArg MctpBinding.bus (Function.update_of_ne hk _ _)).trans (h.unlinked hn k)
    exact hstarted.unlink rfl rfl rfl hsize hunlinked
  · exact hstarted

theorem TxSafe.mctpBridgeBusses (h : TxSafe w) (hn : w.nBusses = 0) (b1 b2 : Nat) :
    TxSafe (mctpBridgeBusses env w b1 b2).1 := by
  have hfirst : TxSafe (LibMctp.bindingStart env (w.initBridge b1 b2) b1).1 :=
    (h.initBridge hn b1 b2).bindingStart b1
  rw [mctpBridgeBusses_eq]
  split
  · exact hfirst
  · show TxSafe (LibMctp.bindingStart env _ b2).1
    exact hfirst.bindingStart b2

theorem TxSafe.lend (h : TxSafe w) : TxSafe w.lend :=
  h.of_sameLinks ⟨rfl, rfl, fun _ => rfl, fun _ => rfl⟩ (h.asserted.congr rfl) h.started h.sent

/-- A request comes past its assertion where the bus has an EID. -/
theorem TxSafe.requestChecked (h : TxSafe w) (heid : w.nBusses ≠ 0 → (w.busses 0).eid ≠ 0) :
    TxSafe w.requestChecked := by
  unfold Mctp.requestChecked
  split
  · exact h
  · rename_i hn
    refine h.noted ?_
    rw [decide_eq_true (heid hn)]
    exact h.asserted

theorem mem_faults_requestChecked (hn : w.nBusses ≠ 0) (heid : (w.busses 0).eid = 0) :
    Fault.assertLocal ∈ w.requestChecked.hist.faults := by
  unfold Mctp.requestChecked
  rw [if_neg hn, heid]
  exact List.mem_append_right _ (List.mem_singleton_self _)

end Calls

/-! ### Runs -/

/-- The calls on an instance that set up its busses, send and receive. Time passes between them. -/
inductive TxCall where
  | register (b : Nat) (eid : UInt8)
  | bridge (b1 b2 : Nat)
  | setTxEnabled (b : Nat) (enable : Bool)
  | busSetEid (b : Nat) (eid : UInt8)
  | messageTx (eid : UInt8) (tagOwner : Bool) (msgTag : UInt8) (msg : List UInt8)
  | messageTxRequest (eid : UInt8) (msg : List UInt8)
  | busRx (b : Nat) (pkt : MctpPktbuf)
  | clock (now : Nat)

def callStep (env : Env δ) (w : Mctp δ) : TxCall → Mctp δ
  | .register b eid => (mctpRegisterBus env w b eid).1
  | .bridge b1 b2 => (mctpBridgeBusses env w b1 b2).1
  | .setTxEnabled b enable => mctpBindingSetTxEnabled env w b enable
  | .busSetEid b eid => (mctpBusSetEid w b eid).1
  | .messageTx eid tagOwner msgTag msg => (mctpMessageTx env w eid tagOwner msgTag msg).1
  | .messageTxRequest eid msg => (mctpMessageTxRequest env w.lend eid (w.lent msg) msg.length).1
  | .busRx b pkt => mctpBusRx env w b pkt
  | .clock now => { w with platformNow := now }

/-- Registration and bridging assert that there is no bus. -/
def TxCall.Permitted (w : Mctp δ) : TxCall → Prop
  | .register _ _ => w.nBusses = 0
  | .bridge _ _ => w.nBusses = 0
  | _ => True

/-- A request is sent from a bus that has an EID. -/
def TxCall.Addressed (w : Mctp δ) : TxCall → Prop
  | .messageTxRequest _ _ => w.nBusses ≠ 0 → (w.busses 0).eid ≠ 0
  | _ => True

instance TxCall.decidablePermitted (w : Mctp δ) : (call : TxCall) → Decidable (call.Permitted w)
  | .register _ _ => inferInstanceAs (Decidable (w.nBusses = 0))
  | .bridge _ _ => inferInstanceAs (Decidable (w.nBusses = 0))
  | .setTxEnabled _ _ => inferInstanceAs (Decidable True)
  | .busSetEid _ _ => inferInstanceAs (Decidable True)
  | .messageTx _ _ _ _ => inferInstanceAs (Decidable True)
  | .messageTxRequest _ _ => inferInstanceAs (Decidable True)
  | .busRx _ _ => inferInstanceAs (Decidable True)
  | .clock _ => inferInstanceAs (Decidable True)

instance TxCall.decidableAddressed (w : Mctp δ) : (call : TxCall) → Decidable (call.Addressed w)
  | .register _ _ => inferInstanceAs (Decidable True)
  | .bridge _ _ => inferInstanceAs (Decidable True)
  | .setTxEnabled _ _ => inferInstanceAs (Decidable True)
  | .busSetEid _ _ => inferInstanceAs (Decidable True)
  | .messageTx _ _ _ _ => inferInstanceAs (Decidable True)
  | .messageTxRequest _ _ => inferInstanceAs (Decidable (w.nBusses ≠ 0 → (w.busses 0).eid ≠ 0))
  | .busRx _ _ => inferInstanceAs (Decidable True)
  | .clock _ => inferInstanceAs (Decidable True)

section Run

variable {env : Env δ} {w : Mctp δ}

theorem TxSafe.callStep (h : TxSafe w) (call : TxCall) (hcall : call.Permitted w)
    (haddressed : call.Addressed w) :
    TxSafe (callStep env w call) := by
  cases call with
  | register b eid => exact h.mctpRegisterBus hcall b eid
  | bridge b1 b2 => exact h.mctpBridgeBusses hcall b1 b2
  | setTxEnabled b enable => exact Acts.txSafe (mctpBindingSetTxEnabled_acts env []) h
  | busSetEid b eid => exact Acts.txSafe (mctpBusSetEid_acts []) h
  | messageTx eid tagOwner msgTag msg => exact Acts.txSafe (mctpMessageTx_acts env []) h
  | messageTxRequest eid msg =>
      exact Acts.txSafe (mctpMessageTxRequest_acts env [] (w.lent msg))
        (h.lend.requestChecked haddressed)
  | busRx b pkt => exact Acts.txSafe (mctpBusRx_acts env []) h
  | clock now =>
      exact h.of_sameLinks ⟨rfl, rfl, fun _ => rfl, fun _ => rfl⟩ h.asserted h.started h.sent

/-- The assertion fails where a request is sent from a bus without an EID. -/
theorem addressed_of_txAsserts (call : TxCall) (h : TxAsserts (callStep env w call)) :
    call.Addressed w := by
  cases call with
  | messageTxRequest eid msg =>
      intro hn heid
      have hacts : Acts (w.lend.requestChecked, [(w.lent msg).addr])
          (callStep env w (.messageTxRequest eid msg), []) :=
        mctpMessageTxRequest_acts env [] (w.lent msg)
      exact h.asserted.localEid (hacts.mem_faults (mem_faults_requestChecked (w := w.lend) hn heid))
  | _ => trivial

/-- **The assertions of the transmit path hold, in every state of a run, exactly when no request is
sent from a bus without an EID.** -/
theorem callRun_txAsserts_iff (env : Env δ) (bindings : Nat → MctpBinding) (now : Nat) (dev : δ)
    (calls : List TxCall) (hbindings : ∀ b, (bindings b).bus = none)
    (hcalls : Run.Each (LibMctp.callStep env) (fun w call => call.Permitted w)
      (mctpSetup bindings now dev) calls) :
    (∀ pre, pre <+: calls →
      TxAsserts (pre.foldl (LibMctp.callStep env) (mctpSetup bindings now dev))) ↔
      Run.Each (LibMctp.callStep env) (fun w call => call.Addressed w)
        (mctpSetup bindings now dev) calls := by
  have hstart : TxSafe (mctpSetup bindings now dev) := by
    refine ⟨⟨List.not_mem_nil, List.not_mem_nil⟩, fun i hi => absurd rfl hi, fun i hi =>
      absurd rfl hi, fun b i hb => ?_,
      fun _ => hbindings⟩
    exact absurd ((hbindings b).symm.trans hb) (by simp)
  exact Run.forall_along_iff_each (fun _ h => h.txAsserts)
    (fun w call _ _ h => addressed_of_txAsserts call h)
    (fun w call hcall h haddressed => h.callStep call hcall haddressed) hcalls hstart

end Run

/-- A bus that is registered without an EID sends, and is given an EID before its first request. -/
def namedCalls : List TxCall :=
  [.register 0 0, .setTxEnabled 0 true, .messageTx 9 true 1 [7], .busRx 0 (oneByte 0xc8),
    .busSetEid 0 8, .messageTxRequest 9 [6]]

theorem callRun_txAsserts_iff_named :
    (∀ b, ((fun _ => smallBinding : Nat → MctpBinding) b).bus = none) ∧
      ∀ pre, pre <+: namedCalls →
        TxAsserts (pre.foldl (callStep plainEnv) (mctpSetup (fun _ => smallBinding) 0 ())) :=
  ⟨fun _ => rfl,
    (callRun_txAsserts_iff plainEnv (fun _ => smallBinding) 0 () namedCalls (fun _ => rfl)
      (by decide)).mpr (by decide)⟩

/-- A request from a bus registered with EID 0, and one from a bridge. -/
theorem callRun_not_txAsserts :
    Run.Each (callStep plainEnv) (fun w call => call.Permitted w) plainInstance
      [.register 0 0, .messageTxRequest 9 [6]] ∧
      ¬ TxAsserts ([TxCall.register 0 0, .messageTxRequest 9 [6]].foldl
        (callStep plainEnv) plainInstance) ∧
      Run.Each (callStep plainEnv) (fun w call => call.Permitted w) plainInstance
        [.bridge 0 1, .messageTxRequest 9 [6]] ∧
      ¬ TxAsserts ([TxCall.bridge 0 1, .messageTxRequest 9 [6]].foldl (callStep plainEnv)
        plainInstance) := by
  refine ⟨by decide, fun h => ?_, by decide, fun h => ?_⟩
  · exact h.asserted.localEid (by decide)
  · exact h.asserted.localEid (by decide)

end LibMctp
