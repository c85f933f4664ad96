import LibMctp.Lib.Run
import LibMctp.Proof.Base.Acts
import LibMctp.Proof.Transmit.Queue

/-!
# Busses and bindings

A bus and its binding hold pointers to each other and to the instance, and the buffers of a received
message are freed through them. Registration sets all of these pointers. Bridging leaves out those
from a bus to the instance, and removal clears only those of the binding it is given.
-/

namespace LibMctp

variable {δ : Type}

/-- Every bus in use and its binding point at each other and at the instance, and no binding points
at a bus that is not its own. -/
structure Mctp.Links (w : Mctp δ) : Prop where
  forward : ∀ i : Fin 2, (i.val : Int) < w.nBusses → (w.busses i).mctp = some () ∧
    ∃ b, (w.busses i).binding = some b ∧ (w.bindings b).bus = some i ∧ (w.bindings b).mctp = some ()
  back : ∀ b i, (w.bindings b).bus = some i → (i.val : Int) < w.nBusses ∧
    (w.busses i).binding = some b

/-- The links are in order, and no NULL `struct mctp` was followed. -/
structure LinkSafe (w : Mctp δ) : Prop where
  links : w.Links
  noNull : Fault.nullMctp ∉ w.hist.faults

/-! ### What the links are for -/

section Links

variable {w w' : Mctp δ} (hn : 0 ≤ w.nBusses)

theorem Mctp.Links.of_sameLinks (h : w.Links) (hsame : SameLinks w w') : w'.Links where
  forward i hi := by
    rw [hsame.nBusses] at hi
    rw [hsame.mctp, hsame.binding, hsame.bindings]
    exact h.forward i hi
  back b i hb := by
    rw [hsame.bindings] at hb
    rw [hsame.nBusses, hsame.binding]
    exact h.back b i hb

include hn

theorem Mctp.Links.lt_of_used (h : w.Links) {i : Fin 2} (hi : w.Used i) :
    (i.val : Int) < w.nBusses := by
  rcases hi with (⟨rfl, hne⟩ | hlt) | ⟨b, hb⟩
  · have hpos : 0 < w.nBusses := lt_of_le_of_ne hn (Ne.symm hne)
    exact hpos
  · exact hlt
  · exact (h.back b i hb).1

/-- Where the links are in order, no pointer the source follows is NULL. -/
theorem Mctp.Links.pointer (h : w.Links) {p : Option Unit} (hp : w.Pointer p) : p = some () := by
  rcases hp with hp | ⟨i, hi, hp⟩ | ⟨b, hb, hp⟩
  · exact hp
  · obtain ⟨hmctp, b, hbinding, -, howner⟩ := h.forward i (h.lt_of_used hn hi)
    rcases hp with rfl | rfl
    · exact hmctp
    · rw [Mctp.busBinding, hbinding]
      exact howner
  · obtain ⟨i, hbi⟩ := Option.ne_none_iff_exists'.mp hb
    obtain ⟨hi, hbinding⟩ := h.back b i hbi
    obtain ⟨-, b', hbinding', -, howner⟩ := h.forward i hi
    rw [hbinding] at hbinding'
    rw [hp, Option.some.inj hbinding']
    exact howner

end Links

theorem noNull_fault {hist : History} {fault : Fault} (h : Fault.nullMctp ∉ hist.faults)
    (hne : fault ≠ .nullMctp) :
    Fault.nullMctp ∉ (hist.fault fault).faults := by
  rw [History.fault, List.mem_append, List.mem_singleton, not_or]
  exact ⟨h, hne.symm⟩

theorem noNull_assert {hist : History} {fault : Fault} (h : Fault.nullMctp ∉ hist.faults)
    (holds : Bool) (hne : fault ≠ .nullMctp) :
    Fault.nullMctp ∉ (hist.assert holds fault).faults := by
  rw [History.assert]
  split
  · exact h
  · exact noNull_fault h hne

theorem IoAct.noNull {binding : MctpBinding} {s s' : BusIo δ} (h : IoAct binding s s')
    (hmctp : binding.mctp = some ()) (hs : Fault.nullMctp ∉ s.hist.faults) :
    Fault.nullMctp ∉ s'.hist.faults := by
  cases h with
  | deref =>
      rw [hmctp]
      exact hs
  | move _ _ _ _ _ _ _ hfaults =>
      rw [hfaults]
      exact hs
  | release => exact hs
  | hang => exact noNull_fault hs (by decide)

theorem Act.noNull {x y : Mctp δ × List Nat} (h : Act x y) (hn : 0 ≤ x.1.nBusses)
    (hlinks : x.1.Links) (hx : Fault.nullMctp ∉ x.1.hist.faults) :
    Fault.nullMctp ∉ y.1.hist.faults := by
  cases h with
  | note _ hfaults =>
      rw [Mctp.withHist, hfaults]
      exact hx
  | deref hp =>
      rw [hlinks.pointer hn hp]
      exact hx
  | nullBus => exact noNull_fault hx (by decide)
  | assertMtu => exact noNull_assert hx _ (by decide)
  | io hi hio => exact hio.noNull (hlinks.pointer hn (.inr (.inl ⟨_, hi, .inr rfl⟩))) hx
  | _ => exact hx

/-- **A call on linked busses follows no NULL pointer and leaves them linked.** -/
theorem Acts.linkSafe {x y : Mctp δ × List Nat} (h : Acts x y) (hn : 0 ≤ x.1.nBusses)
    (hx : LinkSafe x.1) : LinkSafe y.1 := by
  refine (h.invariant (P := fun z => 0 ≤ z.1.nBusses ∧ LinkSafe z.1) ?_ ⟨hn, hx⟩).2
  rintro z z' hact ⟨hnz, hz⟩
  have hsame := hact.sameLinks
  exact ⟨hsame.nBusses ▸ hnz, hz.links.of_sameLinks hsame, hact.noNull hnz hz.links hz.noNull⟩

/-! ### Setting up and taking down -/

inductive SetupOp where
  | register (b : Nat) (eid : UInt8)
  | bridge (b1 b2 : Nat)
  | unregister (b : Nat)
  | busRx (b : Nat) (pkt : MctpPktbuf)

def setupStep (env : Env δ) (w : Mctp δ) : SetupOp → Mctp δ
  | .register b eid => (mctpRegisterBus env w b eid).1
  | .bridge b1 b2 => (mctpBridgeBusses env w b1 b2).1
  | .unregister b => mctpUnregisterBus w b
  | .busRx b pkt => mctpBusRx env w b pkt

/-- Registration and bridging assert that there is no bus, and a packet comes from a binding that
has one. -/
def SetupOp.Permitted (w : Mctp δ) : SetupOp → Prop
  | .register _ _ => w.nBusses = 0
  | .bridge _ _ => w.nBusses = 0
  | .unregister _ => True
  | .busRx b _ => (w.bindings b).bus ≠ none

/-- No bridge, and a removal names the binding of every bus in use. -/
def SetupOp.Clean (w : Mctp δ) : SetupOp → Prop
  | .bridge _ _ => False
  | .unregister b => ∀ i : Fin 2, (i.val : Int) < w.nBusses → (w.busses i).binding = some b
  | _ => True

instance SetupOp.decidablePermitted (w : Mctp δ) : (op : SetupOp) → Decidable (op.Permitted w)
  | .register _ _ => inferInstanceAs (Decidable (w.nBusses = 0))
  | .bridge _ _ => inferInstanceAs (Decidable (w.nBusses = 0))
  | .unregister _ => inferInstanceAs (Decidable True)
  | .busRx b _ => inferInstanceAs (Decidable ((w.bindings b).bus ≠ none))

instance SetupOp.decidableClean (w : Mctp δ) : (op : SetupOp) → Decidable (op.Clean w)
  | .register _ _ => inferInstanceAs (Decidable True)
  | .bridge _ _ => inferInstanceAs (Decidable False)
  | .unregister b =>
      inferInstanceAs
        (Decidable (∀ i : Fin 2, (i.val : Int) < w.nBusses → (w.busses i).binding = some b))
  | .busRx _ _ => inferInstanceAs (Decidable True)

def StartsSucceed (env : Env δ) : Prop :=
  ∀ b start, env.start b = some start → ∀ dev, 0 ≤ (start dev).2.rc

section Calls

variable {env : Env δ} {w : Mctp δ}

theorem bindingStart_rc (hstart : StartsSucceed env) (w : Mctp δ) (b : Nat) :
    0 ≤ (bindingStart env w b).2 := by
  unfold bindingStart
  split <;> rename_i hcase
  · exact le_rfl
  · exact hstart b _ hcase w.dev

/-- Only the device and what the start of a binding calls can change. -/
theorem bindingStart_linkSafe {b : Nat} (hn : 0 ≤ w.nBusses) (h : LinkSafe w) :
    LinkSafe (bindingStart env w b).1 := by
  refine (bindingStart_invariant env (P := fun w => 0 ≤ w.nBusses ∧ LinkSafe w)
    (fun dev => ⟨hn, ?_⟩) ?_).2
  · exact ⟨h.links.of_sameLinks ⟨rfl, rfl, fun _ => rfl, fun _ => rfl⟩, h.noNull⟩
  · rintro w₁ enable ⟨hn₁, h₁⟩
    have hacts : Acts (w₁, []) (mctpBindingSetTxEnabled env w₁ b enable, []) :=
      mctpBindingSetTxEnabled_acts env []
    exact ⟨hacts.sameLinks.nBusses ▸ hn₁, hacts.linkSafe hn₁ h₁⟩

theorem Mctp.Links.unlinked (h : w.Links) (hn : w.nBusses = 0) (b : Nat) :
    (w.bindings b).bus = none := by
  rw [Option.eq_none_iff_forall_ne_some]
  intro i hb
  have hi := (h.back b i hb).1
  omega

theorem initBus_linkSafe (h : LinkSafe w) (hn : w.nBusses = 0) (b : Nat) (eid : UInt8) :
    LinkSafe (w.initBus b eid) where
  links := by
    have hbus : (w.initBus b eid).busses 0
        = { eid := eid, binding := some b, mctp := some () } := by
      simp [Mctp.initBus, Mctp.linkBinding, Mctp.setBinding, Mctp.setBus]
    have hbinding : (w.initBus b eid).bindings = Function.update w.bindings b
        { w.bindings b with bus := some 0, mctp := some () } := rfl
    have hone : (w.initBus b eid).nBusses = 1 := rfl
    refine ⟨fun i hi => ?_, fun b' i hb' => ?_⟩
    · have hzero : i = 0 := by omega
      rw [hzero, hbus, hbinding]
      exact ⟨rfl, b, rfl, by rw [Function.update_self], by rw [Function.update_self]⟩
    · rw [hbinding] at hb'
      by_cases hsame : b' = b
      · rw [hsame, Function.update_self] at hb'
        rw [← Option.some.inj hb', hbus, hone, hsame]
        exact ⟨by decide, rfl⟩
      · rw [Function.update_of_ne hsame, h.links.unlinked hn b'] at hb'
        cases hb'
  noNull := noNull_assert (noNull_assert h.noNull _ (by decide)) _ (by decide)

theorem mctpRegisterBus_linkSafe (hstart : StartsSucceed env) (h : LinkSafe w) (hn : w.nBusses = 0)
    (b : Nat) (eid : UInt8) :
    LinkSafe (mctpRegisterBus env w b eid).1 := by
  have hrc := bindingStart_rc hstart (w.initBus b eid) b
  have hstarted : LinkSafe (bindingStart env (w.initBus b eid) b).1 :=
    bindingStart_linkSafe (by decide : (0 : Int) ≤ 1) (initBus_linkSafe h hn b eid)
  unfold mctpRegisterBus
  dsimp only
  rw [if_neg (not_lt.mpr hrc)]
  exact hstarted

/-- Two busses, the first without its pointer to the instance. -/
def HalfLinked (w : Mctp δ) : Prop := w.nBusses = 2 ∧ (w.busses 0).mctp = none

theorem bindingStart_halfLinked {b : Nat} (h : HalfLinked w) :
    HalfLinked (bindingStart env w b).1 := by
  refine bindingStart_invariant env (P := HalfLinked) (fun dev => h) ?_
  rintro w₁ enable ⟨hn₁, hnull₁⟩
  have hacts : Acts (w₁, []) (mctpBindingSetTxEnabled env w₁ b enable, []) :=
    mctpBindingSetTxEnabled_acts env []
  exact ⟨hacts.sameLinks.nBusses.trans hn₁, (hacts.sameLinks.mctp 0).trans hnull₁⟩

theorem mctpBridgeBusses_halfLinked (b1 b2 : Nat) :
    HalfLinked (mctpBridgeBusses env w b1 b2).1 := by
  unfold mctpBridgeBusses
  dsimp only
  split
  · apply bindingStart_halfLinked
    exact ⟨rfl, by simp [Mctp.linkBinding, Mctp.setBinding, Mctp.setBus]⟩
  · show HalfLinked (bindingStart env _ b2).1
    apply bindingStart_halfLinked
    apply bindingStart_halfLinked
    exact ⟨rfl, by simp [Mctp.linkBinding, Mctp.setBinding, Mctp.setBus]⟩

theorem HalfLinked.not_links (h : HalfLinked w) : ¬ w.Links := by
  intro hlinks
  have hlt : ((0 : Fin 2).val : Int) < w.nBusses := by
    rw [h.1]
    decide
  have hmctp := (hlinks.forward 0 hlt).1
  rw [h.2] at hmctp
  cases hmctp

theorem mctpUnregisterBus_links_iff (h : w.Links) (b : Nat) :
    (mctpUnregisterBus w b).Links ↔ ∀ i : Fin 2, (i.val : Int) < w.nBusses →
      (w.busses i).binding = some b := by
  have hbindings : (mctpUnregisterBus w b).bindings = Function.update w.bindings b
      { w.bindings b with mctp := none, bus := none } := rfl
  have hzero : (mctpUnregisterBus w b).nBusses = 0 := rfl
  constructor
  · intro hafter i hi
    obtain ⟨-, b', hbinding, hback, -⟩ := h.forward i hi
    have hnone := hafter.unlinked hzero b'
    by_cases hsame : b' = b
    · rw [← hsame]
      exact hbinding
    · rw [hbindings, Function.update_of_ne hsame, hback] at hnone
      cases hnone
  · refine fun hall => ⟨fun i hi => ?_, fun b' i hb' => ?_⟩
    · omega
    · rw [hbindings] at hb'
      by_cases hsame : b' = b
      · rw [hsame, Function.update_self] at hb'
        cases hb'
      · rw [Function.update_of_ne hsame] at hb'
        obtain ⟨hi, hbinding⟩ := h.back b' i hb'
        rw [hall i hi] at hbinding
        exact absurd (Option.some.inj hbinding).symm hsame

theorem setupStep_nBusses_nonneg (hstart : StartsSucceed env) (op : SetupOp) (hn : 0 ≤ w.nBusses) :
    0 ≤ (setupStep env w op).nBusses := by
  cases op with
  | register b eid =>
      have hrc := bindingStart_rc hstart (w.initBus b eid) b
      have hone : (bindingStart env (w.initBus b eid) b).1.nBusses = 1 := by
        refine bindingStart_invariant env (P := fun w => w.nBusses = 1) (fun dev => rfl) ?_
        intro w₁ enable hn₁
        exact (mctpBindingSetTxEnabled_acts env (w := w₁) (b := b) []).sameLinks.nBusses.trans hn₁
      unfold setupStep mctpRegisterBus
      dsimp only
      rw [if_neg (not_lt.mpr hrc), hone]
      decide
  | bridge b1 b2 =>
      have hhalf : HalfLinked (setupStep env w (.bridge b1 b2)) := mctpBridgeBusses_halfLinked b1 b2
      rw [hhalf.1]
      decide
  | unregister b => exact le_rfl
  | busRx b pkt =>
      have hacts : Acts (w, []) (setupStep env w (.busRx b pkt), []) := mctpBusRx_acts env []
      rw [hacts.sameLinks.nBusses]
      exact hn

/-- A call keeps the links in order exactly when it is not a bridge and removes no binding but the
one in use. -/
theorem setupStep_linkSafe_iff (hstart : StartsSucceed env) (op : SetupOp) (hn : 0 ≤ w.nBusses)
    (hop : op.Permitted w) (h : LinkSafe w) : LinkSafe (setupStep env w op) ↔ op.Clean w := by
  cases op with
  | register b eid => exact ⟨fun _ => trivial, fun _ => mctpRegisterBus_linkSafe hstart h hop b eid⟩
  | bridge b1 b2 =>
      have hhalf : HalfLinked (setupStep env w (.bridge b1 b2)) := mctpBridgeBusses_halfLinked b1 b2
      exact ⟨fun hsafe => hhalf.not_links hsafe.links, fun hclean => hclean.elim⟩
  | unregister b =>
      have hiff := mctpUnregisterBus_links_iff h.links b
      exact ⟨fun hsafe => hiff.mp hsafe.links, fun hclean => ⟨hiff.mpr hclean, h.noNull⟩⟩
  | busRx b pkt =>
      have hacts : Acts (w, []) (setupStep env w (.busRx b pkt), []) := mctpBusRx_acts env []
      exact ⟨fun _ => trivial, fun _ => hacts.linkSafe hn h⟩

end Calls

/-- An instance without busses, whose bindings are on none. -/
structure Unlinked (w : Mctp δ) : Prop where
  nBusses : w.nBusses = 0
  bindings : ∀ b, (w.bindings b).bus = none
  faults : w.hist.faults = []

theorem Unlinked.linkSafe {w : Mctp δ} (h : Unlinked w) : LinkSafe w where
  links := by
    refine ⟨fun i hi => ?_, fun b i hb => ?_⟩
    · rw [h.nBusses] at hi
      omega
    · rw [h.bindings b] at hb
      cases hb
  noNull := by
    rw [h.faults]
    exact List.not_mem_nil

/-- **Busses and bindings stay linked, and no packet is received through a NULL instance, exactly in
the runs without a bridge whose removals name the binding in use.** -/
theorem setupRun_linkSafe_iff {env : Env δ} (hstart : StartsSucceed env) {w : Mctp δ}
    (hw : Unlinked w) (ops : List SetupOp)
    (hops : Run.Each (setupStep env) (fun w op => op.Permitted w) w ops) :
    (∀ pre, pre <+: ops → LinkSafe (pre.foldl (setupStep env) w)) ↔
      Run.Each (setupStep env) (fun w op => op.Clean w) w ops :=
  Run.forall_along_iff_each (R := fun w => 0 ≤ w.nBusses ∧ LinkSafe w) (fun _ h => h.2)
    (fun _ op hop h => (setupStep_linkSafe_iff hstart op h.1 hop h.2).mp)
    (fun _ op hop h hq =>
      ⟨setupStep_nBusses_nonneg hstart op h.1,
        (setupStep_linkSafe_iff hstart op h.1 hop h.2).mpr hq⟩)
    hops ⟨le_of_eq hw.nBusses.symm, hw.linkSafe⟩

/-- Every allocation succeeds, every packet is taken, and no binding has anything to start. -/
def plainEnv : Env Unit :=
  ⟨fun _ => true, fun _ => true, fun _ dev _ => (dev, ⟨0, false⟩), fun _ => none⟩

theorem plainEnv_startsSucceed : StartsSucceed plainEnv := by
  intro b start h
  cases h

/-- Bindings of the smallest packets, on no bus. -/
def plainInstance : Mctp Unit := mctpSetup (fun _ => smallBinding) 0 ()

theorem plainInstance_unlinked : Unlinked plainInstance := ⟨rfl, fun _ => rfl, rfl⟩

/-- One byte from EID 8 to EID 9, with these flags and sequence number. -/
def oneByte (flagsSeqTag : UInt8) : MctpPktbuf := ⟨0, 5, 68, 0, false, [1, 9, 8, flagsSeqTag, 7]⟩

theorem setupRun_linkSafe_iff_two_bindings :
    StartsSucceed plainEnv ∧ Unlinked plainInstance ∧
      ∀ pre, pre <+: [SetupOp.register 0 9, .busRx 0 (oneByte 0x88), .unregister 0, .register 1 9,
        .busRx 1 (oneByte 0x58)] →
      LinkSafe (pre.foldl (setupStep plainEnv) plainInstance) :=
  ⟨plainEnv_startsSucceed, plainInstance_unlinked,
    (setupRun_linkSafe_iff plainEnv_startsSucceed plainInstance_unlinked _ (by decide)).mpr
    (by decide)⟩

/-- A message of two packets received by a bridge: the context is dropped through a NULL pointer. -/
theorem setupRun_bridge_null :
    Run.Each (setupStep plainEnv) (fun w op => op.Permitted w) plainInstance
        [.bridge 0 1, .busRx 0 (oneByte 0x88), .busRx 0 (oneByte 0x58)] ∧
      ((setupStep plainEnv plainInstance (.bridge 0 1)).busses 0).mctp = none ∧
      Fault.nullMctp ∈ ([SetupOp.bridge 0 1, .busRx 0 (oneByte 0x88), .busRx 0 (oneByte 0x58)].foldl
        (setupStep plainEnv) plainInstance).hist.faults ∧
      ¬ ∀ pre, pre <+: [SetupOp.bridge 0 1, .busRx 0 (oneByte 0x88), .busRx 0 (oneByte 0x58)] →
        LinkSafe (pre.foldl (setupStep plainEnv) plainInstance) := by
  have hnull :
    Fault.nullMctp ∈ ([SetupOp.bridge 0 1, .busRx 0 (oneByte 0x88), .busRx 0 (oneByte 0x58)].foldl
      (setupStep plainEnv) plainInstance).hist.faults := by decide
  exact ⟨by decide, rfl, hnull, fun hall => (hall _ List.prefix_rfl).noNull hnull⟩

end LibMctp
