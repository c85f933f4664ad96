import LibMctp.Proof.Instance.Linkage

/-!
# A registration that fails

`mctp_register_bus` and `mctp_bridge_busses` link the bindings before they start them. Where a start
fails, the first takes back the bus but not the pointer from the binding to the instance, and the
second takes back nothing.
-/

namespace LibMctp

variable {δ : Type}

/-- There is no bus, and none of these bindings points at one or at the instance. -/
structure NoTrace (w : Mctp δ) (bs : List Nat) : Prop where
  nBusses : w.nBusses = 0
  unlinked : ∀ b ∈ bs, (w.bindings b).bus = none ∧ (w.bindings b).mctp = none

/-- What the start of a binding makes of its device, and what it answers. -/
def startResult (env : Env δ) (dev : δ) (b : Nat) : δ × Int :=
  match env.start b with
  | none => (dev, 0)
  | some start => ((start dev).1, (start dev).2.rc)

section Start

variable (env : Env δ) {w : Mctp δ}

theorem bindingStart_answer (w : Mctp δ) (b : Nat) :
    (bindingStart env w b).2 = (startResult env w.dev b).2 := by
  unfold bindingStart startResult
  cases env.start b with
  | none => rfl
  | some start => rfl

/-- No bus has a message to send. -/
def Mctp.NoneQueued (w : Mctp δ) : Prop := ∀ i, (w.busses i).txMsg = none

theorem idle_setState (h : w.NoneQueued) (i : Fin 2) (state : MctpBusState) :
    (w.setBus i { w.busses i with state := state }).NoneQueued := by
  intro k
  by_cases hk : k = i
  · subst hk
    simpa [Mctp.setBus] using h k
  · simpa [Mctp.setBus, hk] using h k

/-- Enabling and disabling a bus without a message sends nothing. -/
theorem mctpBindingSetTxEnabled_idle (h : w.NoneQueued) (b : Nat) (enable : Bool) :
    (mctpBindingSetTxEnabled env w b enable).NoneQueued ∧
      (mctpBindingSetTxEnabled env w b enable).dev = w.dev := by
  unfold mctpBindingSetTxEnabled
  split
  · exact ⟨h, rfl⟩
  · rename_i i _
    dsimp only
    split
    · split
      · exact ⟨h, rfl⟩
      · split
        · exact ⟨h, rfl⟩
        · exact ⟨idle_setState h i _, rfl⟩
    · split
      · exact ⟨h, rfl⟩
      · exact ⟨idle_setState h i _, rfl⟩
    · split
      · exact ⟨h, rfl⟩
      · have hset := idle_setState h i .txEnabled
        rw [mctpSendTxQueue_of_idle env (hset i)]
        exact ⟨hset, rfl⟩

theorem bindingStart_dev (h : w.NoneQueued) (b : Nat) :
    (bindingStart env w b).1.dev = (startResult env w.dev b).1 := by
  have hfold : ∀ (enables : List Bool) (w₁ : Mctp δ), w₁.NoneQueued →
      (enables.foldl (fun w enable => mctpBindingSetTxEnabled env w b enable) w₁).dev = w₁.dev := by
    intro enables
    induction enables with
    | nil => exact fun w₁ _ => rfl
    | cons enable enables ih =>
        intro w₁ hw₁
        obtain ⟨hidle, hdev⟩ := mctpBindingSetTxEnabled_idle env hw₁ b enable
        exact (ih _ hidle).trans hdev
  unfold bindingStart startResult
  cases env.start b with
  | none => rfl
  | some start => exact hfold _ _ h

/-- Starting a binding changes neither the bindings nor the number of busses. -/
theorem bindingStart_links (w : Mctp δ) (b : Nat) :
    (bindingStart env w b).1.bindings = w.bindings ∧
      (bindingStart env w b).1.nBusses = w.nBusses := by
  refine bindingStart_invariant env
    (P := fun w' => w'.bindings = w.bindings ∧ w'.nBusses = w.nBusses) (fun _ => ⟨rfl, rfl⟩) ?_
  rintro w₁ enable ⟨hbindings, hn⟩
  have honly := mctpBindingSetTxEnabled_txOnly env w₁ b enable
  exact ⟨honly.bindings.trans hbindings, honly.nBusses.trans hn⟩

end Start

/-! ### The two registrations -/

section Register

variable (env : Env δ) (w : Mctp δ)

theorem mctpRegisterBus_answer (b : Nat) (eid : UInt8) :
    (mctpRegisterBus env w b eid).2 = (startResult env w.dev b).2 := by
  have hanswer := bindingStart_answer env (w.initBus b eid) b
  unfold mctpRegisterBus
  dsimp only
  split
  · exact hanswer
  · exact hanswer

/-- A registration that fails leaves the binding pointing at the instance. -/
theorem mctpRegisterBus_failed {b : Nat} {eid : UInt8} (h : (mctpRegisterBus env w b eid).2 < 0) :
    (mctpRegisterBus env w b eid).1.nBusses = 0 ∧
      ((mctpRegisterBus env w b eid).1.bindings b).bus = none ∧
      ((mctpRegisterBus env w b eid).1.bindings b).mctp = some () := by
  have hlinks := (bindingStart_links env (w.initBus b eid) b).1
  have hanswer : (bindingStart env (w.initBus b eid) b).2 = (startResult env w.dev b).2 :=
    bindingStart_answer env _ b
  rw [mctpRegisterBus_answer, ← hanswer] at h
  unfold mctpRegisterBus
  dsimp only
  rw [if_pos h]
  have hmctp : ((w.initBus b eid).bindings b).mctp = some () := by
    simp [Mctp.initBus, Mctp.linkBinding, Mctp.setBinding, Mctp.setBus]
  refine ⟨rfl, ?_, ?_⟩
  · simp [Mctp.setBinding]
  · simpa [Mctp.setBinding, hlinks] using hmctp

/-- The instance with two busses, before the bindings are started. -/
def Mctp.initBridge (w : Mctp δ) (b1 b2 : Nat) : Mctp δ :=
  let hist := (w.hist.assert (w.bindings b1).txStorage .assertTxStorage).assert
    (w.bindings b2).txStorage .assertTxStorage
  let hist := hist.assert (decide (w.nBusses = 0)) .assertBusses
  let w := { w with nBusses := 2, hist := hist, busLog := fun _ => {} }
  let w := (w.setBus 0 { binding := some b1 }).linkBinding b1 0
  let w := (w.setBus 1 { binding := some b2 }).linkBinding b2 1
  { w with routePolicy := .bridge }

theorem mctpBridgeBusses_eq (b1 b2 : Nat) :
    mctpBridgeBusses env w b1 b2
      = if (bindingStart env (w.initBridge b1 b2) b1).2 < 0 then
          bindingStart env (w.initBridge b1 b2) b1
        else ((bindingStart env (bindingStart env (w.initBridge b1 b2) b1).1 b2).1,
          if (env.start b2).isSome then
            (bindingStart env (bindingStart env (w.initBridge b1 b2) b1).1 b2).2
          else (bindingStart env (w.initBridge b1 b2) b1).2) := rfl

theorem initBridge_idle (b1 b2 : Nat) :
    (w.initBridge b1 b2).NoneQueued := Fin.forall_fin_two.mpr ⟨rfl, rfl⟩

/-- Where the second binding has no start, the answer is that of the first. -/
theorem mctpBridgeBusses_answer (b1 b2 : Nat) :
    (mctpBridgeBusses env w b1 b2).2
      = if (startResult env w.dev b1).2 < 0 ∨ env.start b2 = none then (startResult env w.dev b1).2
        else (startResult env (startResult env w.dev b1).1 b2).2 := by
  have hfirst : (bindingStart env (w.initBridge b1 b2) b1).2 = (startResult env w.dev b1).2 :=
    bindingStart_answer env _ b1
  have hdev : (bindingStart env (w.initBridge b1 b2) b1).1.dev = (startResult env w.dev b1).1 :=
    bindingStart_dev env (initBridge_idle w b1 b2) b1
  rw [mctpBridgeBusses_eq, hfirst]
  by_cases hneg : (startResult env w.dev b1).2 < 0
  · rw [if_pos hneg, if_pos (.inl hneg), hfirst]
  · rw [if_neg hneg, bindingStart_answer, hdev]
    cases hstart : env.start b2 with
    | none => simp
    | some start => simp [hneg]

theorem startResult_none {b : Nat} (h : env.start b = none) (dev : δ) :
    startResult env dev b = (dev, 0) := by
  simp [startResult, h]

/-- Bridging leaves two busses however it ends. -/
theorem mctpBridgeBusses_nBusses (b1 b2 : Nat) : (mctpBridgeBusses env w b1 b2).1.nBusses = 2 := by
  have hfirst := (bindingStart_links env (w.initBridge b1 b2) b1).2
  rw [mctpBridgeBusses_eq]
  split
  · exact hfirst
  · exact (bindingStart_links env _ b2).2.trans hfirst

/-- **When a registration leaves no trace**: not where it fails. -/
theorem registration_noTrace_iff (b b1 b2 : Nat) (eid : UInt8) :
    (((mctpRegisterBus env w b eid).2 < 0 → NoTrace (mctpRegisterBus env w b eid).1 [b]) ↔
      0 ≤ (startResult env w.dev b).2) ∧
      (((mctpBridgeBusses env w b1 b2).2 < 0 → NoTrace (mctpBridgeBusses env w b1 b2).1 [b1, b2]) ↔
        0 ≤ (startResult env w.dev b1).2 ∧
          0 ≤ (startResult env (startResult env w.dev b1).1 b2).2) := by
  constructor
  · constructor
    · intro h
      by_contra hneg
      rw [not_le, ← mctpRegisterBus_answer env w b eid] at hneg
      have hmctp := ((h hneg).unlinked b List.mem_cons_self).2
      rw [(mctpRegisterBus_failed env w hneg).2.2] at hmctp
      cases hmctp
    · intro hok hneg
      rw [mctpRegisterBus_answer] at hneg
      omega
  · constructor
    · intro h
      have hanswer : ¬ (mctpBridgeBusses env w b1 b2).2 < 0 := by
        intro hneg
        have hn := (h hneg).nBusses
        rw [mctpBridgeBusses_nBusses] at hn
        cases hn
      rw [mctpBridgeBusses_answer] at hanswer
      split at hanswer
      · rename_i hcase
        rcases hcase with hfirst | hnone
        · contradiction
        · rw [startResult_none env hnone]
          exact ⟨not_lt.mp hanswer, le_rfl⟩
      · rename_i hcase
        exact ⟨not_lt.mp fun hneg => hcase (.inl hneg), not_lt.mp hanswer⟩
    · rintro ⟨hfirst, hsecond⟩ hneg
      rw [mctpBridgeBusses_answer] at hneg
      split at hneg <;> omega

end Register

/-- A binding that enables its bus, and then fails to start. -/
def failingEnv : Env Unit :=
  { plainEnv with start := fun _ => some fun dev => (dev, ⟨-eio, [true]⟩) }

/-- The binding of the failed registration still points at the instance. After the failed bridging a
message is sent to the bus, and bridging again is not allowed. -/
theorem registration_not_noTrace :
    (mctpRegisterBus failingEnv plainInstance 0 8).2 = -eio ∧
      ((mctpRegisterBus failingEnv plainInstance 0 8).1.bindings 0).mctp = some () ∧
      ¬ NoTrace (mctpRegisterBus failingEnv plainInstance 0 8).1 [0] ∧
      (mctpBridgeBusses failingEnv plainInstance 0 1).2 = -eio ∧
      ((mctpMessageTx failingEnv (mctpBridgeBusses failingEnv plainInstance 0 1).1 9 true 1
        [7]).1.busLog 0).accepted
        = [⟨0, 9, true, 1, [7]⟩] ∧
      Fault.assertBusses ∈ (mctpBridgeBusses failingEnv
        (mctpBridgeBusses failingEnv plainInstance 0 1).1 0 1).1.hist.faults ∧
      ¬ NoTrace (mctpBridgeBusses failingEnv plainInstance 0 1).1 [0, 1] := by
  refine ⟨by decide, by decide, fun h => ?_, by decide, by decide, by decide, fun h => ?_⟩
  · have hmctp := (h.unlinked 0 List.mem_cons_self).2
    exact absurd hmctp (by decide)
  · exact absurd h.nBusses (by decide)

end LibMctp
