import LibMctp.Lib.Run
import LibMctp.Proof.Transmit.Queue

/-!
# Errors of a binding

An error other than `-EBUSY` ends the transmit loop after the packet that met it, and the message
stays queued unless that packet was its last. A bus left so is enabled, and no later call restarts
the loop: it is stuck. `txRun_notWedged_iff` says that this is the only way to get stuck.
-/

namespace LibMctp

open Fragment

variable {δ : Type}

/-- The last packet given to the binding was answered with `-EBUSY`. -/
def BusLog.LastBusy (log : BusLog) : Prop := ∃ p, log.txed.getLast? = some p ∧ p.2.rc = -ebusy

/-- An enabled bus holds a message only because its binding was busy. -/
def Settled (bus : MctpBus) (log : BusLog) : Prop :=
  bus.state = .txEnabled → bus.txMsg.isSome = true → log.LastBusy

/-- An answer that does not leave a message behind on an enabled bus: no hard error, or one for the
last packet of a message, or one with which the binding disabled the bus. -/
def Harmless (p : MctpPktbuf × TxResult) : Prop :=
  p.2.rc = 0 ∨ p.2.rc = -ebusy ∨ p.2.disables = true ∨
    (mctpPktbufHdr p.1).flagsSeqTag &&& mctpHdrFlagEom ≠ 0

instance : DecidablePred Harmless := fun _ => inferInstanceAs (Decidable (_ ∨ _ ∨ _ ∨ _))

def BusLog.Harmless (log : BusLog) : Prop := ∀ p ∈ log.txed, LibMctp.Harmless p

instance (log : BusLog) : Decidable log.Harmless :=
  inferInstanceAs (Decidable (∀ p ∈ log.txed, LibMctp.Harmless p))

section Loop

variable {env : Env δ} {b n : Nat} {binding : MctpBinding} {s s' t : BusIo δ}

theorem Attempt.harmless_iff {f : Frag UInt8} {fs : List (Frag UInt8)} {r : TxResult}
    (h : Attempt env b binding n s f fs r s' t) (hzero : r.rc ≠ 0) (hbusy : r.rc ≠ -ebusy) :
    Harmless (fragPkt binding s.bus.label f, r) ↔ r.disables = true ∨ f.last = true := by
  unfold Harmless
  rw [mctpPktbufHdr_fragPkt]
  dsimp only
  rw [fragPkt_eom h.tag h.seq]
  constructor
  · rintro (hz | hb | hd | hl)
    · exact absurd hz hzero
    · exact absurd hb hbusy
    · exact .inl hd
    · exact .inr hl
  · rintro (hd | hl)
    · exact .inr (.inr (.inl hd))
    · exact .inr (.inr (.inr hl))

theorem Sends.txed_prefix (h : Sends env b binding n s s') : s.log.txed <+: s'.log.txed := by
  induction h with
  | idle => exact List.prefix_rfl
  | busy hattempt _ =>
      rw [hattempt.log]
      exact List.prefix_append _ _
  | fail hattempt _ _ =>
      rw [hattempt.done_log, hattempt.log]
      exact List.prefix_append _ _
  | more hattempt _ _ ih =>
      refine List.IsPrefix.trans ?_ ih
      rw [hattempt.done_log, hattempt.log]
      exact List.prefix_append _ _

/-- Where every answer is harmless, the loop leaves no message behind. -/
theorem Sends.settled (h : Sends env b binding n s s') (hharmless : s'.log.Harmless) :
    Settled s'.bus s'.log := by
  induction h with
  | idle hidle =>
      intro henabled hmsg
      cases hidle with
      | inl hstate => exact absurd henabled hstate
      | inr hnone => simp [hnone] at hmsg
  | @busy n s s' t f fs r hattempt hrc =>
      intro _ _
      refine ⟨(fragPkt binding s.bus.label f, r), ?_, hrc⟩
      rw [hattempt.log]
      exact List.getLast?_concat ..
  | @fail n s s' t f fs r hattempt hzero hbusy =>
      intro henabled hmsg
      have hlog : (fragPkt binding s.bus.label f, r) ∈ t.log.txed := by
        rw [hattempt.done_log, hattempt.log]
        exact List.mem_append_right _ List.mem_cons_self
      have hentry := hharmless _ hlog
      rw [hattempt.harmless_iff hzero hbusy] at hentry
      cases hentry with
      | inl hdisables =>
          rw [hattempt.done_state, hattempt.state, if_pos hdisables] at henabled
          cases henabled
      | inr hlast =>
          have hnone := hattempt.done_msg
          rw [hlast, Option.isNone_iff_eq_none] at hnone
          simp [hnone] at hmsg
  | more _ _ _ ih => exact ih hharmless

/-- Where the loop leaves no message behind, every answer it got was harmless. -/
theorem Sends.harmless (h : Sends env b binding n s s') (hsettled : Settled s'.bus s'.log)
    (hs : s.log.Harmless) :
    s'.log.Harmless := by
  induction h with
  | idle => exact hs
  | @busy n s s' t f fs r hattempt hrc =>
      intro p hp
      rw [hattempt.log, List.mem_append, List.mem_singleton] at hp
      rcases hp with hold | rfl
      · exact hs p hold
      · exact .inr (.inl hrc)
  | @fail n s s' t f fs r hattempt hzero hbusy =>
      intro p hp
      have htxed : t.log.txed = s.log.txed ++ [(fragPkt binding s.bus.label f, r)] := by
        rw [hattempt.done_log, hattempt.log]
      rw [htxed, List.mem_append, List.mem_singleton] at hp
      rcases hp with hold | rfl
      · exact hs p hold
      · rw [hattempt.harmless_iff hzero hbusy]
        -- otherwise the bus is enabled and holds the message, and the last answer was the error
        by_contra hstuck
        rw [not_or, Bool.not_eq_true, Bool.not_eq_true] at hstuck
        have henabled : t.bus.state = .txEnabled := by
          rw [hattempt.done_state, hattempt.state, hstuck.1]
          rfl
        have hmsg : t.bus.txMsg.isSome = true := by
          have hnone := hattempt.done_msg
          rw [hstuck.2] at hnone
          simpa using hnone
        obtain ⟨p, hlast, hrc⟩ := hsettled henabled hmsg
        rw [htxed, List.getLast?_concat] at hlast
        rw [← Option.some.inj hlast] at hrc
        exact hbusy hrc
  | @more n s s' t u f fs r hattempt hzero _ ih =>
      refine ih hsettled fun p hp => ?_
      rw [hattempt.done_log, hattempt.log, List.mem_append, List.mem_singleton] at hp
      rcases hp with hold | rfl
      · exact hs p hold
      · exact .inl hzero

theorem Sends.ok (h : Sends env b binding n s s') (hok : s.bus.Ok) (hseq : s.bus.txSeq.toNat < 4) :
    s'.bus.Ok ∧ s'.bus.txSeq.toNat < 4 := by
  induction h with
  | idle => exact ⟨hok, hseq⟩
  | busy hattempt _ =>
      rw [hattempt.kept_seq]
      exact ⟨hattempt.kept_ok, hseq⟩
  | fail hattempt _ _ =>
      rw [hattempt.done_seq]
      exact ⟨hattempt.done_ok, Nat.mod_lt _ (by decide)⟩
  | more hattempt _ _ ih =>
      refine ih hattempt.done_ok ?_
      rw [hattempt.done_seq]
      exact Nat.mod_lt _ (by decide)

theorem Sends.state_ne (h : Sends env b binding n s s') (hs : s.bus.state ≠ .constructed) :
    s'.bus.state ≠ .constructed := by
  have hanswer : ∀ disables : Bool,
      (if disables then MctpBusState.txDisabled else .txEnabled) ≠ .constructed := by
    decide
  induction h with
  | idle => exact hs
  | busy hattempt _ =>
      rw [hattempt.state]
      exact hanswer _
  | fail hattempt _ _ =>
      rw [hattempt.done_state, hattempt.state]
      exact hanswer _
  | more hattempt _ _ ih =>
      refine ih ?_
      rw [hattempt.done_state, hattempt.state]
      exact hanswer _

end Loop

/-! ### Runs -/

/-- What every call keeps, whatever the binding answers. -/
structure ErrInv (b : Nat) (binding : MctpBinding) (w : Mctp δ) : Prop where
  linked : Linked w b binding
  ok : (w.busses 0).Ok
  seq : (w.busses 0).txSeq.toNat < 4
  constructed : (w.busses 0).state = .constructed → (w.busses 0).txMsg = none
  size : (w.busses 0).state ≠ .constructed → mctpPacketSize mctpBtu ≤ binding.pktSize

/-- What one call does to the invariant, to the packets given to the binding, and to the bus being
stuck. -/
structure ErrStep (b : Nat) (binding : MctpBinding) (w w' : Mctp δ) : Prop where
  inv : ErrInv b binding w'
  txed : (w.busLog 0).txed <+: (w'.busLog 0).txed
  settled : (w'.busLog 0).Harmless → Settled (w.busses 0) (w.busLog 0) →
    Settled (w'.busses 0) (w'.busLog 0)
  harmless : Settled (w'.busses 0) (w'.busLog 0) → (w.busLog 0).Harmless → (w'.busLog 0).Harmless

section Calls

variable {env : Env δ} {b : Nat} {binding : MctpBinding} {w w' : Mctp δ}

theorem ErrInv.chunk_pos (h : ErrInv b binding w) (hstate : (w.busses 0).state ≠ .constructed) :
    0 < binding.chunk := by
  have hsize := h.size hstate
  unfold mctpPacketSize mctpBtu at hsize
  unfold MctpBinding.chunk
  omega

theorem ErrInv.of_nothingSent (h : ErrInv b binding w) (hsame : SameSetup env w w')
    (hsent : NothingSent w w') :
    ErrStep b binding w w' := by
  refine ⟨⟨h.linked.of_sameSetup hsame, ?_, ?_, ?_, ?_⟩, ?_, ?_, ?_⟩ <;>
    simp only [hsent.busses, hsent.busLog]
  · exact h.ok
  · exact h.seq
  · exact h.constructed
  · exact h.size
  · exact List.prefix_rfl
  · exact fun _ hsettled => hsettled
  · exact fun _ hharmless => hharmless

/-- The loop decides anew whether the bus is stuck, after a change that gave the binding no
packet. -/
theorem ErrInv.sendTxQueue (h : ErrInv b binding w')
    (htxed : (w'.busLog 0).txed = (w.busLog 0).txed) (hstate : (w'.busses 0).state ≠ .constructed) :
    ErrStep b binding w (mctpSendTxQueue env w' 0) := by
  have hbinding := h.linked.busBinding
  have hseq : (w'.busses 0).txSeq.toNat = (w'.busses 0).txSeq.toNat % 4 :=
    (Nat.mod_eq_of_lt h.seq).symm
  obtain ⟨s', hsends, hsent⟩ :=
    mctpSendTxQueue_sends env w' 0 (by rw [hbinding]; exact h.chunk_pos hstate) h.ok hseq
  rw [hbinding, h.linked.bus] at hsends
  obtain ⟨hok, hseq'⟩ := hsends.ok h.ok h.seq
  have hstate' := hsends.state_ne hstate
  have hlinked := h.linked.of_sameSetup (mctpSendTxQueue_txOnly env w' 0).toSameSetup
  have hbus : (mctpSendTxQueue env w' 0).busses 0 = s'.bus := by
    rw [hsent]
    simp [Mctp.putBusIo]
  have hlog : (mctpSendTxQueue env w' 0).busLog 0 = s'.log := by
    rw [hsent]
    simp [Mctp.putBusIo]
  refine ⟨⟨hlinked, ?_, ?_, ?_, ?_⟩, ?_, ?_, ?_⟩ <;> simp only [hbus, hlog]
  · exact hok
  · exact hseq'
  · exact fun hc => absurd hc hstate'
  · exact fun _ => h.size hstate
  · rw [← htxed]
    exact hsends.txed_prefix
  · exact fun hharmless _ => hsends.settled hharmless
  · intro hsettled hharmless
    refine hsends.harmless hsettled fun p hp => hharmless p ?_
    rw [← htxed]
    exact hp

theorem ErrInv.taken (h : ErrInv b binding w) {msg : Message} (htaken : TxTaken env w 0 msg w') :
    ErrStep b binding w w' := by
  obtain ⟨w₁, buf, hsent, honly, hbuf, rfl⟩ := htaken.sent
  have hlinked := h.linked.of_sameSetup
    (honly.toSameSetup.trans
      (txOnly_take env w₁ 0 msg.src msg.dest msg.tagOwner msg.tag buf msg.bytes.length).toSameSetup)
  have hbus : (w₁.take 0 msg.src msg.dest msg.tagOwner msg.tag buf msg.bytes.length).busses 0
      = (w.busses 0).take msg.src msg.dest msg.tagOwner msg.tag buf msg.bytes.length := by
    simp [Mctp.take, hsent.busses]
  have hlog : ((w₁.take 0 msg.src msg.dest msg.tagOwner msg.tag buf msg.bytes.length).busLog 0).txed
      = (w.busLog 0).txed := by
    simp [Mctp.take, BusLog.accept, hsent.busLog]
  refine ErrInv.sendTxQueue ⟨hlinked, ?_, ?_, ?_, ?_⟩ hlog ?_ <;> rw [hbus]
  · refine ⟨?_, fun _ _ => .inl rfl, fun _ _ => tag_lt_of_mask htaken.tag⟩
    intro buf' hbuf'
    rw [← Option.some.inj hbuf', hbuf]
    rfl
  · exact h.seq
  · exact fun hc => absurd hc htaken.state
  · exact h.size
  · exact htaken.state

theorem ErrInv.setTxEnabled (h : ErrInv b binding w) (enable : Bool) :
    ErrStep b binding w (mctpBindingSetTxEnabled env w b enable) := by
  have hlinked : ∀ state, Linked (w.setBus 0 { w.busses 0 with state := state }) b binding :=
    fun state =>
    h.linked.of_sameSetup (txOnly_setState env w 0 state).toSameSetup
  have hbus : ∀ state, (w.setBus 0 { w.busses 0 with state := state }).busses 0
      = { w.busses 0 with state := state } := fun state => by simp [Mctp.setBus]
  obtain ⟨state, hw', henabled, hsize, hconstructed⟩ | ⟨hdisabled, hw'⟩ :=
    mctpBindingSetTxEnabled_cases env h.linked enable
  · rw [hw']
    refine ⟨⟨hlinked state, ?_, ?_, ?_, ?_⟩, List.prefix_rfl, ?_, fun _ hharmless => hharmless⟩
    · rw [hbus]
      exact ⟨h.ok.length, h.ok.pos, h.ok.tag⟩
    · rw [hbus]
      exact h.seq
    · rw [hbus]
      exact fun hc => h.constructed (hconstructed hc)
    · rw [hbus]
      intro hne
      by_cases hc : (w.busses 0).state = .constructed
      · exact hsize hc hne
      · exact h.size hc
    · rw [hbus]
      intro _ hsettled hstate hmsg
      -- a bus that was not disabled was enabled already, or had never taken a message
      cases hold : (w.busses 0).state with
      | constructed =>
          have hnone := h.constructed hold
          simp [hnone] at hmsg
      | txEnabled => exact hsettled hold hmsg
      | txDisabled => exact absurd hold (henabled hstate)
  · rw [hw']
    have hne : (w.busses 0).state ≠ .constructed := by
      rw [hdisabled]
      decide
    refine ErrInv.sendTxQueue ⟨hlinked _, ?_, ?_, ?_, ?_⟩ rfl ?_ <;> rw [hbus]
    · exact ⟨h.ok.length, h.ok.pos, h.ok.tag⟩
    · exact h.seq
    · exact fun hc => by cases hc
    · exact fun _ => h.size hne
    · exact fun hc => by cases hc

theorem ErrInv.step {st : Mctp δ × List Message} (h : ErrInv b binding st.1) (op : TxOp) :
    ErrStep b binding st.1 (txStep env b st op).1 := by
  cases op with
  | setTxEnabled enable => exact h.setTxEnabled enable
  | messageTx eid tagOwner msgTag msg =>
      have honly := mctpMessageTx_txOnly env st.1 eid tagOwner msgTag msg
      rw [txStep]
      cases hcall : mctpMessageTx env st.1 eid tagOwner msgTag msg with | mk w' rc =>
      rw [hcall] at honly
      obtain ⟨_, hsent, _⟩ | ⟨_, htaken⟩ := mctpMessageTx_cases env h.linked hcall
      · exact h.of_nothingSent honly.toSameSetup hsent
      · exact h.taken htaken

/-- The property of a state: no message is stuck on the bus, and none is refused as busy for that
reason. -/
structure NotWedged (env : Env δ) (w : Mctp δ) : Prop where
  settled : Settled (w.busses 0) (w.busLog 0)
  refused : ∀ eid tagOwner msgTag msg, (mctpMessageTx env w eid tagOwner msgTag msg).2 = -ebusy →
    (w.busses 0).state = .txEnabled → (w.busLog 0).LastBusy

theorem ErrInv.notWedged_iff (h : ErrInv b binding w) :
    NotWedged env w ↔ Settled (w.busses 0) (w.busLog 0) := by
  refine ⟨fun hw => hw.settled, fun hsettled => ⟨hsettled, ?_⟩⟩
  intro eid tagOwner msgTag msg hrefused henabled
  obtain ⟨_, _, hbusy⟩ | ⟨hrc, _⟩ := mctpMessageTx_cases env h.linked
    (Prod.mk.eta (p := mctpMessageTx env w eid tagOwner msgTag msg)).symm
  · exact hsettled henabled (hbusy hrefused)
  · rw [hrc] at hrefused
    exact absurd hrefused (by decide)

theorem ErrInv.txed_run (ops : List TxOp) : ∀ st : Mctp δ × List Message, ErrInv b binding st.1 →
    (st.1.busLog 0).txed <+: ((ops.foldl (txStep env b) st).1.busLog 0).txed := by
  induction ops with
  | nil => exact fun st _ => List.prefix_rfl
  | cons op ops ih =>
      intro st h
      have hstep : ErrStep b binding st.1 (txStep env b st op).1 := h.step op
      exact hstep.txed.trans (ih _ hstep.inv)

theorem ErrInv.run_iff (ops : List TxOp) : ∀ st : Mctp δ × List Message, ErrInv b binding st.1 →
    Settled (st.1.busses 0) (st.1.busLog 0) → (st.1.busLog 0).Harmless →
    ((∀ pre, pre <+: ops → NotWedged env (pre.foldl (txStep env b) st).1) ↔
      ((ops.foldl (txStep env b) st).1.busLog 0).Harmless) := by
  induction ops with
  | nil =>
      intro st h hsettled hharmless
      rw [Run.forall_along_nil_iff (P := fun st : Mctp δ × List Message => NotWedged env st.1)]
      exact ⟨fun _ => hharmless, fun _ => h.notWedged_iff.mpr hsettled⟩
  | cons op ops ih =>
      intro st h hsettled hharmless
      have hstep : ErrStep b binding st.1 (txStep env b st op).1 := h.step op
      have hrest := ih (txStep env b st op) hstep.inv
      rw [Run.forall_along_cons_iff (P := fun st : Mctp δ × List Message => NotWedged env st.1)]
      constructor
      · rintro ⟨-, hall⟩
        have hone := (hall [] List.nil_prefix).settled
        exact (hrest hone (hstep.harmless hone hharmless)).mp hall
      · intro hfinal
        have hmid : ((txStep env b st op).1.busLog 0).Harmless := fun p hp =>
          hfinal p ((ErrInv.txed_run ops _ hstep.inv).subset hp)
        have hone := hstep.settled hmid hsettled
        exact ⟨h.notWedged_iff.mpr hsettled, (hrest hone hmid).mpr hfinal⟩

end Calls

/-- **When a hard error does not stick.** Along a run, no state is one in which an enabled bus holds
a message although its binding was not busy, exactly when every answer of the binding was
harmless. -/
theorem txRun_notWedged_iff (env : Env δ) (bindings : Nat → MctpBinding) (now : Nat) (dev : δ)
    (b : Nat) (eid : UInt8) (ops : List TxOp)
    (hreg : 0 ≤ (mctpRegisterBus env (mctpSetup bindings now dev) b eid).2) :
    let w₀ := (mctpRegisterBus env (mctpSetup bindings now dev) b eid).1
    (∀ pre, pre <+: ops → NotWedged env (pre.foldl (txStep env b) (w₀, [])).1) ↔
      ((ops.foldl (txStep env b) (w₀, [])).1.busLog 0).Harmless := by
  let P : Mctp δ → Prop := fun w => ErrInv b { bindings b with bus := some 0, mctp := some () } w ∧
    (w.busses 0).txMsg = none ∧ (w.busLog 0).txed = []
  have hstart : P (mctpRegisterBus env (mctpSetup bindings now dev) b eid).1 := by
    refine mctpRegisterBus_invariant env rfl hreg P ?_ ?_
    · intro w₁ hw₁
      refine ⟨⟨hw₁.linked, ?_, ?_, ?_, ?_⟩, ?_, ?_⟩ <;>
        simp [hw₁.bus, hw₁.busLog, MctpBus.Ok.of_none]
    · rintro w₁ enable ⟨hinv, hnone, htxed⟩
      have hstep : ErrStep b _ w₁ (mctpBindingSetTxEnabled env w₁ b enable) :=
        hinv.setTxEnabled enable
      obtain ⟨state, hw₁⟩ := mctpBindingSetTxEnabled_of_idle env hinv.linked hnone enable
      refine ⟨hstep.inv, ?_, ?_⟩ <;> rw [hw₁]
      · simpa [Mctp.setBus] using hnone
      · exact htxed
  obtain ⟨hinv, hnone, htxed⟩ := hstart
  refine ErrInv.run_iff ops (_, []) hinv ?_ ?_
  · intro _ hmsg
    simp [hnone] at hmsg
  · intro p hp
    simp [htxed] at hp

/-- A binding that answers every packet with `-EIO`. -/
def brokenBinding : Env Unit where
  msgAlloc := fun _ => true
  pktAlloc := fun _ => true
  tx := fun _ _ _ => ((), ⟨-eio, false⟩)
  start := fun _ => some fun d => (d, ⟨0, [true]⟩)

def brokenBus : Mctp Unit :=
  (mctpRegisterBus brokenBinding (mctpSetup (fun _ => smallBinding) 0 ()) 0 8).1

/-- A message of one packet is drained by the error. -/
theorem txRun_notWedged_single :
    (mctpRegisterBus brokenBinding (mctpSetup (fun _ => smallBinding) 0 ()) 0 8).2 = 0 ∧
    ∀ pre, pre <+: [TxOp.messageTx 9 true 3 (List.replicate 10 7)] →
      NotWedged brokenBinding (pre.foldl (txStep brokenBinding 0) (brokenBus, [])).1 :=
  ⟨by decide, (txRun_notWedged_iff brokenBinding (fun _ => smallBinding) 0 () 0 8 _
    (by decide)).mpr (by decide)⟩

/-- A message of two packets is stuck after the error that met its first. -/
theorem txRun_wedged :
    ¬ ∀ pre, pre <+: [TxOp.messageTx 9 true 3 (List.replicate 100 7)] →
      NotWedged brokenBinding (pre.foldl (txStep brokenBinding 0) (brokenBus, [])).1 := by
  intro hall
  obtain ⟨p, hlast, hrc⟩ := (hall _ List.prefix_rfl).settled (by decide) (by decide)
  have hrcs := congrArg (Option.map fun p => p.2.rc) hlast
  rw [Option.map_some, hrc] at hrcs
  exact absurd hrcs (by decide)

end LibMctp
