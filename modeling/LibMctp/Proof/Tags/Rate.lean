import LibMctp.Lib.Lease
import LibMctp.Lib.Run
import LibMctp.Proof.Tags.Atomic

/-!
# How fast requests may be sent

A tag is held until its response comes or 6000 ms have passed. So requests get their tags, whether
they are answered or not, as long as no more than 16 are made in 6000 ms, and no more than 8 of
these to one endpoint. Requests that are never answered get them at no higher rate.
-/

namespace LibMctp

open Lease

variable {δ : Type}

/-- The clock, and the requests made so far, each with its time and the endpoint it is for. -/
def askStep (st : Nat × List (Nat × UInt8)) : TagOp → Nat × List (Nat × UInt8)
  | .request eid _ _ => (st.1, st.2 ++ [(st.1, eid)])
  | .response _ _ _ _ => st
  | .setEid _ => st
  | .elapse ms => (st.1 + ms, st.2)

/-- Before a request fewer than 16 others were made in 6000 ms, and fewer than 8 to the same
endpoint. -/
def Paced (st : Nat × List (Nat × UInt8)) : TagOp → Prop
  | .request eid _ _ =>
      recent mctpTagTimeout st.2 st.1 (fun _ => true) < 16 ∧
        recent mctpTagTimeout st.2 st.1 (· == eid) < 8
  | .response _ _ _ _ => True
  | .setEid _ => True
  | .elapse _ => True

/-- A request gets a tag. -/
def Tagged (env : Env δ) (st : Mctp δ × List MctpReqTag) : TagOp → Prop
  | .request eid msg msgLen => (mctpMessageTxRequest env st.1 eid msg msgLen).2.2 ≠ none
  | .response _ _ _ _ => True
  | .setEid _ => True
  | .elapse _ => True

def TagOp.Unanswered : TagOp → Prop
  | .request _ _ _ => True
  | .response _ _ _ _ => False
  | .setEid _ => False
  | .elapse _ => True

def liveTag (now : Nat) (r : MctpReqTag) : Bool := decide (r.Live now)

section Table

variable {env : Env δ} {b : Nat} {w : Mctp δ} {eid : UInt8} {msg : MsgBuf} {msgLen : Nat}

theorem mctpMessageTxRequest_tag (env : Env δ) (hbus : w.nBusses ≠ 0) :
    (mctpMessageTxRequest env w eid msg msgLen).2.2 = none ↔ w.NoTag (w.busses 0).eid eid := by
  cases halloc : mctpAllocTag w (w.busses 0).eid eid with
  | mk w₁ given =>
      cases given with
      | none =>
          have hfind : findBusForEid w eid = some 0 := if_neg hbus
          refine iff_of_true ?_ (noTag_of_none halloc)
          unfold mctpMessageTxRequest
          rw [hfind]
          dsimp only
          rw [halloc]
      | some tag =>
          rw [(mctpMessageTxRequest_tagged env hbus halloc).1]
          exact iff_of_false (by simp) (not_noTag_of_some halloc)

theorem mctpMessageTxRequest_writes (h : (mctpMessageTxRequest env w eid msg msgLen).2.2 ≠ none) :
    ∃ j tag, tag.toNat < 8 ∧ ¬ (w.reqTags j).Live w.platformNow ∧
      (mctpMessageTxRequest env w eid msg msgLen).1.reqTags
        = Function.update w.reqTags j ⟨(w.busses 0).eid, eid, tag,
          (w.platformNow + mctpTagTimeout) % 2 ^ 64⟩ := by
  cases hcall : mctpMessageTxRequest env w eid msg msgLen with | mk w' result =>
  obtain ⟨rc, given⟩ := result
  rw [hcall] at h
  obtain ⟨-, -, ⟨rfl, -, -⟩ | ⟨tag, w₁, -, halloc, htags⟩⟩ := mctpMessageTxRequest_cases env hcall
  · exact absurd rfl h
  · obtain ⟨htag, -, j, hdead, hw₁⟩ := mctpAllocTag_some halloc
    refine ⟨j, tag, htag, hdead, ?_⟩
    dsimp only
    rw [htags, hw₁]

end Table

section Steps

variable (env : Env δ) (b : Nat) (st : Mctp δ × List MctpReqTag)

theorem tagStep_request (eid : UInt8) (msg : MsgBuf) (msgLen : Nat) :
    (tagStep env b st (.request eid msg msgLen)).1
      = (mctpMessageTxRequest env st.1 eid msg msgLen).1 := by
  rw [tagStep]
  cases hcall : mctpMessageTxRequest env st.1 eid msg msgLen with | mk w' result =>
  obtain ⟨rc, _ | tag⟩ := result <;> rfl

def TagOp.elapsed : TagOp → Nat
  | .request _ _ _ => 0
  | .response _ _ _ _ => 0
  | .setEid _ => 0
  | .elapse ms => ms

theorem tagStep_setup (op : TagOp) :
    (tagStep env b st op).1.nBusses = st.1.nBusses ∧
      (tagStep env b st op).1.platformNow = st.1.platformNow + op.elapsed := by
  cases op with
  | request eid msg msgLen =>
      rw [tagStep_request]
      cases hcall : mctpMessageTxRequest env st.1 eid msg msgLen with | mk w' result =>
      obtain ⟨-, hsetup, -⟩ := mctpMessageTxRequest_cases env hcall
      exact ⟨hsetup.nBusses, hsetup.platformNow⟩
  | response src dest tag bytes =>
      have hsetup := mctpRx_sameSetup env st.1 0 ⟨src, dest, false, tag, bytes⟩
      exact ⟨hsetup.nBusses, hsetup.platformNow⟩
  | setEid eid =>
      have hsetup := (mctpBusSetEid_rxOnly env st.1 b eid).toSameSetup
      exact ⟨hsetup.nBusses, hsetup.platformNow⟩
  | elapse ms => exact ⟨rfl, rfl⟩

theorem askStep_fst (asked : Nat × List (Nat × UInt8)) (op : TagOp) :
    (askStep asked op).1 = asked.1 + op.elapsed := by
  cases op <;> rfl

end Steps

/-! ### Runs in which requests keep their pace -/

/-- No more tags are held, at any time to come, than were asked for. -/
structure RateInv (st : Mctp δ × List MctpReqTag) (asked : Nat × List (Nat × UInt8)) : Prop where
  table : TagTable st.1
  bus : st.1.nBusses ≠ 0
  now : asked.1 = st.1.platformNow
  bounded : Bounded liveTag MctpReqTag.remote mctpTagTimeout st.1.platformNow st.1.reqTags asked.2

section Paced

variable {env : Env δ} {b : Nat} {st : Mctp δ × List MctpReqTag} {asked : Nat × List (Nat × UInt8)}
  {op : TagOp}

theorem RateInv.tagged (h : RateInv st asked) (hpaced : Paced asked op) : Tagged env st op := by
  cases op with
  | request eid msg msgLen =>
      intro hnone
      have hbounded := h.bounded st.1.platformNow le_rfl
      rcases (mctpMessageTxRequest_tag env h.bus).mp hnone with hfull | hused
      · have hall : held liveTag MctpReqTag.remote st.1.reqTags st.1.platformNow (fun _ => true)
            = 16 := by
          apply Table.count_of_forall
          intro i
          rw [Bool.and_true]
          exact decide_eq_true (hfull i)
        have hle := hbounded fun _ => true
        have hlt := hpaced.1
        rw [h.now] at hlt
        omega
      · have height :
            8 ≤ held liveTag MctpReqTag.remote st.1.reqTags st.1.platformNow (· == eid) := by
          apply Table.le_count fun r => r.tag.toNat
          intro t ht
          obtain ⟨i, hlive, hcarries⟩ := hused t ht
          obtain ⟨-, hremote, htag⟩ := MctpReqTag.carries_iff.mp hcarries
          refine ⟨i, ?_, ?_⟩
          · rw [Bool.and_eq_true]
            exact ⟨decide_eq_true hlive, beq_iff_eq.mpr hremote⟩
          · rw [htag, UInt8.toNat_ofNat_of_lt' (by change t < 256; omega)]
        have hle := hbounded (· == eid)
        have hlt := hpaced.2
        rw [h.now] at hlt
        omega
  | response src dest tag bytes => trivial
  | setEid eid => trivial
  | elapse ms => trivial

theorem RateInv.step (h : RateInv st asked) (htagged : Tagged env st op) :
    RateInv (tagStep env b st op) (askStep asked op) := by
  obtain ⟨hbus, hnow⟩ := tagStep_setup env b st op
  refine ⟨h.table.step op, hbus.trans_ne h.bus, by rw [askStep_fst, h.now, hnow], ?_⟩
  cases op with
  | request eid msg msgLen =>
      obtain ⟨j, tag, -, -, htags⟩ := mctpMessageTxRequest_writes htagged
      rw [hnow, tagStep_request, htags, askStep, h.now]
      apply h.bounded.give j
      intro now' hlive
      exact (of_decide_eq_true hlive).2.trans (Nat.mod_le _ _)
  | response src dest tag bytes =>
      obtain ⟨-, htags⟩ := mctpRx_response env st.1 0 ⟨src, dest, false, tag, bytes⟩
        rfl h.table.endpoint
      have hkept := h.bounded
      rw [hnow]
      show Bounded _ _ _ _ (mctpRx env st.1 0 ⟨src, dest, false, tag, bytes⟩).reqTags _
      rw [htags]
      dsimp only
      split
      · rw [mctpDeallocTag_reqTags]
        split
        · exact hkept
        · split
          · exact hkept
          · exact hkept.free _ fun now' => decide_eq_false (MctpReqTag.not_live_cleared now')
      · exact hkept
  | setEid eid =>
      have htags := mctpBusSetEid_reqTags st.1 b eid
      rw [hnow]
      show Bounded _ _ _ _ (mctpBusSetEid st.1 b eid).1.reqTags _
      rw [htags]
      exact h.bounded
  | elapse ms => exact h.bounded.later (Nat.le_add_right _ _)

theorem RateInv.run (ops : List TagOp) (st : Mctp δ × List MctpReqTag)
    (asked : Nat × List (Nat × UInt8)) (h : RateInv st asked)
    (hpaced : Run.Each askStep Paced asked ops) : Run.Each (tagStep env b) (Tagged env) st ops := by
  induction ops generalizing st asked with
  | nil => trivial
  | cons op ops ih =>
      have htagged : Tagged env st op := h.tagged hpaced.1
      exact ⟨htagged, ih _ _ (h.step htagged) hpaced.2⟩

end Paced

/-! ### Runs without responses -/

/-- The endpoint id has stayed, and every tag asked for of late is held. -/
structure UnansweredInv (st : Mctp δ × List MctpReqTag) (asked : Nat × List (Nat × UInt8)) :
    Prop extends RateInv st asked where
  all : Exact liveTag MctpReqTag.remote mctpTagTimeout st.1.platformNow st.1.reqTags asked.2
  mine : ∀ i, (st.1.reqTags i).Live st.1.platformNow →
    (st.1.reqTags i).localEid = (st.1.busses 0).eid

section Unanswered

variable {env : Env δ} {b : Nat} {st : Mctp δ × List MctpReqTag} {asked : Nat × List (Nat × UInt8)}
  {op : TagOp}

theorem UnansweredInv.step (h : UnansweredInv st asked) (hop : op.Unanswered)
    (hclock : st.1.platformNow < clockLimit) (htagged : Tagged env st op) :
    UnansweredInv (tagStep env b st op) (askStep asked op) := by
  have hnow := (tagStep_setup env b st op).2
  refine ⟨h.toRateInv.step htagged, ?_, ?_⟩
  · cases op with
    | request eid msg msgLen =>
        obtain ⟨j, tag, -, hdead, htags⟩ := mctpMessageTxRequest_writes htagged
        rw [hnow, tagStep_request, htags, askStep, h.now]
        apply h.all.give
        · intro now' hle
          exact decide_eq_false fun hlive => hdead (hlive.mono hle)
        · intro now'
          rw [Nat.mod_eq_of_lt
            (by unfold clockLimit mctpTagTimeout at hclock; unfold mctpTagTimeout; omega),
            liveTag, decide_eq_decide]
          exact and_iff_right h.table.eid
    | response src dest tag bytes => exact hop.elim
    | setEid eid => exact hop.elim
    | elapse ms => exact h.all.later (Nat.le_add_right _ _)
  · cases op with
    | request eid msg msgLen =>
        obtain ⟨j, tag, -, -, htags⟩ := mctpMessageTxRequest_writes htagged
        have heid : ((mctpMessageTxRequest env st.1 eid msg msgLen).1.busses 0).eid
            = (st.1.busses 0).eid := by
          cases hcall : mctpMessageTxRequest env st.1 eid msg msgLen with | mk w' result =>
          exact (mctpMessageTxRequest_cases env hcall).1 0
        intro i
        rw [hnow, tagStep_request, htags, heid]
        by_cases hij : i = j
        · rw [hij, Function.update_self]
          exact fun _ => rfl
        · rw [Function.update_of_ne hij]
          exact h.mine i
    | response src dest tag bytes => exact hop.elim
    | setEid eid => exact hop.elim
    | elapse ms => exact fun i hlive => h.mine i (hlive.mono (Nat.le_add_right _ _))

/-- The live entries for an endpoint have tags of their own. -/
theorem UnansweredInv.held_le (h : UnansweredInv st asked) (eid : UInt8) :
    held liveTag MctpReqTag.remote st.1.reqTags st.1.platformNow (· == eid) ≤ 8 := by
  apply Table.count_le_of_injOn fun r => r.tag.toNat
  · intro i _
    exact h.table.tag_lt i
  · intro i j hi hj htag
    obtain ⟨hlive, hremote⟩ := Bool.and_eq_true_iff.mp hi
    obtain ⟨hlive', hremote'⟩ := Bool.and_eq_true_iff.mp hj
    have hl := of_decide_eq_true hlive
    have hl' := of_decide_eq_true hlive'
    refine h.table.unique i j hl hl' (MctpReqTag.carries_iff.mpr ⟨?_, ?_, UInt8.toNat_inj.mp htag⟩)
    · rw [h.mine i hl, h.mine j hl']
    · rw [beq_iff_eq.mp hremote, beq_iff_eq.mp hremote']

theorem UnansweredInv.paced (h : UnansweredInv st asked) (hop : op.Unanswered)
    (hclock : st.1.platformNow < clockLimit) (htagged : Tagged env st op) : Paced asked op := by
  cases op with
  | request eid msg msgLen =>
      have hafter := h.step (b := 0) hop hclock htagged
      have hnow := (tagStep_setup env 0 st (.request eid msg msgLen)).2
      have hsixteen : held liveTag MctpReqTag.remote
        (tagStep env 0 st (.request eid msg msgLen)).1.reqTags
          (tagStep env 0 st (.request eid msg msgLen)).1.platformNow (fun _ => true) ≤ 16 :=
          Table.count_le _ _
      have height := hafter.held_le eid
      rw [hafter.all _ le_rfl, askStep, recent_concat, hnow] at hsixteen height
      rw [Paced, h.now]
      simp only [TagOp.elapsed, h.now, Nat.add_zero, Nat.le_add_right, decide_true, Bool.true_and,
        beq_self_eq_true, Bool.toNat_true] at hsixteen height
      omega
  | response src dest tag bytes => trivial
  | setEid eid => trivial
  | elapse ms => trivial

theorem UnansweredInv.run (ops : List TagOp) (st : Mctp δ × List MctpReqTag)
    (asked : Nat × List (Nat × UInt8)) (h : UnansweredInv st asked)
    (hops : ∀ op ∈ ops, op.Unanswered)
    (hclock : (ops.foldl (tagStep env b) st).1.platformNow < clockLimit)
    (htagged : Run.Each (tagStep env b) (Tagged env) st ops) :
    Run.Each askStep Paced asked ops := by
  induction ops generalizing st asked with
  | nil => trivial
  | cons op ops ih =>
      have hop := hops op List.mem_cons_self
      have hnow : st.1.platformNow < clockLimit :=
        lt_of_le_of_lt (tagRun_now_le (op :: ops) st h.table) hclock
      refine ⟨h.paced hop hnow htagged.1, ih _ _ (h.step hop hnow htagged.1) ?_ hclock htagged.2⟩
      exact fun op' hop' => hops op' (List.mem_cons_of_mem _ hop')

end Unanswered

theorem unansweredInv_registered {env : Env δ} {bindings : Nat → MctpBinding} {now : Nat} {dev : δ}
    {b : Nat} {eid : UInt8} (heid : eid ≠ 0)
    (hreg : 0 ≤ (mctpRegisterBus env (mctpSetup bindings now dev) b eid).2) :
    UnansweredInv ((mctpRegisterBus env (mctpSetup bindings now dev) b eid).1, []) (now, []) := by
  have hstart : (mctpRegisterBus env (mctpSetup bindings now dev) b eid).1.nBusses ≠ 0 ∧
      (mctpRegisterBus env (mctpSetup bindings now dev) b eid).1.platformNow = now ∧
      ∀ i, ((mctpRegisterBus env (mctpSetup bindings now dev) b eid).1.reqTags i).localEid = 0 := by
    refine mctpRegisterBus_invariant env rfl hreg
      (fun w => w.nBusses ≠ 0 ∧ w.platformNow = now ∧ ∀ i, (w.reqTags i).localEid = 0) ?_ ?_
    · intro w₁ hw₁
      rw [hw₁.linked.nBusses, hw₁.platformNow, hw₁.reqTags]
      exact ⟨by decide, rfl, fun _ => rfl⟩
    · intro w₁ enable hw₁
      have honly := mctpBindingSetTxEnabled_txOnly env w₁ b enable
      rw [honly.nBusses, honly.platformNow, honly.reqTags]
      exact hw₁
  obtain ⟨hbus, hnow, hempty⟩ := hstart
  have hall : Exact liveTag MctpReqTag.remote mctpTagTimeout
    (mctpRegisterBus env (mctpSetup bindings now dev) b eid).1.platformNow
      (mctpRegisterBus env (mctpSetup bindings now dev) b eid).1.reqTags [] :=
    .of_empty fun _ i => decide_eq_false fun hlive => hlive.1 (hempty i)
  exact ⟨⟨tagTable_registered heid hreg, hbus, hnow.symm, hall.bounded⟩, hall, fun i hlive =>
    absurd (hempty i) hlive.1⟩

/-- **The rate of requests.** In a run in which every request keeps the pace, every request gets a
tag, whatever responses come. Where none come, the endpoint id stays and the clock does not wrap,
all requests of a run get a tag only if they keep the pace. -/
theorem tagRun_paced (env : Env δ) (bindings : Nat → MctpBinding) (now : Nat) (dev : δ) (b : Nat)
    (eid : UInt8) (ops : List TagOp) (heid : eid ≠ 0)
    (hreg : 0 ≤ (mctpRegisterBus env (mctpSetup bindings now dev) b eid).2) :
    let start : Mctp δ × List MctpReqTag :=
      ((mctpRegisterBus env (mctpSetup bindings now dev) b eid).1, [])
    (Run.Each askStep Paced (now, []) ops → Run.Each (tagStep env b) (Tagged env) start ops) ∧
      ((∀ op ∈ ops, op.Unanswered) → (ops.foldl (tagStep env b) start).1.platformNow < clockLimit →
        Run.Each (tagStep env b) (Tagged env) start ops →
        Run.Each askStep Paced (now, []) ops) := by
  intro start
  have hstart : UnansweredInv start (now, []) := unansweredInv_registered heid hreg
  constructor
  · intro hpaced
    exact hstart.toRateInv.run ops start (now, []) hpaced
  · intro hops hclock htagged
    exact hstart.run ops start (now, []) hops hclock htagged

instance (st : Nat × List (Nat × UInt8)) : (op : TagOp) → Decidable (Paced st op)
  | .request eid _ _ =>
    inferInstanceAs
      (Decidable (recent mctpTagTimeout st.2 st.1 (fun _ => true) < 16 ∧
        recent mctpTagTimeout st.2 st.1 (· == eid) < 8))
  | .response _ _ _ _ => isTrue trivial
  | .setEid _ => isTrue trivial
  | .elapse _ => isTrue trivial

def eightAndOne : List TagOp :=
  List.replicate 8 (.request 9 byteMsg 1) ++ [.elapse 6001, .request 9 byteMsg 1]

theorem tagRun_paced_nine :
    Run.Each (tagStep everyOther 0) (Tagged everyOther)
      ((mctpRegisterBus everyOther (mctpSetup (fun _ => smallBinding) 0 0) 0 8).1, [])
      eightAndOne :=
  (tagRun_paced everyOther (fun _ => smallBinding) 0 0 0 8 eightAndOne (by decide) (by decide)).1
    (by decide)

end LibMctp
