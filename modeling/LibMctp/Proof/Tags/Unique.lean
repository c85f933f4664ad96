import LibMctp.Proof.Tags.Alloc
import LibMctp.Proof.Transmit.Queue

/-!
# Request tags are unique

No two live entries of the table have the same endpoints and tag, however requests, responses and
the passing of time alternate, and every request that is still waiting has its entry. So a request
never gets the tag of another one that is still waiting for the same endpoint.
-/

namespace LibMctp

variable {δ : Type}

/-! ### What each call does to the table -/

section Calls

variable (env : Env δ)

theorem mctpRx_response (w : Mctp δ) (i : Fin 2) (msg : Message) (hresponse : msg.tagOwner = false)
    (hendpoint : w.routePolicy = .endpoint) :
    (mctpRx env w i msg).busses = w.busses ∧
      (mctpRx env w i msg).reqTags
        = if mctpRxDestIsLocal (w.busses i) msg.dest then
            (mctpDeallocTag w i msg.dest msg.src msg.tag).reqTags
          else w.reqTags := by
  have hcontrol : ∀ w : Mctp δ, (mctpRxControl env w i msg).1.busses = w.busses ∧
      (mctpRxControl env w i msg).1.reqTags = w.reqTags := by
    intro w
    unfold mctpRxControl mctpCtrlHandleMsg mctpControlHandler
    rw [hresponse]
    split
    · split
      · split
        · exact ⟨rfl, rfl⟩
        · exact ⟨rfl, rfl⟩
      · exact ⟨rfl, rfl⟩
    · exact ⟨rfl, rfl⟩
  have hdealloc : (mctpDeallocTag (w.handUp msg) i msg.dest msg.src msg.tag).busses = w.busses := by
    unfold mctpDeallocTag
    dsimp only
    split
    · rfl
    · split <;> rfl
  have hreqTags : (mctpDeallocTag (w.handUp msg) i msg.dest msg.src msg.tag).reqTags
      = (mctpDeallocTag w i msg.dest msg.src msg.tag).reqTags := by
    rw [mctpDeallocTag_reqTags, mctpDeallocTag_reqTags]
    rfl
  have hpolicy : (w.handUp msg).routePolicy = .endpoint := hendpoint
  unfold mctpRx
  dsimp only
  rw [hpolicy]
  dsimp only
  by_cases hlocal : mctpRxDestIsLocal (w.busses i) msg.dest = true
  · have hlocal' : mctpRxDestIsLocal ((w.handUp msg).busses i) msg.dest = true := hlocal
    obtain ⟨hbusses, htags⟩ := hcontrol (mctpDeallocTag (w.handUp msg) i msg.dest msg.src msg.tag)
    rw [if_pos hlocal', if_pos hlocal, ← hdealloc, ← hreqTags, ← hbusses, ← htags]
    unfold mctpRxEndpoint
    rw [hresponse, Bool.not_false, if_pos rfl]
    dsimp only
    cases mctpRxControl env (mctpDeallocTag (w.handUp msg) i msg.dest msg.src msg.tag) i
      msg with | mk w' handled =>
    cases handled with
    | true => exact ⟨rfl, rfl⟩
    | false =>
        dsimp only
        split
        · exact ⟨rfl, rfl⟩
        · exact ⟨rfl, rfl⟩
  · have hlocal' : ¬ mctpRxDestIsLocal ((w.handUp msg).busses i) msg.dest = true := hlocal
    rw [if_neg hlocal', if_neg hlocal]
    exact ⟨rfl, rfl⟩

theorem mctpMessageTxRequest_cases {w w' : Mctp δ} {eid : UInt8} {msg : MsgBuf} {msgLen : Nat}
    {rc : Int} {tag : Option UInt8}
    (h : mctpMessageTxRequest env w eid msg msgLen = (w', rc, tag)) :
    (∀ i, (w'.busses i).eid = (w.busses i).eid) ∧ SameSetup env w w' ∧
      (tag = none ∧ w'.reqTags = w.reqTags ∧
          (rc = -ebusy → (mctpAllocTag w (w.busses 0).eid eid).2 = none) ∨
        ∃ t w₁, tag = some t ∧ mctpAllocTag w (w.busses 0).eid eid = (w₁, some t) ∧
          w'.reqTags = w₁.reqTags) := by
  unfold mctpMessageTxRequest findBusForEid at h
  split at h
  · obtain ⟨rfl, rfl, rfl⟩ : mctpMsgFree w msg (some ()) = w' ∧ (0 : Int) = rc ∧ none = tag := by
      simpa using h
    have hfree := mctpMsgFree_txOnly env w msg (some ())
    exact ⟨hfree.eid, hfree.toSameSetup, .inl ⟨rfl, hfree.reqTags, fun h => absurd h (by decide)⟩⟩
  · rename_i k hbus
    have hk : k = 0 := by
      split at hbus
      · cases hbus
      · exact (Option.some.inj hbus).symm
    subst hk
    split at h
    · rename_i w₁ halloc
      obtain ⟨rfl, rfl, rfl⟩ : mctpMsgFree w₁ msg (some ()) = w' ∧ -ebusy = rc ∧ none = tag := by
        simpa using h
      obtain ⟨hw₁, _⟩ := mctpAllocTag_none halloc
      have hchecked : TxOnly env w w₁ := by
        rw [hw₁]
        exact txOnly_withHist env w (by simp) (by simp)
      have hfree := hchecked.trans (mctpMsgFree_txOnly env w₁ msg (some ()))
      exact ⟨hfree.eid, hfree.toSameSetup, .inl ⟨rfl, hfree.reqTags, fun _ => by rw [halloc]⟩⟩
    · rename_i w₁ t halloc
      obtain ⟨_, _, j, _, hw₁⟩ := mctpAllocTag_some halloc
      have hsetup : SameSetup env w w₁ := by
        rw [hw₁]
        exact ⟨rfl, rfl, rfl, rfl, rfl, rfl, rfl, rfl, rfl, fun _ => rfl, fun _ => rfl, .refl⟩
      have heid : ∀ i, (w₁.busses i).eid = (w.busses i).eid := by
        rw [hw₁]
        exact fun _ => rfl
      have htx := mctpMessageTxAlloced_txOnly env w₁ eid true t msg msgLen
      cases hcall : mctpMessageTxAlloced env w₁ eid true t msg msgLen with | mk w₂ rc' =>
      rw [hcall] at h htx
      obtain ⟨rfl, rfl, rfl⟩ : w₂ = w' ∧ rc' = rc ∧ some t = tag := by simpa using h
      exact ⟨fun i => (htx.eid i).trans (heid i), hsetup.trans htx.toSameSetup,
        .inr ⟨t, w₁, rfl, halloc, htx.reqTags⟩⟩

theorem mctpBusSetEid_eid (w : Mctp δ) (b : Nat) (eid : UInt8) (i : Fin 2) :
    ((mctpBusSetEid w b eid).1.busses i).eid = (w.busses i).eid ∨
      ((mctpBusSetEid w b eid).1.busses i).eid = eid ∧ 8 ≤ eid := by
  unfold mctpBusSetEid
  split
  · exact .inl rfl
  · rename_i hvalid
    split
    · exact .inl rfl
    · rename_i k _
      by_cases hik : i = k
      · refine .inr ⟨?_, ?_⟩
        · rw [hik]
          simp [Mctp.setBus]
        · rw [not_or, UInt8.not_lt] at hvalid
          exact hvalid.1
      · refine .inl ?_
        simp [Mctp.setBus, Function.update_of_ne hik]

theorem mctpBusSetEid_reqTags (w : Mctp δ) (b : Nat) (eid : UInt8) :
    (mctpBusSetEid w b eid).1.reqTags = w.reqTags := by
  unfold mctpBusSetEid
  split
  · rfl
  · split <;> rfl

end Calls

/-! ### Runs -/

/-- What may happen to the table: a request, a response handed up, a change of the endpoint id, and
time that passes. -/
inductive TagOp where
  | request (eid : UInt8) (msg : MsgBuf) (msgLen : Nat)
  | response (src dest tag : UInt8) (bytes : List UInt8)
  | setEid (eid : UInt8)
  | elapse (ms : Nat)

/-- One such step, and the requests that got a tag and no response yet, each with the entry that was
made for it and the time it expires. -/
def tagStep (env : Env δ) (b : Nat) (st : Mctp δ × List MctpReqTag) :
    TagOp → Mctp δ × List MctpReqTag
  | .request eid msg msgLen =>
    match mctpMessageTxRequest env st.1 eid msg msgLen with
    | (w, _, none) => (w, st.2)
    | (w, _, some tag) =>
        (w, st.2 ++ [⟨(st.1.busses 0).eid, eid, tag, st.1.platformNow + mctpTagTimeout⟩])
  | .response src dest tag bytes =>
    (mctpRx env st.1 0 ⟨src, dest, false, tag, bytes⟩,
      if mctpRxDestIsLocal (st.1.busses 0) dest then st.2.filter fun r => !r.carries dest src tag
      else st.2)
  | .setEid eid => ((mctpBusSetEid st.1 b eid).1, st.2)
  | .elapse ms => ({ st.1 with platformNow := st.1.platformNow + ms }, st.2)

/-- The clock readings stay where an expiry time does not wrap. -/
def clockLimit : Nat := 2 ^ 64 - mctpTagTimeout

/-- The table of an endpoint: live entries have tags of their own. -/
structure TagTable (w : Mctp δ) : Prop where
  eid : (w.busses 0).eid ≠ 0
  endpoint : w.routePolicy = .endpoint
  tag_lt : ∀ i, (w.reqTags i).tag.toNat < 8
  unique : ∀ i j, (w.reqTags i).Live w.platformNow → (w.reqTags j).Live w.platformNow →
    (w.reqTags i).carries (w.reqTags j).localEid (w.reqTags j).remote (w.reqTags j).tag = true →
    i = j

/-- The requests that wait have their entries. -/
def HasWaiting (w : Mctp δ) (waiting : List MctpReqTag) : Prop :=
  ∀ r ∈ waiting, r.Live w.platformNow → ∃ i, w.reqTags i = r

section Table

variable {env : Env δ} {b : Nat} {w w' : Mctp δ}

theorem TagTable.frame (h : TagTable w) (heid : (w'.busses 0).eid ≠ 0)
    (hendpoint : w'.routePolicy = w.routePolicy) (htags : w'.reqTags = w.reqTags)
    (hnow : w'.platformNow = w.platformNow) : TagTable w' := by
  refine ⟨heid, hendpoint.trans h.endpoint, ?_, ?_⟩ <;> rw [htags]
  · exact h.tag_lt
  · rw [hnow]
    exact h.unique

theorem TagTable.alloc (h : TagTable w) {remote tag : UInt8}
    (halloc : mctpAllocTag w (w.busses 0).eid remote = (w', some tag)) : TagTable w' := by
  obtain ⟨htag, hunused, j, hdead, hw'⟩ := mctpAllocTag_some halloc
  have hunused' : ∀ i, (w.reqTags i).Live w.platformNow →
      (w.reqTags i).carries (w.busses 0).eid remote tag ≠ true :=
    fun i hlive hcarries => hunused ⟨i, hlive, hcarries⟩
  subst hw'
  refine ⟨h.eid, h.endpoint, ?_, ?_⟩
  · intro i
    dsimp only
    by_cases hi : i = j
    · rw [hi, Function.update_self]
      exact htag
    · rw [Function.update_of_ne hi]
      exact h.tag_lt i
  · intro i k hlivei hlivek hcarries
    dsimp only at hlivei hlivek hcarries
    by_cases hi : i = j
    · by_cases hk : k = j
      · rw [hi, hk]
      · rw [hi, Function.update_self, Function.update_of_ne hk] at hcarries
        rw [Function.update_of_ne hk] at hlivek
        rw [MctpReqTag.carries_iff] at hcarries
        exact absurd (MctpReqTag.carries_iff.mpr
          ⟨hcarries.1.symm, hcarries.2.1.symm, hcarries.2.2.symm⟩) (hunused' k hlivek)
    · rw [Function.update_of_ne hi] at hlivei hcarries
      by_cases hk : k = j
      · rw [hk, Function.update_self] at hcarries
        exact absurd hcarries (hunused' i hlivei)
      · rw [Function.update_of_ne hk] at hlivek hcarries
        exact h.unique i k hlivei hlivek hcarries

theorem TagTable.dealloc (h : TagTable w) {localEid remote tag : UInt8}
    (heid : (w'.busses 0).eid ≠ 0) (hendpoint : w'.routePolicy = w.routePolicy)
    (hnow : w'.platformNow = w.platformNow)
    (htags : w'.reqTags = (mctpDeallocTag w 0 localEid remote tag).reqTags) : TagTable w' := by
  rw [mctpDeallocTag_reqTags] at htags
  split at htags
  · exact h.frame heid hendpoint htags hnow
  · split at htags
    · exact h.frame heid hendpoint htags hnow
    · rename_i j hfirst
      refine ⟨heid, hendpoint.trans h.endpoint, ?_, ?_⟩
      · intro i
        rw [htags]
        by_cases hi : i = j
        · rw [hi, Function.update_self]
          decide
        · rw [Function.update_of_ne hi]
          exact h.tag_lt i
      · intro i k hlivei hlivek hcarries
        rw [hnow] at hlivei hlivek
        have hlive : ∀ i, (w'.reqTags i).Live w.platformNow → w'.reqTags i = w.reqTags i := by
          intro i hlive
          rw [htags] at hlive ⊢
          by_cases hi : i = j
          · rw [hi, Function.update_self] at hlive
            exact absurd hlive (MctpReqTag.not_live_cleared _)
          · rw [Function.update_of_ne hi]
        have hi := hlive i hlivei
        have hk := hlive k hlivek
        rw [hi] at hlivei hcarries
        rw [hk] at hlivek hcarries
        exact h.unique i k hlivei hlivek hcarries

theorem TagTable.step {st : Mctp δ × List MctpReqTag} (h : TagTable st.1) (op : TagOp) :
    TagTable (tagStep env b st op).1 := by
  cases op with
  | request eid msg msgLen =>
      rw [tagStep]
      cases hcall : mctpMessageTxRequest env st.1 eid msg msgLen with | mk w' result =>
      obtain ⟨rc, tag⟩ := result
      obtain ⟨heid, hsetup, ⟨rfl, htags, _⟩ | ⟨t, w₁, rfl, halloc, htags⟩⟩ :=
        mctpMessageTxRequest_cases env hcall
      · exact h.frame (by rw [heid 0]; exact h.eid) hsetup.routePolicy htags hsetup.platformNow
      · obtain ⟨_, _, j, _, hw₁⟩ := mctpAllocTag_some halloc
        have hpolicy : w'.routePolicy = w₁.routePolicy := by
          rw [hsetup.routePolicy, hw₁]
          rfl
        have hnow : w'.platformNow = w₁.platformNow := by
          rw [hsetup.platformNow, hw₁]
          rfl
        exact (h.alloc halloc).frame (by rw [heid 0]; exact h.eid) hpolicy htags hnow
  | response src dest tag bytes =>
      rw [tagStep]
      obtain ⟨hbusses, htags⟩ :=
        mctpRx_response env st.1 0 ⟨src, dest, false, tag, bytes⟩ rfl h.endpoint
      have hsetup := mctpRx_sameSetup env st.1 0 ⟨src, dest, false, tag, bytes⟩
      have heid : ((mctpRx env st.1 0 ⟨src, dest, false, tag, bytes⟩).busses 0).eid ≠ 0 := by
        rw [hbusses]
        exact h.eid
      dsimp only at htags ⊢
      split at htags
      · exact h.dealloc heid hsetup.routePolicy hsetup.platformNow htags
      · exact h.frame heid hsetup.routePolicy htags hsetup.platformNow
  | setEid eid =>
      have hsetup := (mctpBusSetEid_rxOnly env st.1 b eid).toSameSetup
      refine h.frame ?_ hsetup.routePolicy (mctpBusSetEid_reqTags st.1 b eid) hsetup.platformNow
      obtain heid | ⟨heid, hvalid⟩ := mctpBusSetEid_eid st.1 b eid 0
      · rw [tagStep, heid]
        exact h.eid
      · rw [tagStep, heid]
        intro hzero
        rw [hzero] at hvalid
        exact absurd hvalid (by decide)
  | elapse ms =>
      have hlater : ∀ r : MctpReqTag, r.Live (st.1.platformNow + ms) → r.Live st.1.platformNow :=
        fun r hlive => ⟨hlive.1, le_trans (Nat.le_add_right _ _) hlive.2⟩
      exact ⟨h.eid, h.endpoint, h.tag_lt, fun i j hi hj => h.unique i j (hlater _ hi) (hlater _ hj)⟩

theorem TagTable.run (env : Env δ) (b : Nat) (ops : List TagOp) (st : Mctp δ × List MctpReqTag)
    (h : TagTable st.1) :
    TagTable (ops.foldl (tagStep env b) st).1 := by
  induction ops generalizing st with
  | nil => exact h
  | cons op ops ih => exact ih _ (h.step op)

theorem tagTable_registered {bindings : Nat → MctpBinding} {now : Nat} {dev : δ} {eid : UInt8}
    (heid : eid ≠ 0) (hreg : 0 ≤ (mctpRegisterBus env (mctpSetup bindings now dev) b eid).2) :
    TagTable (mctpRegisterBus env (mctpSetup bindings now dev) b eid).1 := by
  refine mctpRegisterBus_invariant env rfl hreg TagTable ?_ ?_
  · intro w₁ hw₁
    refine ⟨?_, hw₁.routePolicy, ?_, ?_⟩
    · rw [hw₁.bus]
      exact heid
    · rw [hw₁.reqTags]
      exact fun _ => (by decide : (0 : UInt8).toNat < 8)
    · rw [hw₁.reqTags]
      exact fun i j hlive => absurd rfl hlive.1
  · intro w₁ enable hw₁
    have honly := mctpBindingSetTxEnabled_txOnly env w₁ b enable
    exact hw₁.frame (by rw [honly.eid]; exact hw₁.eid) honly.routePolicy
      honly.reqTags honly.platformNow

end Table

/-! ### The requests that wait -/

section Waiting

variable {env : Env δ} {b : Nat}

/-- What a step does to the table and to the requests that wait: nothing, but time may pass; a new
entry in a slot that was not live; or what a response to this endpoint does. -/
inductive TagMove (st st' : Mctp δ × List MctpReqTag) : TagOp → Prop
  | keep {op : TagOp} (htags : st'.1.reqTags = st.1.reqTags) (hwaiting : st'.2 = st.2)
      (hnow : st.1.platformNow ≤ st'.1.platformNow) : TagMove st st' op
  | give {op : TagOp} (j : Fin 16) (r : MctpReqTag)
    (hdead : ¬ (st.1.reqTags j).Live st.1.platformNow)
      (htags : st'.1.reqTags
        = Function.update st.1.reqTags j
        { r with expiry := (st.1.platformNow + mctpTagTimeout) % 2 ^ 64 })
      (hwaiting : st'.2 = st.2 ++ [{ r with expiry := st.1.platformNow + mctpTagTimeout }])
      (hnow : st'.1.platformNow = st.1.platformNow) : TagMove st st' op
  | free {src dest tag : UInt8} {bytes : List UInt8}
    (hlocal : mctpRxDestIsLocal (st.1.busses 0) dest = true)
      (htags : st'.1.reqTags = (mctpDeallocTag st.1 0 dest src tag).reqTags)
      (hwaiting : st'.2 = st.2.filter fun r => !r.carries dest src tag)
      (hnow : st'.1.platformNow = st.1.platformNow) :
      TagMove st st' (.response src dest tag bytes)

theorem tagStep_moves {st : Mctp δ × List MctpReqTag} (htable : TagTable st.1) (op : TagOp) :
    TagMove st (tagStep env b st op) op := by
  cases op with
  | request eid msg msgLen =>
      rw [tagStep]
      cases hcall : mctpMessageTxRequest env st.1 eid msg msgLen with | mk w' result =>
      obtain ⟨rc, tag⟩ := result
      obtain ⟨_, hsetup, ⟨rfl, htags, _⟩ | ⟨t, w₁, rfl, halloc, htags⟩⟩ :=
        mctpMessageTxRequest_cases env hcall
      · exact .keep htags rfl hsetup.platformNow.symm.le
      · obtain ⟨_, _, j, hdead, hw₁⟩ := mctpAllocTag_some halloc
        refine .give j ⟨(st.1.busses 0).eid, eid, t, 0⟩ hdead ?_ rfl hsetup.platformNow
        dsimp only
        rw [htags, hw₁]
  | response src dest tag bytes =>
      obtain ⟨_, htags⟩ := mctpRx_response env st.1 0 ⟨src, dest, false, tag, bytes⟩
        rfl htable.endpoint
      have hnow := (mctpRx_sameSetup env st.1 0 ⟨src, dest, false, tag, bytes⟩).platformNow
      dsimp only at htags
      split at htags <;> rename_i hlocal
      · exact .free hlocal htags (if_pos hlocal) hnow
      · exact .keep htags (if_neg hlocal) hnow.symm.le
  | setEid eid =>
      exact .keep (mctpBusSetEid_reqTags st.1 b eid) rfl
        (mctpBusSetEid_rxOnly env st.1 b eid).platformNow.symm.le
  | elapse ms => exact .keep rfl rfl (Nat.le_add_right _ _)

theorem MctpReqTag.Live.mono {r : MctpReqTag} {now now' : Nat} (h : r.Live now')
    (hle : now ≤ now') :
    r.Live now :=
  ⟨h.1, le_trans hle h.2⟩

theorem TagMove.hasWaiting {st st' : Mctp δ × List MctpReqTag} {op : TagOp}
    (hmove : TagMove st st' op) (h : HasWaiting st.1 st.2)
    (hclock : st.1.platformNow < clockLimit) :
    HasWaiting st'.1 st'.2 := by
  intro r hr hlive
  cases hmove with
  | keep htags hwaiting hnow =>
      rw [hwaiting] at hr
      rw [htags]
      exact h r hr (hlive.mono hnow)
  | give j r' hdead htags hwaiting hnow =>
      have hexpiry : (st.1.platformNow + mctpTagTimeout) % 2 ^ 64
          = st.1.platformNow + mctpTagTimeout := by
        refine Nat.mod_eq_of_lt ?_
        unfold clockLimit mctpTagTimeout at hclock
        unfold mctpTagTimeout
        omega
      rw [hwaiting, List.mem_append, List.mem_singleton] at hr
      rw [hnow] at hlive
      rw [htags, hexpiry]
      rcases hr with hold | rfl
      · obtain ⟨i, hi⟩ := h r hold hlive
        have hij : i ≠ j := by
          rintro rfl
          rw [hi] at hdead
          exact hdead hlive
        exact ⟨i, by rw [Function.update_of_ne hij, hi]⟩
      · exact ⟨j, Function.update_self ..⟩
  | free hlocal htags hwaiting hnow =>
      rw [hwaiting] at hr
      rw [hnow] at hlive
      obtain ⟨hwaits, hother⟩ := List.mem_filter.mp hr
      obtain ⟨i, hi⟩ := h r hwaits hlive
      refine ⟨i, ?_⟩
      rw [mctpDeallocTag_reqTags] at htags
      split at htags
      · rw [htags, hi]
      · split at htags
        · rw [htags, hi]
        · rename_i j hfirst
          have hij : i ≠ j := by
            rintro rfl
            rw [← hi, Table.first_some hfirst] at hother
            cases hother
          rw [htags, Function.update_of_ne hij, hi]

theorem TagMove.now_le {st st' : Mctp δ × List MctpReqTag} {op : TagOp} (h : TagMove st st' op) :
    st.1.platformNow ≤ st'.1.platformNow := by
  cases h with
  | keep _ _ hnow => exact hnow
  | give _ _ _ _ _ hnow => exact hnow.symm.le
  | free _ _ _ hnow => exact hnow.symm.le

theorem tagRun_now_le (ops : List TagOp) (st : Mctp δ × List MctpReqTag) (htable : TagTable st.1) :
    st.1.platformNow ≤ (ops.foldl (tagStep env b) st).1.platformNow := by
  induction ops generalizing st with
  | nil => exact le_rfl
  | cons op ops ih => exact (tagStep_moves htable op).now_le.trans (ih _ (htable.step op))

theorem HasWaiting.run (ops : List TagOp) (st : Mctp δ × List MctpReqTag) (h : HasWaiting st.1 st.2)
    (htable : TagTable st.1) (hclock : (ops.foldl (tagStep env b) st).1.platformNow < clockLimit) :
    HasWaiting (ops.foldl (tagStep env b) st).1 (ops.foldl (tagStep env b) st).2 := by
  induction ops generalizing st with
  | nil => exact h
  | cons op ops ih =>
      have hnow : st.1.platformNow < clockLimit :=
        lt_of_le_of_lt (tagRun_now_le (op :: ops) st htable) hclock
      exact ih _ ((tagStep_moves htable op).hasWaiting h hnow) (htable.step op) hclock

end Waiting

/-- **Request tags are unique.** Whatever requests, responses and waiting a run is made of, two live
entries differ in their endpoints or their tag, every tag is below 8, and a request gets none of the
tags of the requests to the same endpoint that still wait. -/
theorem tagRun_unique (env : Env δ) (bindings : Nat → MctpBinding) (now : Nat) (dev : δ) (b : Nat)
    (eid : UInt8) (ops : List TagOp) (heid : eid ≠ 0)
    (hreg : 0 ≤ (mctpRegisterBus env (mctpSetup bindings now dev) b eid).2)
    (hclock : (ops.foldl (tagStep env b)
      ((mctpRegisterBus env (mctpSetup bindings now dev) b eid).1,
        [])).1.platformNow < clockLimit) :
    let r := ops.foldl (tagStep env b)
      ((mctpRegisterBus env (mctpSetup bindings now dev) b eid).1, [])
    (∀ i j, (r.1.reqTags i).Live r.1.platformNow → (r.1.reqTags j).Live r.1.platformNow →
        (r.1.reqTags i).localEid = (r.1.reqTags j).localEid →
        (r.1.reqTags i).remote = (r.1.reqTags j).remote →
        (r.1.reqTags i).tag = (r.1.reqTags j).tag → i = j) ∧
      (∀ i, (r.1.reqTags i).tag.toNat < 8) ∧
      ∀ remote msg msgLen tag, (mctpMessageTxRequest env r.1 remote msg msgLen).2.2 = some tag →
        ∀ req ∈ r.2, req.localEid = (r.1.busses 0).eid → req.remote = remote →
          r.1.platformNow ≤ req.expiry →
          req.tag ≠ tag := by
  have htable := tagTable_registered heid hreg
  have hinv := TagTable.run env b ops (_, []) htable
  have hwaiting := HasWaiting.run ops (_, []) (fun r hr => absurd hr List.not_mem_nil) htable hclock
  refine ⟨?_, hinv.tag_lt, ?_⟩
  · intro i j hi hj hlocal hremote htag
    exact hinv.unique i j hi hj (MctpReqTag.carries_iff.mpr ⟨hlocal, hremote, htag⟩)
  · intro remote msg msgLen tag hgiven req hreq hlocal hremote hwaits htag
    cases hcall : mctpMessageTxRequest env (ops.foldl (tagStep env b) (_, [])).1 remote msg
      msgLen with | mk w' result =>
    rw [hcall] at hgiven
    obtain ⟨_, _, ⟨hnone, _⟩ | ⟨t, w₁, ht, halloc, _⟩⟩ := mctpMessageTxRequest_cases env hcall
    · rw [hnone] at hgiven
      cases hgiven
    · rw [ht] at hgiven
      rw [Option.some.inj hgiven] at halloc
      have hlive : req.Live (ops.foldl (tagStep env b) (_, [])).1.platformNow :=
        ⟨by rw [hlocal]; exact hinv.eid, hwaits⟩
      obtain ⟨i, hi⟩ := hwaiting req hreq hlive
      refine (mctpAllocTag_some halloc).2.1 ⟨i, ?_, ?_⟩
      · rw [hi]
        exact hlive
      · rw [hi]
        exact MctpReqTag.carries_iff.mpr ⟨hlocal, hremote, htag⟩

/-- Two requests that wait at once. -/
theorem tagRun_unique_two_requests :
    let r := ([.request 9 ⟨0, 4, [1, 2, 3, 4]⟩ 4, .elapse 10, .request 9 ⟨1, 4, [5, 6, 7, 8]⟩ 4] :
      List TagOp).foldl
      (tagStep everyOther 0)
      ((mctpRegisterBus everyOther (mctpSetup (fun _ => smallBinding) 0 0) 0 8).1, [])
    r.2.map MctpReqTag.tag = [0, 1] ∧ ∀ i, (r.1.reqTags i).tag.toNat < 8 :=
  ⟨by decide, (tagRun_unique everyOther (fun _ => smallBinding) 0 0 0 8 _ (by decide)
    (by decide) (by decide)).2.1⟩

end LibMctp
