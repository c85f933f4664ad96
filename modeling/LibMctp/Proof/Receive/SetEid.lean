import LibMctp.Proof.Receive.Endpoint
import LibMctp.Proof.Tags.Atomic

/-!
# Set Endpoint ID and its answer

The handler of Set Endpoint ID writes the id before it asks for a buffer for its answer. Where there
is none it fails, and the failure is answered from a second buffer: the requester is told of an
error, and the id has changed.
-/

namespace LibMctp

variable {δ : Type}

/-! ### What the answer says -/

/-- The answers to a control request agree with what became of the endpoint id. -/
structure EidHonest (w w' : Mctp δ) (data : List UInt8) (replies : List Message) : Prop where
  error : ∀ reply ∈ replies, reply.bytes.getD 3 0 ≠ mctpCtrlCcSuccess →
    (w'.busses 0).eid = (w.busses 0).eid
  accepted : ∀ reply ∈ replies, reply.bytes.getD 2 0 = mctpCtrlCmdSetEndpointId →
    reply.bytes.getD 3 0 = mctpCtrlCcSuccess →
    data.length = 5 ∧ (data.getD 3 0 &&& mctpCtrlSetEidOpMask = mctpCtrlSetEidOpSet ∨
      data.getD 3 0 &&& mctpCtrlSetEidOpMask = mctpCtrlSetEidOpForce) ∧
      8 ≤ (data.getD 4 0).toNat ∧ (data.getD 4 0).toNat ≤ 254 ∧ (w'.busses 0).eid = data.getD 4 0
  other : (ctrlMsgHdr data).commandCode ≠ mctpCtrlCmdSetEndpointId →
    (w'.busses 0).eid = (w.busses 0).eid

/-- The endpoint's bus takes an answer with this tag. -/
def Mctp.TakesReply (w : Mctp δ) (tag : UInt8) : Prop :=
  tag &&& mctpHdrTagMask = tag ∧ w.TakesMessage 0

/-- The request is for another id, which is accepted, there is no buffer for the answer but one for
the error, and the bus takes that. -/
structure LosesReply (env : Env δ) (w : Mctp δ) (msg : Message) : Prop where
  sets : msg.SetsEid
  differs : msg.bytes.getD 4 0 ≠ (w.busses 0).eid
  first : env.msgAlloc w.nMsgAlloc = false
  second : env.msgAlloc (w.nMsgAlloc + 1) = true
  takes : w.TakesReply msg.tag

/-! ### Sending an answer -/

/-- Messages that satisfy `P` were taken on bus 0, and no others. -/
def Replied (P : Message → Prop) (w w' : Mctp δ) : Prop :=
  ∃ replies, (w'.busLog 0).accepted = (w.busLog 0).accepted ++ replies ∧ ∀ reply ∈ replies, P reply

section Answers

variable {env : Env δ} {w w' w'' : Mctp δ} {b : Nat} {binding : MctpBinding} {P : Message → Prop}

theorem Replied.of_eq (h : w'.busLog = w.busLog) :
    Replied P w w' := ⟨[], by rw [h, List.append_nil], by simp⟩

theorem Replied.trans (h : Replied P w w') (h' : Replied P w' w'') : Replied P w w'' := by
  obtain ⟨replies, hlog, hreplies⟩ := h
  obtain ⟨replies', hlog', hreplies'⟩ := h'
  refine ⟨replies ++ replies', by rw [hlog', hlog, List.append_assoc], ?_⟩
  intro reply hreply
  rw [List.mem_append] at hreply
  exact hreply.elim (hreplies reply) (hreplies' reply)

theorem takesReply_congr {tag : UInt8} (hstate : (w'.busses 0).state = (w.busses 0).state)
    (hbinding : w'.busBinding 0 = w.busBinding 0)
    (hmsg : (w'.busses 0).txMsg = (w.busses 0).txMsg) :
    w'.TakesReply tag ↔ w.TakesReply tag := by
  unfold Mctp.TakesReply
  refine and_congr_right fun _ => ?_
  constructor
  · rintro ⟨hstarted, hmtu, hidle⟩
    exact ⟨hstate ▸ hstarted, hbinding ▸ hmtu, hmsg ▸ hidle⟩
  · rintro ⟨hstarted, hmtu, hidle⟩
    exact ⟨hstate.symm ▸ hstarted, hbinding.symm ▸ hmtu, hmsg.symm ▸ hidle⟩

/-- A message is taken where the bus takes its tag. -/
theorem mctpMessageTxAlloced_accepted (env : Env δ) (hlinked : Linked w b binding) (eid : UInt8)
    (tagOwner : Bool) (tag : UInt8) {buf : MsgBuf} {bytes : List UInt8} (hbuf : buf.bytes = bytes) :
    w.TakesReply tag ∧
      ((mctpMessageTxAlloced env w eid tagOwner tag buf bytes.length).1.busLog 0).accepted
        = (w.busLog 0).accepted ++ [⟨(w.busses 0).eid, eid, tagOwner, tag, bytes⟩] ∨
      ¬ w.TakesReply tag ∧
        (mctpMessageTxAlloced env w eid tagOwner tag buf bytes.length).1.busLog = w.busLog := by
  cases hcall : mctpMessageTxAlloced env w eid tagOwner tag buf bytes.length with
    | mk w' rc =>
  obtain ⟨hrc, hsent, -⟩ | ⟨hrc, htaken⟩ := mctpMessageTxAlloced_cases env hlinked hbuf hcall
  · refine .inr ⟨?_, hsent.busLog⟩
    rintro ⟨htag, htakes⟩
    obtain ⟨w₁, htaken, -⟩ :=
      mctpMessageTxOnBus_taken env ⟨(w.busses 0).eid, eid, tagOwner, tag, bytes⟩ hbuf
      htakes.started htag
      htakes.mtu htakes.idle
    unfold mctpMessageTxAlloced at hcall
    rw [if_neg (not_not.mpr htag), hlinked.findBusForEid] at hcall
    exact hrc (Prod.mk.inj (hcall.symm.trans htaken)).2
  · exact .inl ⟨⟨htaken.tag, htaken.state, htaken.mtu, htaken.free⟩, htaken.accepted⟩

/-- An answer is taken where there is a buffer for it as well. -/
theorem sendResp_accepted (env : Env δ) (hlinked : Linked w b binding) (mctp : Option Unit)
    (srcEid tag : UInt8) (resp : List UInt8) :
    (env.msgAlloc w.nMsgAlloc = true ∧ w.TakesReply tag) ∧
      ((sendResp env w mctp srcEid tag resp).1.busLog 0).accepted
        = (w.busLog 0).accepted ++ [⟨(w.busses 0).eid, srcEid, false, tag, resp⟩] ∨
      ¬ (env.msgAlloc w.nMsgAlloc = true ∧ w.TakesReply tag) ∧
        (sendResp env w mctp srcEid tag resp).1.busLog = w.busLog := by
  have hsent := mctpMsgAlloc_nothingSent env w resp.length mctp
  have honly := mctpMsgAlloc_txOnly env w resp.length mctp
  unfold sendResp
  by_cases halloc : env.msgAlloc w.nMsgAlloc = true
  · obtain ⟨w₁, buf, hbuf⟩ := mctpMsgAlloc_some env w resp.length mctp halloc
    rw [hbuf] at hsent honly ⊢
    dsimp only at hsent honly ⊢
    have htakes : w₁.TakesReply tag ↔ w.TakesReply tag :=
      takesReply_congr (by rw [hsent.busses]) (honly.busBinding 0) (by rw [hsent.busses])
    have haccepted := mctpMessageTxAlloced_accepted env (hlinked.of_sameSetup honly.toSameSetup)
      srcEid false tag (rfl : ({ buf with bytes := resp } : MsgBuf).bytes = resp)
    rw [hsent.busLog, hsent.busses, htakes] at haccepted
    obtain ⟨hyes, hlog⟩ | ⟨hno, hlog⟩ := haccepted
    · exact .inl ⟨⟨halloc, hyes⟩, hlog⟩
    · exact .inr ⟨fun h => hno h.2, hlog⟩
  · have hnone : mctpMsgAlloc env w resp.length mctp
        = ((mctpMsgAlloc env w resp.length mctp).1, none) := by
      unfold mctpMsgAlloc
      rw [if_neg halloc]
    rw [hnone]
    exact .inr ⟨fun h => halloc h.1, hsent.busLog⟩

theorem replied_sendResp (hlinked : Linked w b binding) {mctp : Option Unit} {srcEid tag : UInt8}
    {resp : List UInt8} (hP : P ⟨(w.busses 0).eid, srcEid, false, tag, resp⟩) :
    Replied P w (sendResp env w mctp srcEid tag resp).1 := by
  obtain ⟨-, hlog⟩ | ⟨-, hlog⟩ := sendResp_accepted env hlinked mctp srcEid tag resp
  · exact ⟨_, hlog, by simpa using hP⟩
  · exact .of_eq hlog

end Answers

/-! ### The handler -/

/-- The message does not say that an id was set. -/
def SetsNothing (reply : Message) : Prop :=
  reply.bytes.getD 2 0 = mctpCtrlCmdSetEndpointId → reply.bytes.getD 3 0 ≠ mctpCtrlCcSuccess

section Handler

variable {env : Env δ} {w : Mctp δ} {b : Nat} {binding : MctpBinding}

theorem setsNothing_other {data : List UInt8}
    (hcmd : (ctrlMsgHdr data).commandCode ≠ mctpCtrlCmdSetEndpointId) (src dest tag : UInt8)
    (rest : List UInt8) : SetsNothing ⟨src, dest, false, tag, fillResp data ++ rest⟩ :=
  fun h => absurd h hcmd

theorem setsNothing_error (data : List UInt8) (src dest tag : UInt8) {cc : UInt8}
    (hcc : cc ≠ mctpCtrlCcSuccess) :
    SetsNothing ⟨src, dest, false, tag, fillResp data ++ [cc]⟩ :=
  fun _ => hcc

/-- A command that is not an accepted Set Endpoint ID says that nothing was set. -/
theorem replied_ctrlDispatch (hlinked : Linked w b binding) (srcEid tag : UInt8) {data : List UInt8}
    (h : (ctrlMsgHdr data).commandCode = mctpCtrlCmdSetEndpointId → ¬ AcceptedEid data) :
    Replied SetsNothing w (ctrlDispatch env w 0 srcEid tag data).1 := by
  have hsame : Replied SetsNothing w w := .of_eq rfl
  unfold ctrlDispatch
  dsimp only
  by_cases hcmd : (ctrlMsgHdr data).commandCode = mctpCtrlCmdSetEndpointId
  · rw [if_pos hcmd, mctpCtrlSetEndpointId_refused env w 0 srcEid tag (h hcmd)]
    exact hsame
  · rw [if_neg hcmd]
    have hanswer : ∀ mctp rest, Replied SetsNothing w
        (sendResp env w mctp srcEid tag (fillResp data ++ rest)).1 :=
      fun mctp rest => replied_sendResp hlinked (setsNothing_other hcmd _ _ _ _)
    split
    · unfold mctpCtrlGetEndpointId
      split
      · exact hsame
      · exact hanswer _ _
    · split
      · unfold mctpCtrlGetVersion
        rw [List.append_assoc]
        split
        · exact hsame
        · split
          · exact hsame
          · exact hanswer _ _
      · split
        · unfold mctpCtrlGetTypes
          rw [List.append_assoc]
          split
          · exact hsame
          · exact hanswer _ _
        · exact hsame

theorem replied_controlHandler (hlinked : Linked w b binding) {msg : Message} (h : ¬ msg.SetsEid) :
    Replied SetsNothing w
      (mctpControlHandler env w 0 msg.src msg.tagOwner msg.tag msg.bytes).1 := by
  have hsame : Replied SetsNothing w w := .of_eq rfl
  unfold mctpControlHandler replyError
  cases howner : msg.tagOwner with
  | false => exact hsame
  | true =>
      dsimp only
      split_ifs with _ _ htype _ hrequest hcc
      · exact hsame
      · exact hsame
      · exact hsame
      · exact hsame
      · exact hsame
      all_goals
        have hdispatch : Replied SetsNothing w (ctrlDispatch env w 0 msg.src msg.tag msg.bytes).1 :=
          replied_ctrlDispatch hlinked msg.src msg.tag
            fun hcmd haccepted => h ⟨howner, not_not.mp htype, not_not.mp hrequest, hcmd, haccepted⟩
      · have hlinked' :=
          hlinked.of_sameSetup (ctrlDispatch_rxOnly env w 0 msg.src msg.tag msg.bytes).toSameSetup
        exact hdispatch.trans (replied_sendResp hlinked' (setsNothing_error _ _ _ _ hcc))
      · exact hdispatch

/-- A message that is no accepted Set Endpoint ID request. -/
theorem honest_of_not_setsEid (hlinked : Linked w b binding) {msg : Message} (h : ¬ msg.SetsEid) :
    ∃ replies,
      ((mctpControlHandler env w 0 msg.src msg.tagOwner msg.tag msg.bytes).1.busLog 0).accepted
        = (w.busLog 0).accepted ++ replies ∧
      EidHonest w (mctpControlHandler env w 0 msg.src msg.tagOwner msg.tag msg.bytes).1
        msg.bytes replies := by
  obtain ⟨replies, hlog, hreplies⟩ := replied_controlHandler hlinked h
  have heid := mctpControlHandler_eid env w 0 h 0
  refine ⟨replies, hlog, fun _ _ _ => heid, ?_, fun _ => heid⟩
  intro reply hreply hcmd hcc
  exact absurd hcc (hreplies reply hreply hcmd)

/-- The instance with the id that a request sets. -/
def Mctp.withEid (w : Mctp δ) (eid : UInt8) : Mctp δ := w.setBus 0 { w.busses 0 with eid := eid }

@[simp] theorem withEid_eid (w : Mctp δ) (eid : UInt8) : ((w.withEid eid).busses 0).eid = eid := by
  simp [Mctp.withEid, Mctp.setBus]

theorem Linked.withEid (env : Env δ) (h : Linked w b binding) (eid : UInt8) :
    Linked (w.withEid eid) b binding :=
  h.of_sameSetup (rxOnly_setEid env 0 eid).toSameSetup

theorem takesReply_withEid (eid tag : UInt8) :
    (w.withEid eid).TakesReply tag ↔ w.TakesReply tag := by
  apply takesReply_congr
  · simp [Mctp.withEid, Mctp.setBus]
  · simp [Mctp.withEid, Mctp.setBus, Mctp.busBinding]
  · simp [Mctp.withEid, Mctp.setBus]

/-- The instance after an allocation that failed. -/
def Mctp.allocFailed (w : Mctp δ) (mctp : Option Unit) : Mctp δ :=
  { w with nMsgAlloc := w.nMsgAlloc + 1, hist := w.hist.deref mctp }

theorem sendResp_failed {mctp : Option Unit} {srcEid tag : UInt8} {resp : List UInt8}
    (halloc : env.msgAlloc w.nMsgAlloc = false) :
    sendResp env w mctp srcEid tag resp = (w.allocFailed mctp, mctpCtrlCcError) := by
  unfold sendResp mctpMsgAlloc
  simp [halloc, Mctp.allocFailed]

theorem sendResp_success (mctp : Option Unit) (srcEid tag : UInt8) (resp : List UInt8)
    (halloc : env.msgAlloc w.nMsgAlloc = true) :
    (sendResp env w mctp srcEid tag resp).2 = 0 := by
  unfold sendResp mctpMsgAlloc
  simp [halloc, mctpCtrlCcSuccess]

/-- The answer to a request that sets the id. -/
def setEidResp (data : List UInt8) : List UInt8 :=
  fillResp data ++ [mctpCtrlCcSuccess, mctpCtrlSetEidStatusAccepted, data.getD 4 0, 0]

/-- A request that sets the id: it is set, and the answer sent, or the error for want of a
buffer. -/
theorem mctpControlHandler_setsEid (hlinked : Linked w b binding) {msg : Message}
    (h : msg.SetsEid) :
    (mctpControlHandler env w 0 msg.src msg.tagOwner msg.tag msg.bytes).1
      = if env.msgAlloc w.nMsgAlloc = true then
          (sendResp env (w.withEid (msg.bytes.getD 4 0)) (some ()) msg.src msg.tag
            (setEidResp msg.bytes)).1
        else replyError env ((w.withEid (msg.bytes.getD 4 0)).allocFailed (some ())) (some ())
        msg.src msg.tag msg.bytes mctpCtrlCcError := by
  obtain ⟨howner, htype, hrequest, hcmd, haccepted⟩ := h
  obtain ⟨hlength, hop, hvalid⟩ := haccepted
  have hmctp : ((w.withEid (msg.bytes.getD 4 0)).busses 0).mctp = some () :=
    (hlinked.withEid env _).mctp
  have hdispatch : ctrlDispatch env w 0 msg.src msg.tag msg.bytes
      = sendResp env (w.withEid (msg.bytes.getD 4 0)) (some ()) msg.src msg.tag
      (setEidResp msg.bytes) := by
    unfold ctrlDispatch mctpCtrlSetEndpointId mctpBusSetEid
    dsimp only
    rw [if_pos hcmd, if_neg (not_not.mpr hlength), if_neg (not_not.mpr hop), if_neg hvalid,
      hlinked.bus, Option.getD_some, hlinked.back_eq]
    dsimp only
    rw [if_neg (by decide)]
    exact congrArg (fun mctp => sendResp env _ mctp msg.src msg.tag _) hmctp
  have hlong : ¬ msg.bytes.length < 1 ∧ ¬ msg.bytes.length < mctpCtrlMsgHdrSize := by
    rw [hlength]
    decide
  unfold mctpControlHandler
  dsimp only
  rw [howner, if_neg (by decide), if_neg hlong.1, if_neg (not_not.mpr htype), if_neg hlong.2,
    if_neg (not_not.mpr hrequest), hdispatch]
  by_cases halloc : env.msgAlloc w.nMsgAlloc = true
  · rw [if_pos halloc]
    have halloc' : env.msgAlloc (w.withEid (msg.bytes.getD 4 0)).nMsgAlloc = true := halloc
    rw [if_neg (not_not.mpr
      (sendResp_success (some ()) msg.src msg.tag (setEidResp msg.bytes) halloc'))]
  · rw [if_neg halloc, sendResp_failed (Bool.not_eq_true _ ▸ halloc)]
    dsimp only
    rw [if_pos (by decide)]
    exact congrArg (fun mctp => replyError env _ mctp msg.src msg.tag msg.bytes _) hmctp

theorem AcceptedEid.range {data : List UInt8} (h : AcceptedEid data) :
    8 ≤ (data.getD 4 0).toNat ∧ (data.getD 4 0).toNat ≤ 254 := by
  obtain ⟨-, -, hvalid⟩ := h
  have hlow : ¬ (data.getD 4 0).toNat < 8 :=
    fun hlt => hvalid (.inl (UInt8.lt_iff_toNat_lt.mpr hlt))
  have hhigh : (data.getD 4 0).toNat ≠ 255 := fun heq => hvalid (.inr (UInt8.toNat_inj.mp heq))
  have hbyte := (data.getD 4 0).toNat_lt
  omega

/-- Where there is a buffer for the answer, the answer is what happened. -/
theorem honest_of_alloc (hlinked : Linked w b binding) {msg : Message} (h : msg.SetsEid)
    (halloc : env.msgAlloc w.nMsgAlloc = true) :
    ∃ replies,
      ((mctpControlHandler env w 0 msg.src msg.tagOwner msg.tag msg.bytes).1.busLog 0).accepted
        = (w.busLog 0).accepted ++ replies ∧
      EidHonest w (mctpControlHandler env w 0 msg.src msg.tagOwner msg.tag msg.bytes).1
        msg.bytes replies := by
  have haccepted := h.2.2.2.2
  rw [mctpControlHandler_setsEid hlinked h, if_pos halloc]
  have heid :=
    (sendResp_txOnly env (w.withEid (msg.bytes.getD 4 0)) (some ()) msg.src msg.tag
      (setEidResp msg.bytes)).eid 0
  rw [withEid_eid] at heid
  have hreplied : Replied (fun reply => reply.bytes.getD 3 0 = mctpCtrlCcSuccess) w
      (sendResp env (w.withEid (msg.bytes.getD 4 0)) (some ()) msg.src msg.tag
        (setEidResp msg.bytes)).1 :=
    Replied.trans (.of_eq rfl) (replied_sendResp (hlinked.withEid env _) rfl)
  obtain ⟨replies, hlog, hreplies⟩ := hreplied
  refine ⟨replies, hlog, ?_, ?_, ?_⟩
  · intro reply hreply hcc
    exact absurd (hreplies reply hreply) hcc
  · intro reply _ _ _
    exact ⟨haccepted.1, haccepted.2.1, haccepted.range.1, haccepted.range.2, heid⟩
  · exact fun hcmd => absurd h.2.2.2.1 hcmd

/-- Where there is none, the error tells of an id that was not set, unless it is lost too. -/
theorem honest_iff_of_allocFailed (hlinked : Linked w b binding) {msg : Message} (h : msg.SetsEid)
    (halloc : env.msgAlloc w.nMsgAlloc = false) :
    (∃ replies,
      ((mctpControlHandler env w 0 msg.src msg.tagOwner msg.tag msg.bytes).1.busLog 0).accepted
        = (w.busLog 0).accepted ++ replies ∧
      EidHonest w (mctpControlHandler env w 0 msg.src msg.tagOwner msg.tag msg.bytes).1
        msg.bytes replies) ↔
      ¬ LosesReply env w msg := by
  rw [mctpControlHandler_setsEid hlinked h, if_neg (by simp [halloc])]
  unfold replyError
  generalize hw₁ : (w.withEid (msg.bytes.getD 4 0)).allocFailed (some ()) = w₁
  have hlinked₁ : Linked w₁ b binding := by
    obtain ⟨hn, hbus, hmctp, heq, hback, howner⟩ := hlinked.withEid env (msg.bytes.getD 4 0)
    rw [← hw₁]
    exact ⟨hn, hbus, hmctp, heq, hback, howner⟩
  have htakes : w₁.TakesReply msg.tag ↔ w.TakesReply msg.tag := by
    have hfailed : ((w.withEid (msg.bytes.getD 4 0)).allocFailed (some ())).TakesReply msg.tag ↔
        (w.withEid (msg.bytes.getD 4 0)).TakesReply msg.tag := takesReply_congr rfl rfl rfl
    rw [← hw₁]
    exact hfailed.trans (takesReply_withEid _ _)
  have hlog₁ : w₁.busLog = w.busLog := by rw [← hw₁]; rfl
  have hnext : w₁.nMsgAlloc = w.nMsgAlloc + 1 := by rw [← hw₁]; rfl
  have heid := (sendResp_txOnly env w₁ (some ()) msg.src msg.tag
    (fillResp msg.bytes ++ [mctpCtrlCcError])).eid 0
  have heid₁ : (w₁.busses 0).eid = msg.bytes.getD 4 0 := by
    rw [← hw₁]
    exact withEid_eid w _
  rw [heid₁] at heid
  have haccepted := sendResp_accepted env hlinked₁ (some ()) msg.src msg.tag
    (fillResp msg.bytes ++ [mctpCtrlCcError])
  rw [hlog₁, hnext, htakes] at haccepted
  obtain ⟨⟨hsecond, hyes⟩, hlog⟩ | ⟨hno, hlog⟩ := haccepted
  · -- the error is taken, so it is true only where the id did not change
    rw [hlog]
    constructor
    · rintro ⟨replies, hreplies, hhonest⟩ hloses
      rw [← List.append_cancel_left hreplies] at hhonest
      have hsame :=
        hhonest.error _ List.mem_cons_self (by decide : mctpCtrlCcError ≠ mctpCtrlCcSuccess)
      exact hloses.differs (heid.symm.trans hsame)
    · intro hnot
      have hsame : msg.bytes.getD 4 0 = (w.busses 0).eid := by
        by_contra hne
        exact hnot ⟨h, hne, halloc, hsecond, hyes⟩
      refine ⟨_, rfl, fun _ _ _ => heid.trans hsame, ?_, fun hcmd => absurd h.2.2.2.1 hcmd⟩
      intro reply hreply _ hcc
      rw [List.mem_singleton] at hreply
      rw [hreply] at hcc
      exact absurd hcc (by decide : mctpCtrlCcError ≠ mctpCtrlCcSuccess)
  · refine iff_of_true ⟨[], by rw [hlog, List.append_nil], ?_, ?_, ?_⟩ fun hloses =>
      hno ⟨hloses.second, hloses.takes⟩
    · simp
    · simp
    · exact fun hcmd => absurd h.2.2.2.1 hcmd

end Handler

/-- **When the answer to Set Endpoint ID is true.** -/
theorem mctpControlHandler_honest_iff (env : Env δ) {w : Mctp δ} {b : Nat} {binding : MctpBinding}
    (hlinked : Linked w b binding) (msg : Message) :
    (∃ replies,
      ((mctpControlHandler env w 0 msg.src msg.tagOwner msg.tag msg.bytes).1.busLog 0).accepted
        = (w.busLog 0).accepted ++ replies ∧
      EidHonest w (mctpControlHandler env w 0 msg.src msg.tagOwner msg.tag msg.bytes).1
        msg.bytes replies) ↔
      ¬ LosesReply env w msg := by
  by_cases hsets : msg.SetsEid
  · cases halloc : env.msgAlloc w.nMsgAlloc with
    | true =>
        refine iff_of_true (honest_of_alloc hlinked hsets halloc) fun hloses => ?_
        rw [hloses.first] at halloc
        cases halloc
    | false => exact honest_iff_of_allocFailed hlinked hsets halloc
  · exact iff_of_true (honest_of_not_setsEid hlinked hsets) fun hloses => hsets hloses.sets

/-- A request to become EID 10. -/
def becomeTen : Message := ⟨9, 8, true, 1, [0, 0x80, 0x01, 0x00, 10]⟩

theorem slowEndpoint_linked :
    Linked slowEndpoint 0 { smallBinding with bus := some 0, mctp := some () } :=
  ⟨rfl, rfl, rfl, rfl, rfl, rfl⟩

theorem mctpControlHandler_honest_iff_ten :
    Linked slowEndpoint 0 { smallBinding with bus := some 0, mctp := some () } ∧
      ∃ replies,
        ((mctpControlHandler everyOther slowEndpoint 0 9 true 1 becomeTen.bytes).1.busLog 0).accepted
          = (slowEndpoint.busLog 0).accepted ++ replies ∧
        EidHonest slowEndpoint
          (mctpControlHandler everyOther slowEndpoint 0 9 true 1 becomeTen.bytes).1
          becomeTen.bytes replies := by
  refine ⟨slowEndpoint_linked,
    (mctpControlHandler_honest_iff everyOther slowEndpoint_linked becomeTen).mpr fun hloses => ?_⟩
  exact absurd hloses.first (by decide)

/-- There is no buffer for the first answer: the id is 10, and the requester is told of an error. -/
theorem mctpControlHandler_not_honest :
    ((mctpControlHandler { everyOther with msgAlloc := fun n => n != 0 } slowEndpoint 0 9 true 1
      becomeTen.bytes).1.busLog 0).accepted
        = [⟨10, 9, false, 1, [0, 0, 0x01, mctpCtrlCcError]⟩] ∧
      ((mctpControlHandler { everyOther with msgAlloc := fun n => n != 0 } slowEndpoint 0 9 true 1
        becomeTen.bytes).1.busses 0).eid = 10 ∧
      ¬ ∃ replies,
        ((mctpControlHandler { everyOther with msgAlloc := fun n => n != 0 } slowEndpoint 0 9 true 1
            becomeTen.bytes).1.busLog 0).accepted = (slowEndpoint.busLog 0).accepted ++ replies ∧
        EidHonest slowEndpoint
          (mctpControlHandler { everyOther with msgAlloc := fun n => n != 0 }
            slowEndpoint 0 9 true 1
          becomeTen.bytes).1 becomeTen.bytes replies := by
  have hlog : ((mctpControlHandler { everyOther with msgAlloc := fun n => n != 0 }
    slowEndpoint 0 9 true 1
      becomeTen.bytes).1.busLog 0).accepted
      = [⟨10, 9, false, 1, [0, 0, 0x01, mctpCtrlCcError]⟩] := by decide
  have heid : ((mctpControlHandler { everyOther with msgAlloc := fun n => n != 0 }
    slowEndpoint 0 9 true 1
      becomeTen.bytes).1.busses 0).eid = 10 := by decide
  refine ⟨hlog, heid, ?_⟩
  rintro ⟨replies, hreplies, hhonest⟩
  rw [hlog] at hreplies
  have hmem : (⟨10, 9, false, 1, [0, 0, 0x01, mctpCtrlCcError]⟩ : Message) ∈ replies := by
    have hone : [⟨10, 9, false, 1, [0, 0, 0x01, mctpCtrlCcError]⟩] = replies := hreplies
    rw [← hone]
    exact List.mem_cons_self
  have hsame := hhonest.error _ hmem (by decide)
  rw [heid] at hsame
  exact absurd hsame (by decide)

end LibMctp
