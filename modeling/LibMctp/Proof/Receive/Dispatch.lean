import LibMctp.Proof.Instance.Reached
import LibMctp.Proof.Receive.Outcome

/-!
# What becomes of a message

`mctp_rx` decides in four functions whether a message is answered, shown to a handler or dropped.
Exactly one of these happens, and an answer repeats the header of the request it is for.
-/

namespace LibMctp

open Fragment

variable {δ : Type}

/-! ### Requests and answers -/

/-- The message starts with the three bytes of a control header, and has the `Rq` bit. -/
def IsCtrlRequest (bytes : List UInt8) : Prop :=
  mctpCtrlMsgHdrSize ≤ bytes.length ∧ (ctrlMsgHdr bytes).icMsgType = mctpCtrlHdrMsgType ∧
    (ctrlMsgHdr bytes).rqDgramInst &&& mctpCtrlHdrFlagRequest ≠ 0

instance (bytes : List UInt8) : Decidable (IsCtrlRequest bytes) :=
  inferInstanceAs (Decidable (_ ∧ _ ∧ _))

/-- The message has the `D` bit. -/
def IsDatagram (bytes : List UInt8) : Prop :=
  (ctrlMsgHdr bytes).rqDgramInst &&& mctpCtrlHdrFlagDgram ≠ 0

instance (bytes : List UInt8) : Decidable (IsDatagram bytes) := inferInstanceAs (Decidable (¬ _))

/-- The command is one of the transport's own. -/
def IsTransport (bytes : List UInt8) : Prop :=
  mctpCtrlCmdFirstTransport ≤ (ctrlMsgHdr bytes).commandCode

instance (bytes : List UInt8) : Decidable (IsTransport bytes) := inferInstanceAs (Decidable (_ ≤ _))

/-- What follows the completion code of an answer is as long as its count says, and lists these
types. -/
structure Completes (types : List UInt8) (commandCode cc : UInt8) (rest : List UInt8) : Prop where
  versions : commandCode = mctpCtrlCmdGetVersionSupport → cc = mctpCtrlCcSuccess →
    ∃ count versions, rest = count :: versions ∧ versions.length = 4 * count.toNat
  types : commandCode = mctpCtrlCmdGetMessageTypeSupport → cc = mctpCtrlCcSuccess →
    ∃ count, rest = count :: types ∧ types.length = count.toNat

/-- The message answers the request, at an endpoint with these message types. -/
structure IsAnswer (types : List UInt8) (request reply : Message) : Prop where
  dest : reply.dest = request.src
  tagOwner : reply.tagOwner = false
  tag : reply.tag = request.tag
  bytes : ∃ cc rest, reply.bytes = [0, request.bytes.getD 1 0 &&& 0x1f,
    request.bytes.getD 2 0, cc] ++ rest ∧
    Completes types (request.bytes.getD 2 0) cc rest

/-- What handling a message led to: the calls of handlers, and the messages sent. -/
structure Effect (binding : MctpBinding) (w w' : Mctp δ) (calls : List Upcall)
    (replies : List Message) : Prop where
  upcalls : w'.hist.upcalls = w.hist.upcalls ++ calls
  accepted : (w'.busLog 0).accepted = (w.busLog 0).accepted ++ replies
  sent : (w'.busLog 0).sentPkts = (w.busLog 0).sentPkts ++ msgPackets binding (w.busses
    0).txSeq.toNat replies
  idle : (w'.busses 0).txMsg = none
  other : w'.busLog 1 = w.busLog 1

/-- What a message leads to at an endpoint, whose binding has a `control_rx` or not. To `control_rx`
the tag is the owner bit, and the owner bit the tag. -/
def Leads (controlRx : Bool) (types : List UInt8) (msg : Message) (calls : List Upcall)
    (replies : List Message) : Prop :=
  if IsCtrlRequest msg.bytes then
    if IsTransport msg.bytes then
      calls = [if controlRx then .controlRx msg.src (msg.tag != 0) msg.tagOwner.toUInt8 msg.bytes
        else .messageRx msg.src msg.tagOwner msg.tag msg.bytes] ∧ replies = []
    else if msg.tagOwner = false then
      calls = [.messageRx msg.src msg.tagOwner msg.tag msg.bytes] ∧ replies = []
    else if IsDatagram msg.bytes then calls = [] ∧ replies = []
    else calls = [] ∧ ∃ reply, replies = [reply] ∧ IsAnswer types msg reply
  else calls = [.messageRx msg.src msg.tagOwner msg.tag msg.bytes] ∧ replies = []

section Leads

variable (controlRx : Bool) (types : List UInt8) {msg : Message}

theorem leads_other (hrequest : ¬ IsCtrlRequest msg.bytes) :
    Leads controlRx types msg [.messageRx msg.src msg.tagOwner msg.tag msg.bytes] [] := by
  rw [Leads, if_neg hrequest]
  exact ⟨rfl, rfl⟩

theorem leads_transport (hrequest : IsCtrlRequest msg.bytes) (htransport : IsTransport msg.bytes) :
    Leads controlRx types msg
      [if controlRx then .controlRx msg.src (msg.tag != 0) msg.tagOwner.toUInt8 msg.bytes
      else .messageRx msg.src msg.tagOwner msg.tag msg.bytes] [] := by
  rw [Leads, if_pos hrequest, if_pos htransport]
  exact ⟨rfl, rfl⟩

theorem leads_response (hrequest : IsCtrlRequest msg.bytes) (htransport : ¬ IsTransport msg.bytes)
    (howner : msg.tagOwner = false) :
    Leads controlRx types msg [.messageRx msg.src msg.tagOwner msg.tag msg.bytes] [] := by
  rw [Leads, if_pos hrequest, if_neg htransport, if_pos howner]
  exact ⟨rfl, rfl⟩

variable {types}

theorem leads_request (hrequest : IsCtrlRequest msg.bytes) (htransport : ¬ IsTransport msg.bytes)
    (howner : msg.tagOwner = true) {replies : List Message}
    (hreplies : if IsDatagram msg.bytes then replies = []
      else ∃ reply, replies = [reply] ∧ IsAnswer types msg reply) :
    Leads controlRx types msg [] replies := by
  rw [Leads, if_pos hrequest, if_neg htransport, if_neg (by rw [howner]; decide)]
  by_cases hdgram : IsDatagram msg.bytes
  · rw [if_pos hdgram] at hreplies ⊢
    exact ⟨rfl, hreplies⟩
  · rw [if_neg hdgram] at hreplies ⊢
    exact ⟨rfl, hreplies⟩

end Leads

/-! ### Sending an answer -/

/-- The endpoint has a buffer for an answer, and its binding takes the packet of one. -/
structure CanAnswer (env : Env δ) (b : Nat) (binding : MctpBinding) (types : List UInt8)
    (w : Mctp δ) : Prop where
  linked : Linked w b binding
  mtu : mctpPacketSize mctpBtu ≤ binding.pktSize
  seq : (w.busses 0).txSeq.toNat < 4
  enabled : (w.busses 0).state = .txEnabled
  idle : (w.busses 0).txMsg = none
  alloc : ∀ n, w.nMsgAlloc ≤ n → env.msgAlloc n = true
  accepts : ∀ pkt, (env.tx b w.dev pkt).2.rc = 0
  lists : w.control.Lists types

section Answer

variable {env : Env δ} {b : Nat} {binding : MctpBinding} {types : List UInt8} {w w' : Mctp δ}

theorem CanAnswer.quiet (h : CanAnswer env b binding types w) (hquiet : Quiet env w w')
    (hn : w'.nMsgAlloc = w.nMsgAlloc) :
    CanAnswer env b binding types w' where
  linked := h.linked.of_sameSetup hquiet.setup
  mtu := h.mtu
  seq := by
    rw [hquiet.sent.busses]
    exact h.seq
  enabled := by
    rw [hquiet.sent.busses]
    exact h.enabled
  idle := by
    rw [hquiet.sent.busses]
    exact h.idle
  alloc := by
    rw [hn]
    exact h.alloc
  accepts := by
    rw [hquiet.sent.dev]
    exact h.accepts
  lists := by
    rw [hquiet.setup.control]
    exact h.lists

theorem CanAnswer.setEid (h : CanAnswer env b binding types w) (eid : UInt8) :
    CanAnswer env b binding types (w.setBus 0 { w.busses 0 with eid := eid }) where
  linked := h.linked.of_sameSetup (rxOnly_setEid env 0 eid).toSameSetup
  mtu := h.mtu
  seq := by simpa [Mctp.setBus] using h.seq
  enabled := by simpa [Mctp.setBus] using h.enabled
  idle := by simpa [Mctp.setBus] using h.idle
  alloc := h.alloc
  accepts := h.accepts
  lists := h.lists

/-- Nothing happened. -/
theorem CanAnswer.effect_nil (h : CanAnswer env b binding types w)
    (hupcalls : w'.hist.upcalls = w.hist.upcalls) (hsent : NothingSent w w') :
    Effect binding w w' [] [] := by
  refine ⟨?_, ?_, ?_, ?_, ?_⟩
  · rw [hupcalls, List.append_nil]
  · rw [hsent.busLog, List.append_nil]
  · rw [hsent.busLog]
    exact (List.append_nil _).symm
  · rw [hsent.busses]
    exact h.idle
  · rw [hsent.busLog]

/-- A reply fits one packet. -/
theorem msgPackets_single (msg : Message) (n : Nat) (hshort : msg.bytes.length ≤ binding.chunk) :
    msgPackets binding n [msg] = [fragPkt binding msg.label ⟨true, true, n % 4, msg.bytes⟩] := by
  have hconcat := msgPackets_concat binding n [] msg
  rw [List.nil_append, cut_of_le hshort] at hconcat
  exact hconcat

theorem CanAnswer.sendResp (h : CanAnswer env b binding types w) (mctp : Option Unit)
    (srcEid : UInt8) {msgTag : UInt8} {resp : List UInt8}
    (htag : msgTag &&& mctpHdrTagMask = msgTag) (hshort : resp.length ≤ mctpBtu) :
    (sendResp env w mctp srcEid msgTag resp).2 = mctpCtrlCcSuccess ∧
      Effect binding w (sendResp env w mctp srcEid msgTag resp).1 []
        [⟨(w.busses 0).eid, srcEid, false, msgTag, resp⟩] := by
  have hmtu := h.mtu
  unfold mctpPacketSize mctpHdrSize mctpBtu at hmtu
  have hchunk : mctpBtu ≤ binding.chunk := by
    unfold mctpBtu MctpBinding.chunk mctpHdrSize
    omega
  have honly := sendResp_txOnly env w mctp srcEid msgTag resp
  have halloc := mctpMsgAlloc_passive env w resp.length mctp
  obtain ⟨w₁, buf, hbuf⟩ := mctpMsgAlloc_some env w resp.length mctp (h.alloc _ le_rfl)
  rw [hbuf] at halloc
  dsimp only at halloc
  unfold LibMctp.sendResp mctpMessageTxAlloced at honly ⊢
  rw [hbuf] at honly ⊢
  dsimp only at honly ⊢
  have hlinked := h.linked.of_sameSetup halloc.setup
  rw [if_neg (not_not.mpr htag), hlinked.findBusForEid] at honly ⊢
  dsimp only at honly ⊢
  have hbus : w₁.busses = w.busses := halloc.sent.busses
  obtain ⟨w', hcall, htaken⟩ := mctpMessageTxOnBus_taken env (w := w₁) (i := 0)
    ⟨(w₁.busses 0).eid, srcEid, false, msgTag, resp⟩
    (rfl : ({ buf with bytes := resp } : MsgBuf).bytes = resp)
    (by rw [hbus, h.enabled]; decide) htag
    (by rw [hlinked.busBinding,
      mctpBodySize_eq binding (by unfold mctpHdrSize; omega)]; exact hchunk)
    (by rw [hbus]; exact h.idle)
  dsimp only at hcall
  rw [hcall] at honly ⊢
  have hone := htaken.sentOne (n := (w.busses 0).txSeq.toNat) hlinked.bus hlinked.eq
    (by rw [halloc.sent.dev]; exact h.accepts) (chunk_pos h.mtu) (hshort.trans hchunk)
    (by rw [hbus]; exact h.enabled)
    (by rw [hbus, Nat.mod_eq_of_lt h.seq])
  obtain ⟨r, hrc, hlog⟩ := hone.sent
  rw [hbus, halloc.sent.busLog] at hlog
  refine ⟨rfl, ?_, ?_, ?_, hone.idle, ?_⟩
  · dsimp only
    rw [honly.upcalls, List.append_nil]
  · dsimp only
    rw [hlog]
    rfl
  · dsimp only
    rw [hlog, msgPackets_single _ _ (hshort.trans hchunk)]
    exact (BusLog.sentPkts_push ((w.busLog 0).accept _) _ r).trans (if_pos hrc)
  · rw [(hone.others 1 (by decide)).2, halloc.sent.busLog]

end Answer

/-! ### Handling a request -/

section Request

variable {env : Env δ} {b : Nat} {binding : MctpBinding} {types : List UInt8} {w w' : Mctp δ}
  {msg : Message}

/-- The handler of a command sent an answer, or changed nothing and gave the completion code of an
error. -/
def Answered (binding : MctpBinding) (types : List UInt8) (msg : Message) (w : Mctp δ)
    (r : Mctp δ × UInt8) : Prop :=
  (r.2 = mctpCtrlCcSuccess ∧ ∃ reply, Effect binding w r.1 [] [reply] ∧ IsAnswer types msg reply) ∨
    (r.2 ≠ mctpCtrlCcSuccess ∧ r.1 = w)

theorem isAnswer_fillResp (src : UInt8) {cc : UInt8} {rest : List UInt8}
    (hcompletes : Completes types (msg.bytes.getD 2 0) cc rest) :
    IsAnswer types msg ⟨src, msg.src, false, msg.tag, fillResp msg.bytes ++ cc :: rest⟩ :=
  ⟨rfl, rfl, rfl, cc, rest, rfl, hcompletes⟩

theorem completes_error {commandCode cc : UInt8} {rest : List UInt8}
    (hcc : cc ≠ mctpCtrlCcSuccess) :
    Completes types commandCode cc rest :=
  ⟨fun _ h => absurd h hcc, fun _ h => absurd h hcc⟩

theorem completes_other {commandCode cc : UInt8} {rest : List UInt8}
    (hversion : commandCode ≠ mctpCtrlCmdGetVersionSupport)
    (htypes : commandCode ≠ mctpCtrlCmdGetMessageTypeSupport) :
    Completes types commandCode cc rest :=
  ⟨fun h _ => absurd h hversion, fun h _ => absurd h htypes⟩

theorem answered_error {cc : UInt8} (hcc : cc ≠ mctpCtrlCcSuccess) :
    Answered binding types msg w (w, cc) := .inr ⟨hcc, rfl⟩

/-- An answer is sent, with any completion code. -/
theorem CanAnswer.answers (h : CanAnswer env b binding types w) (mctp : Option Unit)
    (htag : msg.tag &&& mctpHdrTagMask = msg.tag) (cc : UInt8) (rest : List UInt8)
    (hshort : rest.length ≤ 60) (hcompletes : Completes types (msg.bytes.getD 2 0) cc rest) :
    (LibMctp.sendResp env w mctp msg.src msg.tag (fillResp msg.bytes ++ cc :: rest)).2
      = mctpCtrlCcSuccess ∧
      ∃ reply, Effect binding w
        (LibMctp.sendResp env w mctp msg.src msg.tag (fillResp msg.bytes ++ cc :: rest)).1
        [] [reply] ∧
        IsAnswer types msg reply := by
  have hlength : (fillResp msg.bytes ++ cc :: rest).length ≤ mctpBtu := by
    have hhead : (fillResp msg.bytes).length = 3 := rfl
    rw [List.length_append, List.length_cons, hhead]
    unfold mctpBtu
    omega
  obtain ⟨hcc, heffect⟩ := h.sendResp mctp msg.src htag hlength
  exact ⟨hcc, _, heffect, isAnswer_fillResp _ hcompletes⟩

theorem answered_setEndpointId (h : CanAnswer env b binding types w)
    (htag : msg.tag &&& mctpHdrTagMask = msg.tag)
    (hcmd : msg.bytes.getD 2 0 = mctpCtrlCmdSetEndpointId) :
    Answered binding types msg w (mctpCtrlSetEndpointId env w 0 msg.src msg.tag msg.bytes) := by
  unfold mctpCtrlSetEndpointId
  split
  · exact answered_error (by decide)
  · dsimp only
    split
    · exact answered_error (by decide)
    · rw [h.linked.bus, Option.getD_some]
      unfold mctpBusSetEid
      split
      · dsimp only
        rw [if_pos (by decide)]
        exact answered_error (by decide)
      · rw [h.linked.back_eq]
        dsimp only
        rw [if_neg (by decide)]
        obtain ⟨hcc, reply, heffect, hanswer⟩ := (h.setEid (msg.bytes.getD 4 0)).answers
          ((w.setBus 0 { w.busses 0 with eid := msg.bytes.getD 4 0 }).busses 0).mctp
          htag mctpCtrlCcSuccess
          [mctpCtrlSetEidStatusAccepted, msg.bytes.getD 4 0, 0] (by decide : 3 ≤ 60)
          (completes_other (by rw [hcmd]; decide) (by rw [hcmd]; decide))
        exact .inl ⟨hcc, reply,
          ⟨heffect.upcalls,
            heffect.accepted, by simpa [Mctp.setBus] using heffect.sent, heffect.idle,
          heffect.other⟩, hanswer⟩

theorem answered_getEndpointId (h : CanAnswer env b binding types w)
    (htag : msg.tag &&& mctpHdrTagMask = msg.tag)
    (hcmd : msg.bytes.getD 2 0 = mctpCtrlCmdGetEndpointId) :
    Answered binding types msg w (mctpCtrlGetEndpointId env w 0 msg.src msg.tag msg.bytes) := by
  unfold mctpCtrlGetEndpointId
  split
  · exact answered_error (by decide)
  · exact .inl (h.answers _ htag _ _ (by decide : 3 ≤ 60)
      (completes_other (by rw [hcmd]; decide) (by rw [hcmd]; decide)))

theorem answered_getVersion (h : CanAnswer env b binding types w)
    (htag : msg.tag &&& mctpHdrTagMask = msg.tag)
    (hcmd : msg.bytes.getD 2 0 = mctpCtrlCmdGetVersionSupport) :
    Answered binding types msg w (mctpCtrlGetVersion env w 0 msg.src msg.tag msg.bytes) := by
  unfold mctpCtrlGetVersion
  split
  · exact answered_error (by decide)
  · split
    · exact answered_error (by decide)
    · refine .inl (h.answers _ htag _ (mctpProtocolCount :: mctpProtocolVersions) (by decide)
        ⟨fun _ _ => ?_, fun h => ?_⟩)
      · exact ⟨_, _, rfl, by decide⟩
      · rw [hcmd] at h
        exact absurd h (by decide)

theorem answered_getTypes (h : CanAnswer env b binding types w)
    (htag : msg.tag &&& mctpHdrTagMask = msg.tag)
    (hcmd : msg.bytes.getD 2 0 = mctpCtrlCmdGetMessageTypeSupport) :
    Answered binding types msg w (mctpCtrlGetTypes env w 0 msg.src msg.tag msg.bytes) := by
  have hle := h.lists.le
  have hroom := h.lists.room
  have hnum := h.lists.num
  unfold mctpControlMaxTypes at hle hroom
  have hread : readBytes w.control.msgTypes 0 w.control.numMsgTypes = types := by
    rw [readBytes_of_le (by omega), List.drop_zero]
    exact h.lists.eq
  unfold mctpCtrlGetTypes
  split
  · exact answered_error (by decide)
  · rw [hread, List.append_assoc]
    refine .inl (h.answers _ htag _ (UInt8.ofNat w.control.numMsgTypes :: types) ?_
      ⟨fun h => ?_, fun _ _ => ?_⟩)
    · rw [List.length_cons]
      omega
    · rw [hcmd] at h
      exact absurd h (by decide)
    · refine ⟨_, rfl, ?_⟩
      rw [UInt8.toNat_ofNat', hnum]
      exact (Nat.mod_eq_of_lt (by omega)).symm

theorem answered_ctrlDispatch (h : CanAnswer env b binding types w)
    (htag : msg.tag &&& mctpHdrTagMask = msg.tag) :
    Answered binding types msg w (ctrlDispatch env w 0 msg.src msg.tag msg.bytes) := by
  unfold ctrlDispatch
  dsimp only
  split
  · exact answered_setEndpointId h htag ‹_›
  · split
    · exact answered_getEndpointId h htag ‹_›
    · split
      · exact answered_getVersion h htag ‹_›
      · split
        · exact answered_getTypes h htag ‹_›
        · exact answered_error (by decide)

/-! ### Handling a message -/

private theorem flags_request : ∀ n : Fin 256, UInt8.ofNat n.val &&& mctpCtrlHdrFlagRequest ≠ 0 →
    (UInt8.ofNat n.val &&& (mctpCtrlHdrFlagRequest |||
      mctpCtrlHdrFlagDgram) ≠ mctpCtrlHdrFlagRequest ↔
      UInt8.ofNat n.val &&& mctpCtrlHdrFlagDgram ≠ 0) := by
  decide +kernel

/-- The flags the control handler tests are those of a datagram. -/
theorem isDatagram_iff {bytes : List UInt8} (h : IsCtrlRequest bytes) :
    (ctrlMsgHdr bytes).rqDgramInst &&& (mctpCtrlHdrFlagRequest |||
      mctpCtrlHdrFlagDgram) ≠ mctpCtrlHdrFlagRequest ↔
      IsDatagram bytes := by
  have hflags := flags_request ⟨(ctrlMsgHdr bytes).rqDgramInst.toNat, UInt8.toNat_lt _⟩
  rw [UInt8.ofNat_toNat] at hflags
  exact hflags h.2.2

theorem isTransport_iff (bytes : List UInt8) :
    mctpCtrlCmdIsTransport (ctrlMsgHdr bytes) = true ↔ IsTransport bytes := by
  have hlast : (ctrlMsgHdr bytes).commandCode ≤ mctpCtrlCmdLastTransport := by
    rw [UInt8.le_iff_toNat_le]
    exact Nat.le_of_lt_succ (UInt8.toNat_lt _)
  rw [mctpCtrlCmdIsTransport, Bool.and_eq_true, decide_eq_true_eq, decide_eq_true_eq]
  exact and_iff_left hlast

theorem isCtrlRequest_iff (bytes : List UInt8) :
    (bytes.length ≥ mctpCtrlMsgHdrSize ∧ mctpCtrlCmdIsRequest (ctrlMsgHdr bytes) = true) ↔
      IsCtrlRequest bytes := by
  unfold IsCtrlRequest mctpCtrlCmdIsRequest
  rw [Bool.and_eq_true, beq_iff_eq, bne_iff_ne]

/-- A request with the owner bit is dropped or answered. -/
theorem CanAnswer.controlHandler (h : CanAnswer env b binding types w)
    (htag : msg.tag &&& mctpHdrTagMask = msg.tag) (hrequest : IsCtrlRequest msg.bytes)
    (howner : msg.tagOwner = true) :
    (mctpControlHandler env w 0 msg.src msg.tagOwner msg.tag msg.bytes).2 = true ∧
      ∃ replies, Effect binding w
        (mctpControlHandler env w 0 msg.src msg.tagOwner msg.tag msg.bytes).1 [] replies ∧
        if IsDatagram msg.bytes then replies = []
        else ∃ reply, replies = [reply] ∧ IsAnswer types msg reply := by
  have hlength : 3 ≤ msg.bytes.length := hrequest.1
  unfold mctpControlHandler
  dsimp only
  rw [howner, if_neg (by decide), if_neg (by omega), if_neg (not_not.mpr hrequest.2.1),
    if_neg (not_lt.mpr hrequest.1)]
  by_cases hdgram : IsDatagram msg.bytes
  · rw [if_pos ((isDatagram_iff hrequest).mpr hdgram)]
    refine ⟨rfl, [], h.effect_nil rfl (.refl w), ?_⟩
    rw [if_pos hdgram]
  · rw [if_neg (mt (isDatagram_iff hrequest).mp hdgram)]
    have hanswered := answered_ctrlDispatch h htag
    revert hanswered
    cases ctrlDispatch env w 0 msg.src msg.tag msg.bytes with | mk w₁ cc =>
    rintro (⟨hcc, reply, heffect, hanswer⟩ | ⟨hcc, hw₁⟩)
    · dsimp only at hcc ⊢
      rw [if_neg (not_not.mpr (show cc = 0 from hcc))]
      refine ⟨rfl, [reply], heffect, ?_⟩
      rw [if_neg hdgram]
      exact ⟨reply, rfl, hanswer⟩
    · dsimp only at hcc hw₁ ⊢
      rw [if_pos (show cc ≠ 0 from hcc), hw₁]
      obtain ⟨-, reply, heffect, hanswer⟩ := h.answers (w.busses 0).mctp htag cc [] (by decide)
        (completes_error hcc)
      refine ⟨rfl, [reply], heffect, ?_⟩
      rw [if_neg hdgram]
      exact ⟨reply, rfl, hanswer⟩

theorem CanAnswer.effect_upcall (h : CanAnswer env b binding types w) (call : Upcall) :
    Effect binding w (w.upcall call) [call] [] :=
  ⟨rfl, (List.append_nil _).symm, (List.append_nil _).symm, h.idle, rfl⟩

theorem mctpRxControl_eq (w : Mctp δ) (i : Fin 2) (msg : Message) :
    mctpRxControl env w i msg = if IsCtrlRequest msg.bytes then
      if IsTransport msg.bytes then
        if (w.busBinding i).controlRx then
          (w.upcall (.controlRx msg.src (msg.tag != 0) msg.tagOwner.toUInt8 msg.bytes), true)
        else (w, false)
      else mctpControlHandler env w i msg.src msg.tagOwner msg.tag msg.bytes
    else (w, false) := by
  unfold mctpRxControl mctpCtrlHandleMsg
  simp only [isCtrlRequest_iff, isTransport_iff]

/-- The control part deals with the message, or leaves it to `message_rx`. -/
theorem CanAnswer.rxControl (h : CanAnswer env b binding types w)
    (htag : msg.tag &&& mctpHdrTagMask = msg.tag) :
    ((mctpRxControl env w 0 msg).2 = true ∧
      ∃ calls replies, Effect binding w (mctpRxControl env w 0 msg).1 calls replies ∧
        Leads binding.controlRx types msg calls replies) ∨
      mctpRxControl env w 0 msg = (w, false) ∧
        Leads binding.controlRx types msg [.messageRx msg.src msg.tagOwner msg.tag msg.bytes]
          [] := by
  rw [mctpRxControl_eq, h.linked.busBinding]
  by_cases hrequest : IsCtrlRequest msg.bytes
  · rw [if_pos hrequest]
    by_cases htransport : IsTransport msg.bytes
    · rw [if_pos htransport]
      have hleads := leads_transport binding.controlRx types hrequest htransport
      revert hleads
      cases binding.controlRx with
      | true => exact fun hleads => .inl ⟨rfl, _, _, h.effect_upcall _, hleads⟩
      | false => exact fun hleads => .inr ⟨rfl, hleads⟩
    · rw [if_neg htransport]
      cases howner : msg.tagOwner with
      | false =>
          have hleads := leads_response binding.controlRx types hrequest htransport howner
          rw [howner] at hleads
          exact .inr ⟨rfl, hleads⟩
      | true =>
          obtain ⟨hhandled, replies, heffect, hreplies⟩ := h.controlHandler htag hrequest howner
          rw [howner] at hhandled heffect
          exact .inl ⟨hhandled, [], replies, heffect,
            leads_request binding.controlRx hrequest htransport howner hreplies⟩
  · rw [if_neg hrequest]
    exact .inr ⟨rfl, leads_other binding.controlRx types hrequest⟩

theorem mctpDeallocTag_kept (w : Mctp δ) (i : Fin 2) (localEid remote tag : UInt8) :
    (mctpDeallocTag w i localEid remote tag).nMsgAlloc = w.nMsgAlloc ∧
      (mctpDeallocTag w i localEid remote tag).hist.upcalls = w.hist.upcalls ∧
      (mctpDeallocTag w i localEid remote tag).messageRx = w.messageRx := by
  unfold mctpDeallocTag
  dsimp only
  split
  · exact ⟨rfl, History.upcalls_deref _ _, rfl⟩
  · split
    · exact ⟨rfl, History.upcalls_deref _ _, rfl⟩
    · exact ⟨rfl, History.upcalls_deref _ _, rfl⟩

/-- **A message leads to one thing.** -/
theorem CanAnswer.mctpRx (h : CanAnswer env b binding types w)
    (hendpoint : w.routePolicy = .endpoint) (hrx : w.messageRx = true)
    (hlocal : mctpRxDestIsLocal (w.busses 0) msg.dest = true)
    (htag : msg.tag &&& mctpHdrTagMask = msg.tag) :
    ∃ calls replies, Effect binding w (mctpRx env w 0 msg) calls replies ∧
      Leads binding.controlRx types msg calls replies := by
  have hhanded := h.quiet (quiet_handUp env w msg) rfl
  -- the entry of a tag that the message frees is not looked at again
  obtain ⟨w₁, hw₁⟩ : ∃ w₁, w₁
    = if !msg.tagOwner then mctpDeallocTag (w.handUp msg) 0 msg.dest msg.src msg.tag
      else w.handUp msg := ⟨_, rfl⟩
  have hquiet : Quiet env w w₁ ∧ w₁.nMsgAlloc = w.nMsgAlloc ∧ w₁.hist.upcalls = w.hist.upcalls ∧
      w₁.messageRx = w.messageRx := by
    rw [hw₁]
    split
    · obtain ⟨hn, hupcalls, hmessageRx⟩ := mctpDeallocTag_kept (w.handUp msg) 0
        msg.dest msg.src msg.tag
      exact ⟨(quiet_handUp env w msg).trans (mctpDeallocTag_passive env _ _ _ _ _).toQuiet, hn,
        hupcalls, hmessageRx⟩
    · exact ⟨quiet_handUp env w msg, rfl, rfl, rfl⟩
  obtain ⟨hquiet, hn, hupcalls, hmessageRx⟩ := hquiet
  have h₁ := h.quiet hquiet hn
  have hback : ∀ {w' calls replies}, Effect binding w₁ w' calls replies →
      Effect binding w w' calls replies := by
    intro w' calls replies heffect
    refine ⟨?_, ?_, ?_, heffect.idle, ?_⟩
    · rw [heffect.upcalls, hupcalls]
    · rw [heffect.accepted, hquiet.sent.busLog]
    · rw [heffect.sent, hquiet.sent.busLog, hquiet.sent.busses]
    · rw [heffect.other, hquiet.sent.busLog]
  have heq : LibMctp.mctpRx env w 0 msg = mctpRxEndpoint env (w.handUp msg) 0 msg := by
    unfold LibMctp.mctpRx
    dsimp only
    rw [show (w.handUp msg).routePolicy = .endpoint from hendpoint]
    exact if_pos hlocal
  rw [heq]
  unfold mctpRxEndpoint
  dsimp only
  rw [← hw₁]
  rcases h₁.rxControl htag with ⟨hhandled, calls, replies, heffect, hleads⟩ | ⟨hleft, hleads⟩
  · refine ⟨calls, replies, ?_, hleads⟩
    revert hhandled heffect
    cases mctpRxControl env w₁ 0 msg with | mk w₂ handled =>
    rintro rfl heffect
    exact hback heffect
  · refine ⟨_, _, ?_, hleads⟩
    rw [hleft]
    dsimp only
    rw [if_pos (hmessageRx.trans hrx)]
    exact hback (h₁.effect_upcall _)

end Request

/-- **A message leads to exactly one thing** at an endpoint in any state in which it can answer: one
call of a handler, or one answer, or nothing for a datagram. -/
theorem endpointRun_rx_leads (env : Env δ) (bindings : Nat → MctpBinding) (now : Nat) (dev : δ)
    (b : Nat) (eid : UInt8) (ops : List EndpointOp) (msg : Message) {w : Mctp δ}
    (hw : endpointRun env bindings now dev b eid ops = w)
    (hreg : Registers env bindings now dev b eid) (hrx : w.messageRx = true)
    (henabled : (w.busses 0).state = .txEnabled) (hidle : (w.busses 0).txMsg = none)
    (halloc : ∀ n, w.nMsgAlloc ≤ n → env.msgAlloc n = true)
    (haccepts : ∀ pkt, (env.tx b w.dev pkt).2.rc = 0)
    (hlocal : mctpRxDestIsLocal (w.busses 0) msg.dest = true)
    (htag : msg.tag &&& mctpHdrTagMask = msg.tag) :
    ∃ calls replies, Effect (bindings b) w (mctpRx env w 0 msg) calls replies ∧
      Leads (bindings b).controlRx (ops.foldl EndpointOp.types [mctpCtrlHdrMsgType])
        msg calls replies := by
  have hinv := hreg.endpointInv ops
  rw [hw] at hinv
  have hready : CanAnswer env b { bindings b with bus := some 0, mctp := some () }
      (ops.foldl EndpointOp.types [mctpCtrlHdrMsgType]) w :=
    { linked := hinv.linked
      mtu := hinv.mtu (by rw [henabled]; decide)
      seq := hinv.sane.seq
      enabled := henabled
      idle := hidle
      alloc := halloc
      accepts := haccepts
      lists := hinv.lists }
  obtain ⟨calls, replies, heffect, hleads⟩ := hready.mctpRx hinv.endpoint hrx hlocal htag
  exact ⟨calls, replies,
    ⟨heffect.upcalls, heffect.accepted, heffect.sent, heffect.idle, heffect.other⟩, hleads⟩

/-- An endpoint that lists two message types, once it can answer. -/
def openOps : List EndpointOp := [.setRxAll, .setTxEnabled true, .addType 0x7e]

/-- A request for the message types. -/
def typesRequest : Message := ⟨9, 8, true, 3, [0, 0x81, 0x05]⟩

theorem endpointRun_rx_leads_types :
    IsCtrlRequest typesRequest.bytes ∧ ¬ IsTransport typesRequest.bytes ∧
      ¬ IsDatagram typesRequest.bytes ∧
      ∃ calls replies, Effect smallBinding
        (endpointRun plainEnv (fun _ => smallBinding) 0 () 0 8 openOps)
          (mctpRx plainEnv (endpointRun plainEnv (fun _ => smallBinding) 0 () 0 8 openOps) 0
            typesRequest) calls replies ∧
        Leads false [0, 0x7e] typesRequest calls replies :=
  ⟨by decide, by decide, by decide,
    endpointRun_rx_leads plainEnv (fun _ => smallBinding) 0 () 0 8 openOps typesRequest rfl
    ⟨fun _ => rfl, by decide⟩
      (by decide) (by decide) (by decide) (fun _ _ => rfl) (fun _ => rfl) (by decide) (by decide)⟩

end LibMctp
