import LibMctp.Proof.Receive.Dispatch
import LibMctp.Proof.Receive.SetEid
import LibMctp.Proof.Receive.Silent

/-!
# The control server

An endpoint is a small server. All that the messages handed up to it change is its endpoint id, and
each of them goes to a handler or is answered: what it does is a fold of one step of the server over
these messages, whatever packets they came in.
-/

namespace LibMctp

open Fragment

variable {δ : Type}

/-! ### The server -/

/-- What a control request asks for, or the completion code it is refused with. -/
inductive CtrlCommand where
  | setEndpointId (eid : UInt8)
  | getEndpointId
  | getVersionSupport
  | getMessageTypeSupport
  | refused (cc : UInt8)
  deriving DecidableEq, Repr

/-- The command, for data of the right length. -/
def CtrlCommand.ofLength (command : CtrlCommand) (length : Nat) (data : List UInt8) : CtrlCommand :=
  if data.length = length then command else .refused mctpCtrlCcErrorInvalidLength

/-- What the data of a control request asks for. -/
def ctrlCommand (data : List UInt8) : CtrlCommand :=
  if data.getD 2 0 = mctpCtrlCmdSetEndpointId then
    CtrlCommand.ofLength
      (if AcceptedEid data then .setEndpointId (data.getD 4 0)
        else .refused mctpCtrlCcErrorInvalidData) 5 data
  else if data.getD 2 0 = mctpCtrlCmdGetEndpointId then CtrlCommand.ofLength .getEndpointId 3 data
  else if data.getD 2 0 = mctpCtrlCmdGetVersionSupport then
    CtrlCommand.ofLength
      (if data.getD 3 0 = 0x00 ∨ data.getD 3 0 = 0xff then .getVersionSupport
        else .refused mctpCtrlVersionsNotSupported) 4 data
  else if data.getD 2 0 = mctpCtrlCmdGetMessageTypeSupport then
    CtrlCommand.ofLength .getMessageTypeSupport 3 data
  else .refused mctpCtrlCcErrorUnsupportedCmd

/-- The endpoint id after a command. -/
def CtrlCommand.eid (eid : UInt8) : CtrlCommand → UInt8
  | .setEndpointId eid' => eid'
  | _ => eid

/-- The answer of an endpoint with this id and these message types, from the completion code on. -/
def CtrlCommand.answer (types : List UInt8) (eid : UInt8) : CtrlCommand → List UInt8
  | .setEndpointId eid' => [mctpCtrlCcSuccess, mctpCtrlSetEidStatusAccepted, eid', 0]
  | .getEndpointId =>
      [mctpCtrlCcSuccess, eid, mctpCtrlEndpointTypeSimple ||| mctpCtrlEndpointIdTypeStatic, 0x00]
  | .getVersionSupport => mctpCtrlCcSuccess :: mctpProtocolCount :: mctpProtocolVersions
  | .getMessageTypeSupport => mctpCtrlCcSuccess :: UInt8.ofNat types.length :: types
  | .refused cc => [cc]

/-- The endpoint id, the calls of handlers and the answers sent. -/
structure Server where
  eid : UInt8
  calls : List Upcall := []
  replies : List Message := []

/-- The handlers an endpoint has, and the message types it lists. -/
structure ServerConfig where
  controlRx : Bool
  messageRx : Bool
  types : List UInt8

def Server.call (s : Server) (call : Upcall) : Server := { s with calls := s.calls ++ [call] }

/-- The message goes to `message_rx`, where there is one. -/
def Server.notify (cfg : ServerConfig) (s : Server) (msg : Message) : Server :=
  if cfg.messageRx then s.call (.messageRx msg.src msg.tagOwner msg.tag msg.bytes) else s

/-- The request is carried out and answered. -/
def Server.answer (cfg : ServerConfig) (s : Server) (msg : Message) : Server :=
  let command := ctrlCommand msg.bytes
  let eid := command.eid s.eid
  { s with
    eid := eid
    replies := s.replies ++
      [⟨eid, msg.src, false, msg.tag, fillResp msg.bytes ++ command.answer cfg.types s.eid⟩] }

/-- One message handed up. -/
def Server.serve (cfg : ServerConfig) (s : Server) (msg : Message) : Server :=
  if IsCtrlRequest msg.bytes then
    if IsTransport msg.bytes then
      if cfg.controlRx then
        s.call (.controlRx msg.src (msg.tag != 0) msg.tagOwner.toUInt8 msg.bytes)
      else s.notify cfg msg
    else if msg.tagOwner = false then s.notify cfg msg
    else if IsDatagram msg.bytes then s
    else s.answer cfg msg
  else s.notify cfg msg

/-! ### The command of a request -/

section Command

variable {env : Env δ} {w : Mctp δ} {b : Nat} {binding : MctpBinding} {types data : List UInt8}

theorem withEid_self (w : Mctp δ) : w.withEid (w.busses 0).eid = w := by
  unfold Mctp.withEid Mctp.setBus
  rw [show { w.busses 0 with eid := (w.busses 0).eid } = w.busses 0 from rfl,
    Function.update_eq_self]

/-- How a command ends: an error, or an answer. -/
def commandResult (env : Env δ) (w : Mctp δ) (types : List UInt8) (srcEid msgTag : UInt8)
    (data : List UInt8) :
    CtrlCommand → Mctp δ × UInt8
  | .refused cc => (w, cc)
  | command => sendResp env (w.withEid (command.eid (w.busses 0).eid)) (some ()) srcEid msgTag
      (fillResp data ++ command.answer types (w.busses 0).eid)

/-- A length that is not the command's. -/
theorem commandResult_ofLength (srcEid msgTag : UInt8) (command : CtrlCommand) {length : Nat} :
    commandResult env w types srcEid msgTag data (command.ofLength length data)
      = if data.length = length then commandResult env w types srcEid msgTag data command else (w,
        mctpCtrlCcErrorInvalidLength) := by
  unfold CtrlCommand.ofLength
  split
  · rfl
  · rfl

/-- A command that leaves the id alone is answered. -/
theorem commandResult_self (hlinked : Linked w b binding) (srcEid msgTag : UInt8)
    {command : CtrlCommand} (heid : command.eid (w.busses 0).eid = (w.busses 0).eid)
    (hanswers : ∀ cc, command ≠ .refused cc) :
    commandResult env w types srcEid msgTag data command
      = sendResp env w (w.busses 0).mctp srcEid msgTag (fillResp data ++
        command.answer types (w.busses 0).eid) := by
  have hcases : commandResult env w types srcEid msgTag data command
      = sendResp env (w.withEid (command.eid (w.busses 0).eid)) (some ()) srcEid msgTag
          (fillResp data ++ command.answer types (w.busses 0).eid) := by
    cases command with
    | refused cc => exact absurd rfl (hanswers cc)
    | _ => rfl
  rw [hcases, heid, withEid_self, hlinked.mctp]

theorem mctpCtrlSetEndpointId_eq (hlinked : Linked w b binding) (srcEid msgTag : UInt8) :
    mctpCtrlSetEndpointId env w 0 srcEid msgTag data
      = commandResult env w types srcEid msgTag data (CtrlCommand.ofLength
          (if AcceptedEid data then .setEndpointId (data.getD 4 0)
            else .refused mctpCtrlCcErrorInvalidData) 5 data) := by
  have hmctp : ((w.withEid (data.getD 4 0)).busses 0).mctp = some () := (hlinked.withEid env _).mctp
  rw [commandResult_ofLength]
  unfold mctpCtrlSetEndpointId
  by_cases hlength : data.length = 5
  · rw [if_neg (not_not.mpr hlength), if_pos hlength]
    by_cases haccepted : AcceptedEid data
    · rw [if_pos haccepted]
      obtain ⟨-, hop, hvalid⟩ := haccepted
      dsimp only
      rw [if_neg (not_not.mpr hop), mctpBusSetEid, if_neg hvalid, hlinked.bus,
        Option.getD_some, hlinked.back_eq]
      dsimp only
      rw [if_neg (by decide)]
      exact congrArg (fun mctp => sendResp env _ mctp srcEid msgTag _) hmctp
    · rw [if_neg haccepted]
      dsimp only
      split
      · rfl
      · rename_i hop
        have hrefused : data.getD 4 0 < 8 ∨ data.getD 4 0 = 0xff := by
          by_contra hvalid
          exact haccepted ⟨hlength, not_not.mp hop, hvalid⟩
        rw [mctpBusSetEid, if_pos hrefused]
        rfl
  · rw [if_pos hlength, if_neg hlength]

/-- **The command is the one that is carried out.** -/
theorem ctrlDispatch_eq (hlinked : Linked w b binding) (hlists : w.control.Lists types)
    (srcEid msgTag : UInt8) :
    ctrlDispatch env w 0 srcEid msgTag data
      = commandResult env w types srcEid msgTag data (ctrlCommand data) := by
  have hread : readBytes w.control.msgTypes 0 w.control.numMsgTypes = types := by
    have hroom := hlists.room
    have hnum := hlists.num
    have hle := hlists.le
    rw [readBytes_of_le (by omega), List.drop_zero]
    exact hlists.eq
  unfold ctrlDispatch ctrlCommand
  dsimp only [ctrlMsgHdr]
  split
  · exact mctpCtrlSetEndpointId_eq hlinked srcEid msgTag
  · split
    · rw [commandResult_ofLength, mctpCtrlGetEndpointId, ite_not,
        commandResult_self hlinked srcEid msgTag rfl (by simp)]
      rfl
    · split
      · rw [commandResult_ofLength, mctpCtrlGetVersion, ite_not, ite_not]
        split
        · split
          · rw [commandResult_self hlinked srcEid msgTag rfl (by simp), List.append_assoc]
            rfl
          · rfl
        · rfl
      · split
        · rw [commandResult_ofLength, mctpCtrlGetTypes, ite_not,
            commandResult_self hlinked srcEid msgTag rfl (by simp), hread,
            hlists.num, List.append_assoc]
          rfl
        · rfl

theorem CtrlCommand.refused_ne_zero {cc : UInt8} (h : ctrlCommand data = .refused cc) : cc ≠ 0 := by
  unfold ctrlCommand CtrlCommand.ofLength at h
  split_ifs at h <;> cases h <;> decide

/-- A request is carried out and answered, also where it is refused. -/
theorem mctpControlHandler_eq (hlinked : Linked w b binding) (hlists : w.control.Lists types)
    (halloc : env.msgAlloc w.nMsgAlloc = true) (srcEid msgTag : UInt8)
    (hrequest : IsCtrlRequest data) (hdgram : ¬ IsDatagram data) :
    mctpControlHandler env w 0 srcEid true msgTag data
      = ((sendResp env (w.withEid ((ctrlCommand data).eid (w.busses 0).eid)) (some ()) srcEid msgTag
          (fillResp data ++ (ctrlCommand data).answer types (w.busses 0).eid)).1, true) := by
  have hlength : 3 ≤ data.length := hrequest.1
  unfold mctpControlHandler
  dsimp only
  rw [Bool.not_true, if_neg (by decide), if_neg (by omega), if_neg (not_not.mpr hrequest.2.1),
    if_neg (not_lt.mpr hrequest.1),
    if_neg (mt (isDatagram_iff hrequest).mp hdgram), ctrlDispatch_eq hlinked hlists]
  have hanswered : ∀ eid resp, (sendResp env (w.withEid eid) (some ()) srcEid msgTag resp).2 = 0 :=
    fun eid resp => sendResp_success (w := w.withEid eid) (some ()) srcEid msgTag resp halloc
  cases hcommand : ctrlCommand data with
  | refused cc =>
      refine (if_pos (CtrlCommand.refused_ne_zero hcommand)).trans ?_
      rw [show CtrlCommand.eid (w.busses 0).eid (.refused cc) = (w.busses 0).eid from rfl,
        withEid_self, ← hlinked.mctp]
      rfl
  | _ => exact if_neg (not_not.mpr (hanswered _ _))

theorem mctpControlHandler_datagram (env : Env δ) (w : Mctp δ) (i : Fin 2) (srcEid msgTag : UInt8)
    (hrequest : IsCtrlRequest data) (hdgram : IsDatagram data) :
    mctpControlHandler env w i srcEid true msgTag data = (w, true) := by
  have hlength : 3 ≤ data.length := hrequest.1
  unfold mctpControlHandler
  dsimp only
  rw [Bool.not_true, if_neg (by decide), if_neg (by omega), if_neg (not_not.mpr hrequest.2.1),
    if_neg (not_lt.mpr hrequest.1), if_pos ((isDatagram_iff hrequest).mpr hdgram)]

end Command

/-! ### The endpoint is the server -/

/-- An endpoint on an idle and enabled bus. -/
structure ControlServer (b : Nat) (binding : MctpBinding) (cfg : ServerConfig) (w : Mctp δ) :
    Prop where
  linked : Linked w b binding
  endpoint : w.routePolicy = .endpoint
  lists : w.control.Lists cfg.types
  messageRx : w.messageRx = cfg.messageRx
  controlRx : binding.controlRx = cfg.controlRx
  enabled : (w.busses 0).state = .txEnabled
  idle : (w.busses 0).txMsg = none
  seq : (w.busses 0).txSeq.toNat < 4

/-- Since `w₀`, the endpoint did what brought the server to `s`. -/
structure Serving (b : Nat) (binding : MctpBinding) (cfg : ServerConfig) (w₀ w : Mctp δ)
    (s : Server) : Prop
    extends ControlServer b binding cfg w where
  eid : (w.busses 0).eid = s.eid
  upcalls : w.hist.upcalls = w₀.hist.upcalls ++ s.calls
  accepted : (w.busLog 0).accepted = (w₀.busLog 0).accepted ++ s.replies
  sent : (w.busLog 0).sentPkts = (w₀.busLog 0).sentPkts ++ msgPackets binding (w₀.busses
    0).txSeq.toNat s.replies
  number : (w.busses 0).txSeq.toNat
    = ((w₀.busses 0).txSeq.toNat + (msgPackets binding (w₀.busses 0).txSeq.toNat
      s.replies).length) % 4
  other : w.busLog 1 = w₀.busLog 1

section Serving

variable {env : Env δ} {b : Nat} {binding : MctpBinding} {cfg : ServerConfig} {w₀ w w' : Mctp δ}
  {s : Server}

theorem ControlServer.serving (h : ControlServer b binding cfg w) :
    Serving b binding cfg w w ⟨(w.busses 0).eid, [], []⟩ where
  toControlServer := h
  eid := rfl
  upcalls := (List.append_nil _).symm
  accepted := (List.append_nil _).symm
  sent := (List.append_nil _).symm
  number := (Nat.mod_eq_of_lt h.seq).symm
  other := rfl

theorem Serving.quiet (h : Serving b binding cfg w₀ w s) (hquiet : Quiet env w w')
    (hupcalls : w'.hist.upcalls = w.hist.upcalls) :
    Serving b binding cfg w₀ w' s where
  linked := h.linked.of_sameSetup hquiet.setup
  endpoint := hquiet.setup.routePolicy.trans h.endpoint
  lists := by
    rw [hquiet.setup.control]
    exact h.lists
  messageRx := hquiet.setup.messageRx.trans h.messageRx
  controlRx := h.controlRx
  enabled := by
    rw [hquiet.sent.busses]
    exact h.enabled
  idle := by
    rw [hquiet.sent.busses]
    exact h.idle
  seq := by
    rw [hquiet.sent.busses]
    exact h.seq
  eid := by
    rw [hquiet.sent.busses]
    exact h.eid
  upcalls := hupcalls.trans h.upcalls
  accepted := by
    rw [hquiet.sent.busLog]
    exact h.accepted
  sent := by
    rw [hquiet.sent.busLog]
    exact h.sent
  number := by
    rw [hquiet.sent.busses]
    exact h.number
  other := by
    rw [hquiet.sent.busLog]
    exact h.other

theorem Serving.upcall (h : Serving b binding cfg w₀ w s) (call : Upcall) :
    Serving b binding cfg w₀ (w.upcall call) (s.call call) where
  linked := ⟨h.linked.nBusses, h.linked.bus, h.linked.mctp, h.linked.eq,
    h.linked.back, h.linked.owner⟩
  endpoint := h.endpoint
  lists := h.lists
  messageRx := h.messageRx
  controlRx := h.controlRx
  enabled := h.enabled
  idle := h.idle
  seq := h.seq
  eid := h.eid
  upcalls := by
    rw [Server.call, ← List.append_assoc, ← h.upcalls]
    rfl
  accepted := h.accepted
  sent := h.sent
  number := h.number
  other := h.other

theorem Serving.withEid (env : Env δ) (h : Serving b binding cfg w₀ w s) (eid : UInt8) :
    Serving b binding cfg w₀ (w.withEid eid) { s with eid := eid } where
  linked := h.linked.withEid env eid
  endpoint := h.endpoint
  lists := h.lists
  messageRx := h.messageRx
  controlRx := h.controlRx
  enabled := by simpa [Mctp.withEid, Mctp.setBus] using h.enabled
  idle := by simpa [Mctp.withEid, Mctp.setBus] using h.idle
  seq := by simpa [Mctp.withEid, Mctp.setBus] using h.seq
  eid := withEid_eid w eid
  upcalls := h.upcalls
  accepted := h.accepted
  sent := h.sent
  number := by simpa [Mctp.withEid, Mctp.setBus] using h.number
  other := h.other

/-- The packets of a message that was taken whole. -/
theorem SentWhole.sentPkts {n : Nat} {msg : Message} {i : Fin 2}
    (h : SentWhole binding n msg i w w') :
    (w'.busLog i).sentPkts = (w.busLog i).sentPkts ++ (cut 4 binding.chunk true n
      msg.bytes).map (fragPkt binding msg.label) := by
  unfold BusLog.sentPkts
  rw [h.txed, List.filter_append, List.map_append]
  congr 1
  rw [List.filter_eq_self.mpr (by simp), List.map_map]
  rfl

variable (hmtu : mctpPacketSize mctpBtu ≤ binding.pktSize) (halloc : ∀ n, env.msgAlloc n = true)
  (htx : ∀ d pkt, (env.tx b d pkt).2 = ⟨0, false⟩)

include hmtu halloc htx

/-- An answer leaves the endpoint whole. -/
theorem Serving.sendResp (h : Serving b binding cfg w₀ w s) (dest : UInt8) {tag : UInt8}
    (resp : List UInt8) (htag : tag &&& mctpHdrTagMask = tag) :
    Serving b binding cfg w₀ (sendResp env w (some ()) dest tag resp).1
      { s with replies := s.replies ++ [⟨s.eid, dest, false, tag, resp⟩] } := by
  have honly := sendResp_txOnly env w (some ()) dest tag resp
  have hpassive := mctpMsgAlloc_passive env w resp.length (some ())
  have hupcalls := (mctpMsgAlloc_txOnly env w resp.length (some ())).upcalls
  obtain ⟨w₁, buf, hbuf⟩ := mctpMsgAlloc_some env w resp.length (some ()) (halloc _)
  rw [hbuf] at hpassive hupcalls
  have h₁ := h.quiet hpassive.toQuiet hupcalls
  unfold LibMctp.sendResp mctpMessageTxAlloced at honly ⊢
  rw [hbuf] at honly ⊢
  dsimp only at honly ⊢
  rw [if_neg (not_not.mpr htag), h₁.linked.findBusForEid] at honly ⊢
  dsimp only at honly ⊢
  obtain ⟨w', hcall, htaken⟩ := mctpMessageTxOnBus_taken env (w := w₁) (i := 0)
    ⟨(w₁.busses 0).eid, dest, false, tag, resp⟩
    (rfl : ({ buf with bytes := resp } : MsgBuf).bytes = resp)
    (by rw [h₁.enabled]; decide) htag
    (by
      unfold mctpPacketSize mctpHdrSize mctpBtu at hmtu
      rw [h₁.linked.busBinding, mctpBodySize_eq binding (by unfold mctpHdrSize; omega)]
      unfold mctpBtu MctpBinding.chunk mctpHdrSize
      omega) h₁.idle
  rw [hcall] at honly ⊢
  have hwhole := htaken.sentWhole h₁.linked.bus h₁.linked.eq htx (chunk_pos hmtu)
    h₁.enabled h₁.number
  have haccepted := htaken.accepted
  rw [h₁.eid] at haccepted hwhole
  have hpackets := msgPackets_concat binding (w₀.busses 0).txSeq.toNat s.replies
    ⟨s.eid, dest, false, tag, resp⟩
  refine ⟨⟨h.linked.of_sameSetup honly.toSameSetup, honly.routePolicy.trans h.endpoint, ?_,
    honly.messageRx.trans h.messageRx,
    h.controlRx, hwhole.enabled, hwhole.idle, ?_⟩, ?_, ?_, ?_, ?_, ?_, ?_⟩
  · dsimp only
    rw [honly.control]
    exact h.lists
  · dsimp only
    rw [hwhole.seq]
    exact Nat.mod_lt _ (by decide)
  · exact (honly.eid 0).trans h.eid
  · exact honly.upcalls.trans h.upcalls
  · dsimp only
    rw [haccepted, h₁.accepted, List.append_assoc]
  · dsimp only
    rw [hwhole.sentPkts, h₁.sent, hpackets, List.append_assoc]
  · dsimp only
    rw [hwhole.seq, hpackets, List.length_append, List.length_map, Nat.add_assoc]
  · exact (hwhole.others 1 (by decide)).2.trans h₁.other

omit hmtu halloc htx in
theorem Serving.notify (h : Serving b binding cfg w₀ w s) (msg : Message) :
    Serving b binding cfg w₀
      (if w.messageRx then w.upcall (.messageRx msg.src msg.tagOwner msg.tag msg.bytes) else w)
      (s.notify cfg msg) := by
  unfold Server.notify
  rw [h.messageRx]
  split
  · exact h.upcall _
  · exact h

/-- The control part of `mctp_rx`, with what is left to `message_rx`. -/
theorem Serving.rxControl (h : Serving b binding cfg w₀ w s) {msg : Message}
    (htag : msg.tag &&& mctpHdrTagMask = msg.tag) :
    (mctpRxControl env w 0 msg).2 = true ∧
      Serving b binding cfg w₀ (mctpRxControl env w 0 msg).1 (s.serve cfg msg) ∨
      mctpRxControl env w 0 msg = (w, false) ∧ s.serve cfg msg = s.notify cfg msg := by
  rw [mctpRxControl_eq, Server.serve, h.linked.busBinding, h.controlRx]
  by_cases hrequest : IsCtrlRequest msg.bytes
  · rw [if_pos hrequest, if_pos hrequest]
    by_cases htransport : IsTransport msg.bytes
    · rw [if_pos htransport, if_pos htransport]
      split
      · exact .inl ⟨rfl, h.upcall _⟩
      · exact .inr ⟨rfl, rfl⟩
    · rw [if_neg htransport, if_neg htransport]
      cases howner : msg.tagOwner with
      | false =>
          rw [if_pos rfl]
          exact .inr ⟨rfl, rfl⟩
      | true =>
          rw [if_neg (by decide)]
          refine .inl ?_
          by_cases hdgram : IsDatagram msg.bytes
          · rw [if_pos hdgram, mctpControlHandler_datagram env w 0 msg.src msg.tag hrequest hdgram]
            exact ⟨rfl, h⟩
          · rw [if_neg hdgram,
              mctpControlHandler_eq h.linked h.lists (halloc _) msg.src msg.tag
              hrequest hdgram, h.eid]
            exact ⟨rfl, (h.withEid env _).sendResp hmtu halloc htx msg.src _ htag⟩
  · rw [if_neg hrequest, if_neg hrequest]
    exact .inr ⟨rfl, rfl⟩

/-- **One message.** -/
theorem Serving.mctpRx (h : Serving b binding cfg w₀ w s) {msg : Message}
    (htag : msg.tag &&& mctpHdrTagMask = msg.tag)
    (hlocal : mctpRxDestIsLocal (w.busses 0) msg.dest = true) :
    Serving b binding cfg w₀ (mctpRx env w 0 msg) (s.serve cfg msg) := by
  have hhanded := h.quiet (quiet_handUp env w msg) rfl
  have hfreed : Serving b binding cfg w₀
      (if !msg.tagOwner then mctpDeallocTag (w.handUp msg) 0 msg.dest msg.src msg.tag
        else w.handUp msg) s := by
    split
    · exact hhanded.quiet (mctpDeallocTag_passive env _ _ _ _ _).toQuiet
        (mctpDeallocTag_kept _ _ _ _ _).2.1
    · exact hhanded
  unfold LibMctp.mctpRx
  dsimp only
  rw [hhanded.endpoint]
  dsimp only
  rw [if_pos (show mctpRxDestIsLocal ((w.handUp msg).busses 0) msg.dest = true from hlocal)]
  unfold mctpRxEndpoint
  dsimp only
  generalize (if !msg.tagOwner then mctpDeallocTag (w.handUp msg) 0 msg.dest msg.src msg.tag
    else w.handUp msg) = w₁ at hfreed ⊢
  rcases hfreed.rxControl hmtu halloc htx htag with ⟨hhandled, hserving⟩ | ⟨hleft, hserve⟩
  · revert hhandled hserving
    cases mctpRxControl env w₁ 0 msg with | mk w₂ handled =>
    rintro rfl hserving
    exact hserving
  · rw [hleft, hserve]
    exact hfreed.notify msg

/-- **One packet.** The server takes the message it completes, if it completes one. -/
theorem Serving.busRx (h : Serving b binding cfg w₀ w s) (pkt : MctpPktbuf) :
    ∃ msgs, (mctpBusRx env w b pkt).hist.handed = w.hist.handed ++ msgs ∧
      Serving b binding cfg w₀ (mctpBusRx env w b pkt) (msgs.foldl (Server.serve cfg) s) := by
  rcases mctpBusRx_delivers env w b pkt with hsilent | ⟨i, msg, hbus, hacc, hlabel, hdelivers⟩
  · refine ⟨[], ?_, h.quiet hsilent.toQuiet hsilent.upcalls⟩
    rw [hsilent.handed, List.append_nil]
  · have hi : i = 0 := Option.some.inj (hbus.symm.trans h.linked.back_eq)
    obtain ⟨hlocal, htag, -⟩ := Mctp.accepts_message hacc hbus h.endpoint hlabel
    refine ⟨[msg], hdelivers.handed, ?_⟩
    obtain ⟨w₁, hbefore, hafter⟩ := hdelivers
    rw [hi] at hlocal hafter
    rw [← hbefore.sent.busses] at hlocal
    have hserved := (h.quiet hbefore.toQuiet hbefore.upcalls).mctpRx hmtu halloc htx htag hlocal
    exact hserved.quiet hafter.toQuiet hafter.upcalls

theorem Serving.run (h : Serving b binding cfg w₀ w s) (pkts : List MctpPktbuf) :
    ∃ msgs, (rxRun env b w pkts).hist.handed = w.hist.handed ++ msgs ∧
      Serving b binding cfg w₀ (rxRun env b w pkts) (msgs.foldl (Server.serve cfg) s) := by
  induction pkts generalizing w s with
  | nil => exact ⟨[], (List.append_nil _).symm, h⟩
  | cons pkt pkts ih =>
      obtain ⟨msgs, hhanded, hserving⟩ := h.busRx hmtu halloc htx pkt
      obtain ⟨rest, hrest, hserved⟩ := ih hserving
      refine ⟨msgs ++ rest, ?_, ?_⟩
      · rw [← List.append_assoc, ← hhanded]
        exact hrest
      · rw [List.foldl_append]
        exact hserved

end Serving

/-- **An endpoint is the server.** Whatever packets it is given, all it changes, calls and sends is
what the server does with the messages handed up, one after the other. -/
theorem rxRun_serves (env : Env δ) {b : Nat} {binding : MctpBinding} {cfg : ServerConfig}
    {w : Mctp δ} (pkts : List MctpPktbuf) (hserver : ControlServer b binding cfg w)
    (hmtu : mctpPacketSize mctpBtu ≤ binding.pktSize) (halloc : ∀ n, env.msgAlloc n = true)
    (htx : ∀ d pkt, (env.tx b d pkt).2 = ⟨0, false⟩) :
    ∃ msgs, (rxRun env b w pkts).hist.handed = w.hist.handed ++ msgs ∧
      let s := msgs.foldl (Server.serve cfg) ⟨(w.busses 0).eid, [], []⟩
      ((rxRun env b w pkts).busses 0).eid = s.eid ∧
        (rxRun env b w pkts).hist.upcalls = w.hist.upcalls ++ s.calls ∧
        ((rxRun env b w pkts).busLog 0).accepted = (w.busLog 0).accepted ++ s.replies ∧
        ((rxRun env b w pkts).busLog 0).sentPkts
          = (w.busLog 0).sentPkts ++ msgPackets binding (w.busses 0).txSeq.toNat s.replies ∧
        ((rxRun env b w pkts).busses 0).txMsg = none ∧
        (rxRun env b w pkts).busLog 1 = w.busLog 1 := by
  obtain ⟨msgs, hhanded, hserving⟩ := hserver.serving.run hmtu halloc htx pkts
  exact ⟨msgs, hhanded, hserving.eid, hserving.upcalls, hserving.accepted, hserving.sent,
    hserving.idle, hserving.other⟩

/-- The types request of one packet, and a request to become EID 10, each to endpoint 8. -/
def controlPkts : List MctpPktbuf :=
  [fragPkt smallBinding ⟨9, 8, true, 3⟩ ⟨true, true, 0, [0, 0x81, 0x05]⟩,
    fragPkt smallBinding ⟨9, 8, true, 1⟩ ⟨true, true, 1, [0, 0x80, 0x01, 0x00, 10]⟩]

/-- The first is answered by EID 8, and the second by EID 10. -/
theorem rxRun_serves_ten :
    (rxRun plainEnv 0 (endpointRun plainEnv (fun _ => smallBinding) 0 () 0 8 openOps)
      controlPkts).hist.handed.length = 2 ∧
      ∃ msgs, (rxRun plainEnv 0 (endpointRun plainEnv (fun _ => smallBinding) 0 () 0 8 openOps)
        controlPkts).hist.handed
          = [] ++ msgs ∧
        let s := msgs.foldl (Server.serve ⟨false, true, [0, 0x7e]⟩) ⟨8, [], []⟩
        ((rxRun plainEnv 0 (endpointRun plainEnv (fun _ => smallBinding) 0 () 0 8 openOps)
          controlPkts).busses 0).eid = s.eid := by
  refine ⟨by decide, ?_⟩
  have hserver : ControlServer 0 { smallBinding with bus := some 0, mctp := some () }
    ⟨false, true, [0, 0x7e]⟩
      (endpointRun plainEnv (fun _ => smallBinding) 0 () 0 8 openOps) :=
    { linked := ⟨by decide, by decide, by decide, rfl, rfl, rfl⟩
      endpoint := by decide
      lists := ⟨by decide, by decide, by decide, by decide, by decide⟩
      messageRx := by decide
      controlRx := rfl
      enabled := by decide
      idle := by decide
      seq := by decide }
  obtain ⟨msgs, hhanded, heid, -⟩ := rxRun_serves plainEnv controlPkts hserver (by decide)
    (fun _ => rfl) (fun _ _ => rfl)
  exact ⟨msgs, hhanded, heid⟩

/-! ### The endpoint id, whatever fails -/

/-- The endpoint id after a message. -/
def Message.eidAfter (eid : UInt8) (msg : Message) : UInt8 :=
  if msg.SetsEid then msg.bytes.getD 4 0 else eid

section Eid

variable {env : Env δ} {b : Nat} {binding : MctpBinding} {w : Mctp δ} {msg : Message}

private theorem flags_rq :
    ∀ n : Fin 256, UInt8.ofNat n.val &&& (mctpCtrlHdrFlagRequest ||| mctpCtrlHdrFlagDgram)
      = mctpCtrlHdrFlagRequest →
    UInt8.ofNat n.val &&& mctpCtrlHdrFlagRequest ≠ 0 := by
  decide +kernel

/-- A request that sets the id is one that goes to the control handler. -/
theorem Message.SetsEid.request (h : msg.SetsEid) :
    IsCtrlRequest msg.bytes ∧ ¬ IsTransport msg.bytes := by
  obtain ⟨-, htype, hrequest, hcmd, haccepted⟩ := h
  have hflags := flags_rq ⟨(ctrlMsgHdr msg.bytes).rqDgramInst.toNat, UInt8.toNat_lt _⟩
  rw [UInt8.ofNat_toNat] at hflags
  refine ⟨⟨?_, htype, hflags hrequest⟩, ?_⟩
  · rw [haccepted.1]
    decide
  · rw [IsTransport, hcmd]
    decide

theorem mctpControlHandler_eid_set (env : Env δ) (hlinked : Linked w b binding) (h : msg.SetsEid) :
    ((mctpControlHandler env w 0 msg.src msg.tagOwner msg.tag msg.bytes).1.busses 0).eid
      = msg.bytes.getD 4 0 := by
  rw [mctpControlHandler_setsEid hlinked h]
  split
  · rw [(sendResp_txOnly env _ _ _ _ _).eid 0, withEid_eid]
  · rw [replyError, (sendResp_txOnly env _ _ _ _ _).eid 0]
    exact withEid_eid w _

/-- The id is set even where the answer is lost. -/
theorem mctpRx_eid_set (hlinked : Linked w b binding) (hendpoint : w.routePolicy = .endpoint)
    (hlocal : mctpRxDestIsLocal (w.busses 0) msg.dest = true) (h : msg.SetsEid) :
    ((mctpRx env w 0 msg).busses 0).eid = msg.bytes.getD 4 0 := by
  have hhanded : Linked (w.handUp msg) b binding :=
    hlinked.of_sameSetup (quiet_handUp env w msg).setup
  have heid := mctpControlHandler_eid_set env hhanded h
  have hcontrol : mctpRxControl env (w.handUp msg) 0 msg
      = mctpControlHandler env (w.handUp msg) 0 msg.src msg.tagOwner msg.tag msg.bytes := by
    rw [mctpRxControl_eq, if_pos h.request.1, if_neg h.request.2]
  have heq : mctpRx env w 0 msg = mctpRxEndpoint env (w.handUp msg) 0 msg := by
    unfold mctpRx
    dsimp only
    rw [show (w.handUp msg).routePolicy = .endpoint from hendpoint]
    exact if_pos hlocal
  rw [heq]
  unfold mctpRxEndpoint
  dsimp only
  rw [if_neg (by rw [h.1]; decide), hcontrol]
  revert heid
  cases mctpControlHandler env (w.handUp msg) 0 msg.src msg.tagOwner msg.tag
    msg.bytes with | mk w₁ handled =>
  intro heid
  cases handled with
  | true => exact heid
  | false =>
      dsimp only
      split
      · exact heid
      · exact heid

theorem mctpRx_eidAfter (hlinked : Linked w b binding) (hendpoint : w.routePolicy = .endpoint)
    (hlocal : mctpRxDestIsLocal (w.busses 0) msg.dest = true) :
    ((mctpRx env w 0 msg).busses 0).eid = msg.eidAfter (w.busses 0).eid := by
  unfold Message.eidAfter
  split
  · rename_i hset
    exact mctpRx_eid_set hlinked hendpoint hlocal hset
  · rename_i hset
    exact mctpRx_eid env w 0 hset 0

theorem mctpBusRx_eidAfter (env : Env δ) (hlinked : Linked w b binding)
    (hendpoint : w.routePolicy = .endpoint) (pkt : MctpPktbuf) :
    ∃ msgs, (mctpBusRx env w b pkt).hist.handed = w.hist.handed ++ msgs ∧
      ((mctpBusRx env w b pkt).busses 0).eid = msgs.foldl Message.eidAfter (w.busses 0).eid := by
  rcases mctpBusRx_delivers env w b pkt with hsilent | ⟨i, msg, hbus, hacc, hlabel, hdelivers⟩
  · refine ⟨[], ?_, ?_⟩
    · rw [hsilent.handed, List.append_nil]
    · rw [hsilent.sent.busses]
      rfl
  · have hi : i = 0 := Option.some.inj (hbus.symm.trans hlinked.back_eq)
    obtain ⟨hlocal, -⟩ := Mctp.accepts_message hacc hbus hendpoint hlabel
    refine ⟨[msg], hdelivers.handed, ?_⟩
    obtain ⟨w₁, hbefore, hafter⟩ := hdelivers
    rw [hi, ← hbefore.sent.busses] at hlocal
    rw [hi] at hafter
    rw [hafter.sent.busses,
      mctpRx_eidAfter (hlinked.of_sameSetup hbefore.setup)
      (hbefore.setup.routePolicy.trans hendpoint) hlocal, hbefore.sent.busses]
    rfl

end Eid

/-- **The endpoint id is what the last accepted request said.** Buffers may be missing, the bus may
be disabled and the binding may refuse every packet: the id is a function of the messages handed
up. -/
theorem rxRun_eidAfter (env : Env δ) {b : Nat} {binding : MctpBinding} {w : Mctp δ}
    (pkts : List MctpPktbuf) (hlinked : Linked w b binding)
    (hendpoint : w.routePolicy = .endpoint) :
    ∃ msgs, (rxRun env b w pkts).hist.handed = w.hist.handed ++ msgs ∧
      ((rxRun env b w pkts).busses 0).eid = msgs.foldl Message.eidAfter (w.busses 0).eid := by
  induction pkts generalizing w with
  | nil => exact ⟨[], (List.append_nil _).symm, rfl⟩
  | cons pkt pkts ih =>
      obtain ⟨msgs, hhanded, heid⟩ := mctpBusRx_eidAfter env hlinked hendpoint pkt
      have hsetup := mctpBusRx_sameSetup env w b pkt
      obtain ⟨rest, hrest, hlast⟩ :=
        ih (hlinked.of_sameSetup hsetup) (hsetup.routePolicy.trans hendpoint)
      refine ⟨msgs ++ rest, ?_, ?_⟩
      · rw [← List.append_assoc, ← hhanded]
        exact hrest
      · rw [List.foldl_append, ← heid]
        exact hlast

/-- The packet of that request. -/
def becomeTenPkt : MctpPktbuf :=
  fragPkt smallBinding becomeTen.label ⟨true, true, 0, becomeTen.bytes⟩

/-- The request is handed up and carried out, though the binding took no packet yet. -/
theorem rxRun_eidAfter_slow :
    (rxRun everyOther 0 slowEndpoint [becomeTenPkt]).hist.handed = [becomeTen] ∧
      ∃ msgs, (rxRun everyOther 0 slowEndpoint [becomeTenPkt]).hist.handed
        = slowEndpoint.hist.handed ++ msgs ∧
        ((rxRun everyOther 0 slowEndpoint [becomeTenPkt]).busses 0).eid
          = msgs.foldl Message.eidAfter (slowEndpoint.busses 0).eid :=
  ⟨by decide, rxRun_eidAfter everyOther [becomeTenPkt] slowEndpoint_linked (by decide)⟩

end LibMctp
