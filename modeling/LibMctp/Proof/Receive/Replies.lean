import LibMctp.Proof.Receive.Endpoint

/-!
# What receiving sends

The only thing an endpoint sends while it handles a packet is the answer to a control request it was
handed up, to the requester and under the tag of the request. An answer is short enough for one
packet.
-/

namespace LibMctp

variable {δ : Type}

variable {env : Env δ}

/-! ### Answers -/

/-- `J` holds of endpoints, and is kept by the steps that send nothing and by short answers to the
messages in `good`. -/
structure KeptByAnswers (env : Env δ) (J : Mctp δ → Prop) (good : Message → Prop) : Prop where
  quiet : ∀ {w w'}, J w → Quiet env w w' → J w'
  answer : ∀ {w msg} mctp resp, J w → good msg → resp.length ≤ mctpBtu →
    J (sendResp env w mctp msg.src msg.tag resp).1
  endpoint : ∀ {w}, J w → w.routePolicy = .endpoint
  types : ∀ {w}, J w → w.control.numMsgTypes ≤ mctpControlMaxTypes
  eid : ∀ {msg}, good msg → ¬ msg.SetsEid

section Answers

variable {J : Mctp δ → Prop} {good : Message → Prop} (hkept : KeptByAnswers env J good) {w : Mctp δ}
  {i : Fin 2} {msg : Message}

include hkept

theorem KeptByAnswers.ctrlDispatch (hw : J w) (hmsg : good msg)
    (hset : (ctrlMsgHdr msg.bytes).commandCode = mctpCtrlCmdSetEndpointId →
      ¬ AcceptedEid msg.bytes) :
    J (ctrlDispatch env w i msg.src msg.tag msg.bytes).1 := by
  unfold LibMctp.ctrlDispatch
  dsimp only
  split
  · rename_i hcmd
    rw [mctpCtrlSetEndpointId_refused env w i msg.src msg.tag (hset hcmd)]
    exact hw
  · split
    · unfold mctpCtrlGetEndpointId
      split
      · exact hw
      · exact hkept.answer _ _ hw hmsg (by decide : 7 ≤ 64)
    · split
      · unfold mctpCtrlGetVersion
        split
        · exact hw
        · split
          · exact hw
          · exact hkept.answer _ _ hw hmsg (by decide : 21 ≤ 64)
      · split
        · unfold mctpCtrlGetTypes
          split
          · exact hw
          · refine hkept.answer _ _ hw hmsg ?_
            have htypes := hkept.types hw
            rw [List.length_append, length_readBytes]
            unfold mctpControlMaxTypes at htypes
            unfold mctpBtu
            have hhead :
                (fillResp msg.bytes ++
                  [mctpCtrlCcSuccess, UInt8.ofNat w.control.numMsgTypes]).length = 5 := rfl
            omega
        · exact hw

theorem KeptByAnswers.mctpRxControl (hw : J w) (hmsg : good msg) :
    J (mctpRxControl env w i msg).1 := by
  unfold LibMctp.mctpRxControl
  split
  · unfold mctpCtrlHandleMsg
    split
    · split
      · exact hkept.quiet hw (passive_upcall env w _).toQuiet
      · exact hw
    · unfold mctpControlHandler replyError
      cases howner : msg.tagOwner with
      | false => exact hw
      | true =>
          dsimp only
          split_ifs with _ _ htype _ hrequest
          · exact hw
          · exact hw
          · exact hw
          · exact hw
          · exact hw
          all_goals
            have hdispatch : J (LibMctp.ctrlDispatch env w i msg.src msg.tag msg.bytes).1 :=
              hkept.ctrlDispatch hw hmsg fun hcmd haccepted =>
                hkept.eid hmsg ⟨howner, not_not.mp htype, not_not.mp hrequest, hcmd, haccepted⟩
          · exact hkept.answer _ _ hdispatch hmsg (by decide : 4 ≤ 64)
          · exact hdispatch
  · exact hw

/-- Handling a message. -/
theorem KeptByAnswers.mctpRx (hw : J w) (hmsg : good msg) : J (mctpRx env w i msg) := by
  have hhanded := hkept.quiet hw (quiet_handUp env w msg)
  unfold LibMctp.mctpRx
  dsimp only
  rw [hkept.endpoint hhanded]
  dsimp only
  split
  · unfold mctpRxEndpoint
    have hfreed : J (if !msg.tagOwner then mctpDeallocTag (w.handUp msg) i msg.dest msg.src msg.tag
        else w.handUp msg) := by
      split
      · exact hkept.quiet hhanded (mctpDeallocTag_passive env _ _ _ _ _).toQuiet
      · exact hhanded
    have hcontrol := hkept.mctpRxControl (i := i) hfreed hmsg
    dsimp only
    split <;> rename_i hcase <;> rw [hcase] at hcontrol
    · exact hcontrol
    · split
      · exact hkept.quiet hcontrol (passive_upcall env _ _).toQuiet
      · exact hcontrol
  · exact hhanded

/-- **What receiving keeps**: all that answers keep, if the message that the packet completes is in
`good`. -/
theorem KeptByAnswers.mctpBusRx {b : Nat} {pkt : MctpPktbuf} (hw : J w)
    (hgood : ∀ msg, (mctpBusRx env w b pkt).hist.handed = w.hist.handed ++ [msg] → good msg) :
    J (mctpBusRx env w b pkt) := by
  rcases mctpBusRx_outcome env w b pkt with hpass | ⟨i, msg, -, -, -, hup⟩
  · exact hkept.quiet hw hpass.toQuiet
  · have hmsg := hgood msg hup.handed
    obtain ⟨w₁, hbefore, hafter⟩ := hup.rx
    exact hkept.quiet (hkept.mctpRx (hkept.quiet hw hbefore.toQuiet) hmsg) hafter.toQuiet

end Answers

end LibMctp
