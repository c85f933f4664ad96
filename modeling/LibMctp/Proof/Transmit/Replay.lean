import LibMctp.Proof.Transmit.Queue

/-!
# The device and the log

A bus logs each packet that it gives to its binding, so the device is what these packets make of it,
one after the other.
-/

namespace LibMctp

variable {δ : Type}

/-- What the packets given to a binding make of its device. -/
def replayTx (env : Env δ) (b : Nat) (dev : δ) (txed : List (MctpPktbuf × TxResult)) : δ :=
  txed.foldl (fun dev p => (env.tx b dev p.1).1) dev

theorem replayTx_append (env : Env δ) (b : Nat) (dev : δ)
    (txed txed' : List (MctpPktbuf × TxResult)) :
    replayTx env b dev (txed ++ txed') = replayTx env b (replayTx env b dev txed) txed' :=
      List.foldl_append

/-- What was logged between the two states is what the device was given. -/
def Replays (env : Env δ) (b : Nat) (s s' : BusIo δ) : Prop :=
  ∃ new, s'.log.txed = s.log.txed ++ new ∧ s'.dev = replayTx env b s.dev new

section Bus

variable {env : Env δ} {b : Nat} {binding : MctpBinding} {capture : Bool} {s t u : BusIo δ}

theorem Replays.of_eq (hlog : t.log = s.log) (hdev : t.dev = s.dev) : Replays env b s t :=
  ⟨[], by rw [hlog, List.append_nil], hdev⟩

theorem Replays.trans (h : Replays env b s t) (h' : Replays env b t u) : Replays env b s u := by
  obtain ⟨new, hlog, hdev⟩ := h
  obtain ⟨new', hlog', hdev'⟩ := h'
  refine ⟨new ++ new', ?_, ?_⟩
  · rw [hlog', hlog, List.append_assoc]
  · rw [hdev', hdev, replayTx_append]

variable (env b binding capture)

theorem mctpPacketTx_replays (s : BusIo δ) (bus : MctpBus) (pkt : MctpPktbuf) :
    Replays env b s (mctpPacketTx env b binding capture { s with bus := bus } pkt).1 := by
  unfold mctpPacketTx
  split
  · exact .of_eq rfl rfl
  · exact ⟨[(pkt, (env.tx b s.dev pkt).2)], rfl, rfl⟩

theorem mctpTxComplete_replays (s : BusIo δ) : Replays env b s (mctpTxComplete binding s) := by
  unfold mctpTxComplete
  dsimp only
  split
  · exact .of_eq rfl rfl
  · split
    · exact .of_eq rfl rfl
    · exact .of_eq rfl rfl

theorem mctpSendTxQueueLoop_replays (rounds : Nat) (s : BusIo δ) :
    Replays env b s (mctpSendTxQueueLoop env b binding capture rounds s) := by
  induction rounds generalizing s with
  | zero =>
      unfold mctpSendTxQueueLoop
      split
      · exact .of_eq rfl rfl
      · exact .of_eq rfl rfl
  | succ rounds ih =>
      unfold mctpSendTxQueueLoop
      split
      · exact .of_eq rfl rfl
      · split
        · exact .of_eq rfl rfl
        · rename_i pkt bus _
          have htx := mctpPacketTx_replays env b binding capture s bus pkt
          dsimp only
          split
          · exact (htx.trans (mctpTxComplete_replays env b binding _)).trans (ih _)
          · split
            · exact htx
            · exact htx.trans (mctpTxComplete_replays env b binding _)

end Bus

/-- A message that was taken: the device was given what was logged for it. -/
theorem TxTaken.replayed {env : Env δ} {w w' : Mctp δ} {i : Fin 2} {msg : Message} {b : Nat}
    (h : TxTaken env w i msg w') (hbus : (w.busses i).binding = some b) :
    ∃ new, (w'.busLog i).txed = (w.busLog i).txed ++ new ∧ w'.dev = replayTx env b w.dev new := by
  obtain ⟨w₁, buf, hsent, -, -, rfl⟩ := h.sent
  generalize hw₂ : w₁.take i msg.src msg.dest msg.tagOwner msg.tag buf msg.bytes.length = w₂
  have hbinding : (w₂.busses i).binding = some b := by
    rw [← hw₂, Mctp.take_bus, hsent.busses]
    exact hbus
  obtain ⟨new, hlog, hdev⟩ := mctpSendTxQueueLoop_replays env b (w₂.busBinding i) w₂.capture
    ((w₂.busses i).txMsglen - (w₂.busses i).txMsgpos + 1) (w₂.busIo i)
  have hlog₂ : (w₂.busLog i).txed = (w.busLog i).txed := by
    rw [← hw₂, Mctp.take_log, hsent.busLog]
    rfl
  have hdev₂ : w₂.dev = w.dev := by
    rw [← hw₂]
    exact hsent.dev
  refine ⟨new, ?_, ?_⟩
  · rw [← hlog₂, mctpSendTxQueue, hbinding]
    exact (congrArg BusLog.txed (Function.update_self ..)).trans hlog
  · rw [← hdev₂, mctpSendTxQueue, hbinding]
    exact hdev

end LibMctp
