import LibMctp.Proof.Transmit.Calls

/-!
# Exactly once and in order

The packets a binding took so far, followed by what is left of the queued message, are the packets
of the messages accepted. A packet that the binding was too busy for is kept and comes again as it
was, so this holds through every run of sending and of disabling and enabling the bus.
-/

namespace LibMctp

open Fragment

variable {δ : Type}

/-- The packets for which `binding->tx` returned 0. -/
def BusLog.sentPkts (log : BusLog) : List MctpPktbuf :=
  (log.txed.filter fun p => p.2.rc = 0).map Prod.fst

theorem BusLog.sentPkts_push (log : BusLog) (pkt : MctpPktbuf) (r : TxResult) :
    BusLog.sentPkts { log with txed := log.txed ++ [(pkt, r)] }
      = if r.rc = 0 then log.sentPkts ++ [pkt] else log.sentPkts := by
  unfold BusLog.sentPkts
  rw [List.filter_append, List.map_append]
  by_cases hrc : r.rc = 0
  · simp [hrc]
  · simp [hrc]

/-- What was sent, and what is left of the queued message, are the packets of `msgs` numbered from
`start`. -/
structure QueueInv (binding : MctpBinding) (start : Nat) (msgs : List Message) (bus : MctpBus)
    (log : BusLog) : Prop where
  ok : bus.Ok
  seq : bus.txSeq.toNat = (start + log.sentPkts.length) % 4
  queue : log.sentPkts ++
    (bus.rest binding.chunk (start + log.sentPkts.length)).map (fragPkt binding bus.label)
    = msgPackets binding start msgs

section Invariant

variable {binding : MctpBinding} {start : Nat} {msgs : List Message} {bus : MctpBus} {log : BusLog}

theorem QueueInv.sent_prefix (h : QueueInv binding start msgs bus log) :
    log.sentPkts <+: msgPackets binding start msgs :=
  ⟨_, h.queue⟩

theorem QueueInv.idle (h : QueueInv binding start msgs bus log) (hidle : bus.txMsg = none) :
    log.sentPkts = msgPackets binding start msgs := by
  have hqueue := h.queue
  rw [MctpBus.rest, hidle] at hqueue
  simpa using hqueue

theorem QueueInv.init {bus : MctpBus} (hidle : bus.txMsg = none)
    (hseq : bus.txSeq.toNat = start % 4) :
    QueueInv binding start [] bus {} := by
  refine ⟨.of_none hidle, hseq, ?_⟩
  rw [MctpBus.rest, hidle]
  rfl

theorem QueueInv.setState (h : QueueInv binding start msgs bus log) (state : MctpBusState) :
    QueueInv binding start msgs { bus with state := state } log :=
  ⟨⟨h.ok.length, h.ok.pos, h.ok.tag⟩, h.seq, h.queue⟩

/-- An idle bus that takes a message has all of its packets to send. -/
theorem QueueInv.take (h : QueueInv binding start msgs bus log) (hidle : bus.txMsg = none)
    (msg : Message) {buf : MsgBuf} (hbuf : buf.bytes = msg.bytes) (htag : msg.tag.toNat < 8) :
    QueueInv binding start (msgs ++ [msg])
      (bus.take msg.src msg.dest msg.tagOwner msg.tag buf msg.bytes.length) (log.accept msg) := by
  have hsent : (log.accept msg).sentPkts = log.sentPkts := rfl
  refine ⟨⟨?_, fun _ _ => .inl rfl, fun _ _ => htag⟩, h.seq, ?_⟩
  · intro buf' hbuf'
    rw [← Option.some.inj hbuf', hbuf]
    rfl
  · rw [hsent, msgPackets_concat, ← h.idle hidle]
    have hrest : (bus.take msg.src msg.dest msg.tagOwner msg.tag buf msg.bytes.length).rest
      binding.chunk
        (start + log.sentPkts.length)
        = cut 4 binding.chunk true (start + log.sentPkts.length) msg.bytes := by
      rw [MctpBus.rest, ← hbuf]
      rfl
    rw [hrest]
    rfl

/-- **The loop keeps the invariant**: a busy binding leaves everything as it was, a packet taken
moves from what is left to what was sent. -/
theorem Sends.queueInv {env : Env δ} {b n : Nat} {s s' : BusIo δ} (h : Sends env b binding n s s')
    (htx : ∀ d pkt, (env.tx b d pkt).2.rc = 0 ∨ (env.tx b d pkt).2.rc = -ebusy)
    (hn : n = start + s.log.sentPkts.length) (hinv : QueueInv binding start msgs s.bus s.log) :
    QueueInv binding start msgs s'.bus s'.log := by
  induction h with
  | idle => exact hinv
  | @busy n s s' t f fs r hattempt hrc =>
      have hne : r.rc ≠ 0 := by
        rw [hrc]
        decide
      have hsent : s'.log.sentPkts = s.log.sentPkts := by
        rw [hattempt.log, BusLog.sentPkts_push, if_neg hne]
      refine ⟨hattempt.kept_ok, ?_, ?_⟩
      · rw [hattempt.kept_seq, hsent]
        exact hinv.seq
      · rw [hsent, ← hn, hattempt.kept_rest, hattempt.kept_label, ← hattempt.rest, hn]
        exact hinv.queue
  | @fail n s s' t f fs r hattempt hzero hbusy =>
      have hanswer := htx s.dev (fragPkt binding s.bus.label f)
      rw [hattempt.answer] at hanswer
      cases hanswer with
      | inl h => exact absurd h hzero
      | inr h => exact absurd h hbusy
  | @more n s s' t u f fs r hattempt hzero _ ih =>
      have hsent : t.log.sentPkts = s.log.sentPkts ++ [fragPkt binding s.bus.label f] := by
        rw [hattempt.done_log, hattempt.log, BusLog.sentPkts_push, if_pos hzero]
      have hcount : start + t.log.sentPkts.length = n + 1 := by
        rw [hsent, List.length_append, List.length_singleton, hn]
        omega
      refine ih hcount.symm ⟨hattempt.done_ok, ?_, ?_⟩
      · rw [hcount]
        exact hattempt.done_seq
      · have hqueue := hinv.queue
        rw [← hn, hattempt.rest, List.map_cons] at hqueue
        rw [hcount, hattempt.done_rest, hattempt.done_label, hsent, List.append_assoc]
        exact hqueue

/-- All that was queued is sent. -/
structure Drained (binding : MctpBinding) (n : Nat) (s s' : BusIo δ) : Prop where
  idle : s'.bus.txMsg = none
  enabled : s'.bus.state = .txEnabled
  seq : s'.bus.txSeq.toNat = (n + (s.bus.rest binding.chunk n).length) % 4
  txed : s'.log.txed = s.log.txed ++ (s.bus.rest binding.chunk n).map fun f =>
    (fragPkt binding s.bus.label f, ⟨0, false⟩)

/-- A binding that takes every packet of the queued message, while its device is as `P` says of what
is left to send, leaves nothing queued. -/
theorem Sends.all_sent_along {env : Env δ} {b n : Nat} {s s' : BusIo δ}
    (h : Sends env b binding n s s') {P : List (Frag UInt8) → δ → Prop}
    (htx : ∀ f fs, f :: fs <:+ s.bus.rest binding.chunk n → ∀ d, P (f :: fs) d →
      (env.tx b d (fragPkt binding s.bus.label f)).2 = ⟨0, false⟩ ∧
        P fs (env.tx b d (fragPkt binding s.bus.label f)).1)
    (hdev : P (s.bus.rest binding.chunk n) s.dev) (henabled : s.bus.state = .txEnabled)
    (hseq : s.bus.txSeq.toNat = n % 4) :
    Drained binding n s s' := by
  induction h with
  | @idle n s hidle =>
      have hnone : s.bus.txMsg = none := hidle.resolve_left (not_not.mpr henabled)
      have hrest : s.bus.rest binding.chunk n = [] := by rw [MctpBus.rest, hnone]
      refine ⟨hnone, henabled, ?_, ?_⟩
      · rw [hrest]
        exact hseq
      · rw [hrest, List.map_nil, List.append_nil]
  | @busy n s s' t f fs r hattempt hrc =>
      rw [hattempt.rest] at htx hdev
      obtain ⟨hr, -⟩ := htx f fs List.suffix_rfl s.dev hdev
      rw [hattempt.answer] at hr
      rw [show r = _ from hr] at hrc
      exact absurd hrc (by decide)
  | @fail n s s' t f fs r hattempt hzero hbusy =>
      rw [hattempt.rest] at htx hdev
      obtain ⟨hr, -⟩ := htx f fs List.suffix_rfl s.dev hdev
      rw [hattempt.answer] at hr
      rw [show r = _ from hr] at hzero
      exact absurd rfl hzero
  | @more n s s' t u f fs r hattempt hzero _ ih =>
      rw [hattempt.rest] at htx hdev
      obtain ⟨hr, hdev'⟩ := htx f fs List.suffix_rfl s.dev hdev
      rw [hattempt.answer] at hr hdev'
      have hstate : t.bus.state = .txEnabled := by
        rw [hattempt.done_state, hattempt.state, show r = _ from hr]
        rfl
      have hdone := ih
        (by
          rw [hattempt.done_rest, hattempt.done_label]
          exact fun g gs hg => htx g gs (hg.trans (List.suffix_cons f fs)))
        (by
          rw [hattempt.done_rest, hattempt.done_dev]
          exact hdev')
        hstate hattempt.done_seq
      refine ⟨hdone.idle, hdone.enabled, ?_, ?_⟩
      · rw [hdone.seq, hattempt.done_rest, hattempt.rest, List.length_cons]
        congr 1
        omega
      · rw [hdone.txed, hattempt.done_log, hattempt.log, hattempt.done_rest,
          hattempt.done_label, hattempt.rest,
          show r = _ from hr, List.map_cons, List.append_assoc]
        rfl

theorem Sends.terminated {env : Env δ} {b n : Nat} {s s' : BusIo δ} (h : Sends env b binding n s s')
    (hs : s.hist.Terminated) : s'.hist.Terminated := by
  induction h with
  | idle => exact hs
  | busy hattempt _ => exact hattempt.kept_terminated hs
  | fail hattempt _ _ => exact hattempt.done_terminated hs
  | more hattempt _ _ ih => exact ih (hattempt.done_terminated hs)

end Invariant

/-- The message left on bus `i` in the packets that `cut` makes of it, numbered from `n` on. -/
structure SentWhole (binding : MctpBinding) (n : Nat) (msg : Message) (i : Fin 2) (w w' : Mctp δ) :
    Prop where
  idle : (w'.busses i).txMsg = none
  enabled : (w'.busses i).state = .txEnabled
  seq : (w'.busses i).txSeq.toNat = (n + (cut 4 binding.chunk true n msg.bytes).length) % 4
  txed : (w'.busLog i).txed = (w.busLog i).txed ++
    (cut 4 binding.chunk true n msg.bytes).map fun f => (fragPkt binding msg.label f, ⟨0, false⟩)
  others : ∀ k, k ≠ i → w'.busses k = w.busses k ∧ w'.busLog k = w.busLog k

/-- The loop that ran when bus `i` took a message: from `s`, where all of the message is left, to
`s'`. -/
structure TakeRuns (env : Env δ) (b : Nat) (binding : MctpBinding) (n : Nat) (msg : Message)
    (i : Fin 2) (w w' : Mctp δ) (s s' : BusIo δ) : Prop where
  sends : Sends env b binding n s s'
  rest : s.bus.rest binding.chunk n = cut 4 binding.chunk true n msg.bytes
  label : s.bus.label = msg.label
  state : s.bus.state = (w.busses i).state
  seq : s.bus.txSeq.toNat = n % 4
  dev : s.dev = w.dev
  log : s.log = (w.busLog i).accept msg
  bus : w'.busses i = s'.bus
  busLog : w'.busLog i = s'.log
  others : ∀ k, k ≠ i → w'.busses k = w.busses k ∧ w'.busLog k = w.busLog k

theorem TxTaken.runs {env : Env δ} {w w' : Mctp δ} {i : Fin 2} {msg : Message} {b n : Nat}
    {binding : MctpBinding} (h : TxTaken env w i msg w') (hbus : (w.busses i).binding = some b)
    (hbinding : w.bindings b = binding) (hchunk : 0 < binding.chunk)
    (hseq : (w.busses i).txSeq.toNat = n % 4) :
    ∃ s s', TakeRuns env b binding n msg i w w' s s' := by
  obtain ⟨w₁, buf, hsent, honly, hbuf, rfl⟩ := h.sent
  generalize hw₂ : w₁.take i msg.src msg.dest msg.tagOwner msg.tag buf msg.bytes.length = w₂
  have hbus₂ : w₂.busses i
      = (w.busses i).take msg.src msg.dest msg.tagOwner msg.tag buf msg.bytes.length := by
    rw [← hw₂, Mctp.take_bus, hsent.busses]
  have hlog₂ : w₂.busLog i = (w.busLog i).accept msg := by
    rw [← hw₂, Mctp.take_log, hsent.busLog, hbuf, List.take_length]
  have hbinding₂ : (w₂.busses i).binding = some b := by
    rw [hbus₂]
    exact hbus
  have hfollow : w₂.busBinding i = binding := by
    rw [Mctp.busBinding, hbinding₂, ← hw₂]
    dsimp only [Mctp.take]
    rw [honly.bindings]
    exact hbinding
  have hok : (w₂.busses i).Ok := by
    rw [hbus₂]
    refine ⟨?_, fun _ _ => .inl rfl, fun _ _ => tag_lt_of_mask h.tag⟩
    intro buf' hbuf'
    rw [← Option.some.inj hbuf', hbuf]
    rfl
  obtain ⟨s', hsends, hw'⟩ := mctpSendTxQueue_sends env w₂ i (n := n)
    (by rw [hfollow]; exact hchunk) hok (by rw [hbus₂]; exact hseq)
  rw [hfollow, hbinding₂] at hsends
  have hothers : ∀ k, k ≠ i → (w₂.putBusIo i s').busses k = w.busses k ∧
      (w₂.putBusIo i s').busLog k = w.busLog k := by
    intro k hk
    obtain ⟨hbusses, hlogs⟩ := Mctp.take_others w₁ i msg.src msg.dest msg.tagOwner msg.tag buf
      msg.bytes.length hk
    obtain ⟨hbusses', hlogs'⟩ := Mctp.putBusIo_others w₂ i s' hk
    rw [hw₂, hsent.busses] at hbusses
    rw [hw₂, hsent.busLog] at hlogs
    exact ⟨hbusses'.trans hbusses, hlogs'.trans hlogs⟩
  refine ⟨w₂.busIo i, s', hsends, ?_, ?_, ?_, ?_, ?_, hlog₂, ?_, ?_, ?_⟩
  · dsimp only [Mctp.busIo]
    rw [hbus₂, MctpBus.rest, ← hbuf]
    rfl
  · dsimp only [Mctp.busIo]
    rw [hbus₂]
    rfl
  · dsimp only [Mctp.busIo]
    rw [hbus₂]
    rfl
  · dsimp only [Mctp.busIo]
    rw [hbus₂]
    exact hseq
  · rw [← hw₂]
    exact hsent.dev
  · rw [hw']
    exact Function.update_self ..
  · rw [hw']
    exact Function.update_self ..
  · rw [hw']
    exact hothers

/-- A message taken by an enabled bus whose binding takes its packets, one after the other, is sent
when the call returns. -/
theorem TxTaken.sentWhole_along {env : Env δ} {w w' : Mctp δ} {i : Fin 2} {msg : Message}
    {b n : Nat} {binding : MctpBinding} (h : TxTaken env w i msg w')
    (hbus : (w.busses i).binding = some b) (hbinding : w.bindings b = binding)
    {P : List (Frag UInt8) → δ → Prop}
    (htx : ∀ f fs, f :: fs <:+ cut 4 binding.chunk true n msg.bytes → ∀ d, P (f :: fs) d →
      (env.tx b d (fragPkt binding msg.label f)).2 = ⟨0, false⟩ ∧
        P fs (env.tx b d (fragPkt binding msg.label f)).1)
    (hdev : P (cut 4 binding.chunk true n msg.bytes) w.dev) (hchunk : 0 < binding.chunk)
    (henabled : (w.busses i).state = .txEnabled) (hseq : (w.busses i).txSeq.toNat = n % 4) :
    SentWhole binding n msg i w w' := by
  obtain ⟨s, s', hruns⟩ := h.runs hbus hbinding hchunk hseq
  rw [← hruns.rest] at htx hdev
  rw [← hruns.label] at htx
  rw [← hruns.dev] at hdev
  obtain ⟨hidle, henabled', hseq', htxed⟩ :=
    hruns.sends.all_sent_along htx hdev (hruns.state.trans henabled) hruns.seq
  rw [hruns.rest] at hseq' htxed
  rw [hruns.log, hruns.label] at htxed
  refine ⟨?_, ?_, ?_, ?_, hruns.others⟩
  · rw [hruns.bus]
    exact hidle
  · rw [hruns.bus]
    exact henabled'
  · rw [hruns.bus]
    exact hseq'
  · rw [hruns.busLog]
    exact htxed

/-- A message taken by an enabled bus whose binding takes each of its packets is sent when the call
returns. -/
theorem TxTaken.sentWhole_on {env : Env δ} {w w' : Mctp δ} {i : Fin 2} {msg : Message} {b n : Nat}
    {binding : MctpBinding} (h : TxTaken env w i msg w') (hbus : (w.busses i).binding = some b)
    (hbinding : w.bindings b = binding) {P : δ → Prop}
    (htx : ∀ f ∈ cut 4 binding.chunk true n msg.bytes, ∀ d, P d →
      (env.tx b d (fragPkt binding msg.label f)).2 = ⟨0, false⟩ ∧
        P (env.tx b d (fragPkt binding msg.label f)).1)
    (hdev : P w.dev) (hchunk : 0 < binding.chunk) (henabled : (w.busses i).state = .txEnabled)
    (hseq : (w.busses i).txSeq.toNat = n % 4) : SentWhole binding n msg i w w' :=
  h.sentWhole_along hbus hbinding (P := fun _ => P)
    (fun f _ hf => htx f (hf.mem List.mem_cons_self)) hdev hchunk henabled hseq

/-- A message taken by an enabled bus whose binding takes every packet is sent when the call
returns. -/
theorem TxTaken.sentWhole {env : Env δ} {w w' : Mctp δ} {i : Fin 2} {msg : Message} {b n : Nat}
    {binding : MctpBinding} (h : TxTaken env w i msg w') (hbus : (w.busses i).binding = some b)
    (hbinding : w.bindings b = binding) (htx : ∀ d pkt, (env.tx b d pkt).2 = ⟨0, false⟩)
    (hchunk : 0 < binding.chunk) (henabled : (w.busses i).state = .txEnabled)
    (hseq : (w.busses i).txSeq.toNat = n % 4) : SentWhole binding n msg i w w' :=
  h.sentWhole_on hbus hbinding (P := fun _ => True) (fun _ _ d _ => ⟨htx d _, trivial⟩) trivial
    hchunk henabled hseq

/-- The message left on bus `i` in one packet, numbered `n`. -/
structure SentOne (binding : MctpBinding) (n : Nat) (msg : Message) (i : Fin 2) (w w' : Mctp δ) :
    Prop where
  idle : (w'.busses i).txMsg = none
  sent : ∃ r, r.rc = 0 ∧ w'.busLog i = { (w.busLog i).accept msg with
    txed := (w.busLog i).txed ++ [(fragPkt binding msg.label ⟨true, true, n % 4, msg.bytes⟩, r)] }
  others : ∀ k, k ≠ i → w'.busses k = w.busses k ∧ w'.busLog k = w.busLog k

theorem Sends.of_none {env : Env δ} {b n : Nat} {binding : MctpBinding} {s s' : BusIo δ}
    (h : Sends env b binding n s s') (hnone : s.bus.txMsg = none) : s' = s := by
  have hrest : s.bus.rest binding.chunk n = [] := by rw [MctpBus.rest, hnone]
  cases h with
  | idle => rfl
  | busy hattempt => exact absurd (hrest.symm.trans hattempt.rest) (List.cons_ne_nil _ _).symm
  | fail hattempt => exact absurd (hrest.symm.trans hattempt.rest) (List.cons_ne_nil _ _).symm
  | more hattempt => exact absurd (hrest.symm.trans hattempt.rest) (List.cons_ne_nil _ _).symm

/-- A message of one packet is sent when the call returns, where the binding takes the packet. -/
theorem TxTaken.sentOne {env : Env δ} {w w' : Mctp δ} {i : Fin 2} {msg : Message} {b n : Nat}
    {binding : MctpBinding} (h : TxTaken env w i msg w') (hbus : (w.busses i).binding = some b)
    (hbinding : w.bindings b = binding) (htx : ∀ pkt, (env.tx b w.dev pkt).2.rc = 0)
    (hchunk : 0 < binding.chunk) (hshort : msg.bytes.length ≤ binding.chunk)
    (henabled : (w.busses i).state = .txEnabled) (hseq : (w.busses i).txSeq.toNat = n % 4) :
    SentOne binding n msg i w w' := by
  obtain ⟨s, s', hruns⟩ := h.runs hbus hbinding hchunk hseq
  have hrest : s.bus.rest binding.chunk n = [⟨true, true, n % 4, msg.bytes⟩] := by
    rw [hruns.rest, cut_of_le hshort]
  have hrc : ∀ {f fs r s₁ t}, Attempt env b binding n s f fs r s₁ t → r.rc = 0 := by
    intro f fs r s₁ t hattempt
    have hanswer := htx (fragPkt binding s.bus.label f)
    rw [← hruns.dev, hattempt.answer] at hanswer
    exact hanswer
  cases hruns.sends with
  | idle hidle =>
      have hnone : s.bus.txMsg = none :=
        hidle.resolve_left (not_not.mpr (hruns.state.trans henabled))
      rw [MctpBus.rest, hnone] at hrest
      cases hrest
  | busy hattempt hbusy =>
      rw [hrc hattempt] at hbusy
      exact absurd hbusy (by decide)
  | fail hattempt hzero => exact absurd (hrc hattempt) hzero
  | @more _ _ s₁ t _ f fs r hattempt hzero hsends =>
      obtain ⟨rfl, rfl⟩ := List.cons.inj (hattempt.rest.symm.trans hrest)
      have hnone : t.bus.txMsg = none := Option.isNone_iff_eq_none.mp hattempt.done_msg
      have hend := hsends.of_none hnone
      refine ⟨?_, ⟨r, hzero, ?_⟩, hruns.others⟩
      · rw [hruns.bus, hend]
        exact hnone
      · rw [hruns.busLog, hend, hattempt.done_log, hattempt.log, hruns.label, hruns.log]
        rfl

/-! ### Runs -/

/-- A bus with its binding that has kept to the order of the messages accepted. -/
structure BusInv (b : Nat) (binding : MctpBinding) (start : Nat) (w : Mctp δ)
    (accepted : List Message) : Prop where
  linked : Linked w b binding
  queue : QueueInv binding start accepted (w.busses 0) (w.busLog 0)
  terminated : w.hist.Terminated

section Calls

variable {env : Env δ} {b start : Nat} {binding : MctpBinding} {w w' : Mctp δ}
  {accepted : List Message}

theorem BusInv.sendTxQueue (h : BusInv b binding start w accepted) (hchunk : 0 < binding.chunk)
    (htx : ∀ d pkt, (env.tx b d pkt).2.rc = 0 ∨ (env.tx b d pkt).2.rc = -ebusy) :
    BusInv b binding start (mctpSendTxQueue env w 0) accepted := by
  have hbinding := h.linked.busBinding
  obtain ⟨s', hsends, hw'⟩ := mctpSendTxQueue_sends env w 0 (by rw [hbinding]; exact hchunk)
    h.queue.ok h.queue.seq
  rw [hbinding, h.linked.bus] at hsends
  refine ⟨h.linked.of_sameSetup (mctpSendTxQueue_txOnly env w 0).toSameSetup, ?_, ?_⟩
  · have hqueue := hsends.queueInv htx rfl h.queue
    rw [hw']
    simpa [Mctp.putBusIo] using hqueue
  · rw [hw']
    exact hsends.terminated h.terminated

theorem BusInv.of_nothingSent (h : BusInv b binding start w accepted) (hsame : SameSetup env w w')
    (hsent : NothingSent w w') : BusInv b binding start w' accepted := by
  refine ⟨h.linked.of_sameSetup hsame, ?_, hsent.terminated h.terminated⟩
  rw [hsent.busses, hsent.busLog]
  exact h.queue

/-- An idle bus takes a message. -/
theorem BusInv.take (env : Env δ) (h : BusInv b binding start w accepted)
    (hfree : (w.busses 0).txMsg = none) {msg : Message} {buf : MsgBuf}
    (hbuf : buf.bytes = msg.bytes) (htag : msg.tag.toNat < 8) :
    BusInv b binding start (w.take 0 msg.src msg.dest msg.tagOwner msg.tag buf msg.bytes.length)
      (accepted ++ [msg]) := by
  refine ⟨h.linked.of_sameSetup (txOnly_take env w 0 _ _ _ _ buf _).toSameSetup, ?_, h.terminated⟩
  have htake := h.queue.take hfree msg hbuf htag
  simpa [Mctp.take, hbuf] using htake

theorem BusInv.taken (h : BusInv b binding start w accepted) {msg : Message}
    (htaken : TxTaken env w 0 msg w') (hchunk : 0 < binding.chunk)
    (htx : ∀ d pkt, (env.tx b d pkt).2.rc = 0 ∨ (env.tx b d pkt).2.rc = -ebusy) :
    BusInv b binding start w' (accepted ++ [msg]) := by
  obtain ⟨w₁, buf, hsent, honly, hbuf, rfl⟩ := htaken.sent
  have hfree : (w₁.busses 0).txMsg = none := by
    rw [hsent.busses]
    exact htaken.free
  exact ((h.of_nothingSent honly.toSameSetup hsent).take env hfree hbuf
    (tag_lt_of_mask htaken.tag)).sendTxQueue hchunk htx

theorem BusInv.setState (h : BusInv b binding start w accepted) (state : MctpBusState) :
    BusInv b binding start (w.setBus 0 { w.busses 0 with state := state }) accepted := by
  refine ⟨⟨h.linked.nBusses, ?_, ?_, h.linked.eq, h.linked.back, h.linked.owner⟩, ?_, h.terminated⟩
  · simpa [Mctp.setBus] using h.linked.bus
  · simpa [Mctp.setBus] using h.linked.mctp
  · simpa [Mctp.setBus] using h.queue.setState state

theorem BusInv.setTxEnabled (h : BusInv b binding start w accepted) (hchunk : 0 < binding.chunk)
    (htx : ∀ d pkt, (env.tx b d pkt).2.rc = 0 ∨ (env.tx b d pkt).2.rc = -ebusy) (enable : Bool) :
    BusInv b binding start (mctpBindingSetTxEnabled env w b enable) accepted := by
  obtain ⟨state, hw', _⟩ | ⟨_, hw'⟩ := mctpBindingSetTxEnabled_cases env h.linked enable
  · rw [hw']
    exact h.setState state
  · rw [hw']
    exact (h.setState .txEnabled).sendTxQueue hchunk htx

end Calls

/-- The calls on a registered bus. -/
inductive TxOp where
  | messageTx (eid : UInt8) (tagOwner : Bool) (msgTag : UInt8) (msg : List UInt8)
  | setTxEnabled (enable : Bool)

/-- One call, and the messages for which `mctp_message_tx` returned 0. -/
def txStep (env : Env δ) (b : Nat) (st : Mctp δ × List Message) : TxOp → Mctp δ × List Message
  | .messageTx eid tagOwner msgTag msg =>
    let (w, rc) := mctpMessageTx env st.1 eid tagOwner msgTag msg
    (w, if rc = 0 then st.2 ++ [⟨(st.1.busses 0).eid, eid, tagOwner, msgTag, msg⟩] else st.2)
  | .setTxEnabled enable => (mctpBindingSetTxEnabled env st.1 b enable, st.2)

section Run

variable {env : Env δ} {b start : Nat} {binding : MctpBinding}

theorem BusInv.step {st : Mctp δ × List Message} (h : BusInv b binding start st.1 st.2)
    (hchunk : 0 < binding.chunk)
    (htx : ∀ d pkt, (env.tx b d pkt).2.rc = 0 ∨ (env.tx b d pkt).2.rc = -ebusy) (op : TxOp) :
    BusInv b binding start (txStep env b st op).1 (txStep env b st op).2 := by
  cases op with
  | setTxEnabled enable => exact h.setTxEnabled hchunk htx enable
  | messageTx eid tagOwner msgTag msg =>
      have honly := mctpMessageTx_txOnly env st.1 eid tagOwner msgTag msg
      rw [txStep]
      cases hcall : mctpMessageTx env st.1 eid tagOwner msgTag msg with | mk w' rc =>
      rw [hcall] at honly
      dsimp only
      obtain ⟨hrc, hsent, _⟩ | ⟨hrc, htaken⟩ := mctpMessageTx_cases env h.linked hcall
      · rw [if_neg hrc]
        exact h.of_nothingSent honly.toSameSetup hsent
      · rw [if_pos hrc]
        exact h.taken htaken hchunk htx

theorem BusInv.run (st : Mctp δ × List Message) (h : BusInv b binding start st.1 st.2)
    (hchunk : 0 < binding.chunk)
    (htx : ∀ d pkt, (env.tx b d pkt).2.rc = 0 ∨ (env.tx b d pkt).2.rc = -ebusy) (ops : List TxOp) :
    BusInv b binding start (ops.foldl (txStep env b) st).1 (ops.foldl (txStep env b) st).2 := by
  induction ops generalizing st with
  | nil => exact h
  | cons op ops ih => exact ih _ (h.step hchunk htx op)

theorem busInv_registered {w : Mctp δ} {eid : UInt8} {w₁ : Mctp δ} (h : Registered w b eid w₁)
    (hterm : w.hist.Terminated) :
    BusInv b { w.bindings b with bus := some 0, mctp := some () } 0 w₁ [] := by
  refine ⟨h.linked, ?_, h.terminated hterm⟩
  rw [h.bus, h.busLog]
  exact .init rfl rfl

theorem mctpRegisterBus_busInv {bindings : Nat → MctpBinding} {now : Nat} {dev : δ} {eid : UInt8}
    (hreg : 0 ≤ (mctpRegisterBus env (mctpSetup bindings now dev) b eid).2)
    (hchunk : 0 < (bindings b).chunk)
    (htx : ∀ d pkt, (env.tx b d pkt).2.rc = 0 ∨ (env.tx b d pkt).2.rc = -ebusy) :
    BusInv b { bindings b with bus := some 0, mctp := some () } 0
      (mctpRegisterBus env (mctpSetup bindings now dev) b eid).1 [] :=
  mctpRegisterBus_invariant env rfl hreg _ (fun _ hw₁ => busInv_registered hw₁ List.not_mem_nil)
    (fun _ enable hw₁ => hw₁.setTxEnabled hchunk htx enable)

theorem chunk_pos (hsize : mctpPacketSize mctpBtu ≤ binding.pktSize) : 0 < binding.chunk := by
  unfold mctpPacketSize mctpBtu at hsize
  unfold MctpBinding.chunk
  omega

/-- **Exactly once and in order.** Whatever the binding answers and however the bus is disabled and
enabled, every call returns, the packets taken are the first packets of the messages accepted, and
they are all of them whenever no message is queued. -/
theorem txRun_sends_msgPackets (env : Env δ) (bindings : Nat → MctpBinding) (now : Nat) (dev : δ)
    (b : Nat) (eid : UInt8) (ops : List TxOp)
    (hreg : 0 ≤ (mctpRegisterBus env (mctpSetup bindings now dev) b eid).2)
    (hsize : mctpPacketSize mctpBtu ≤ (bindings b).pktSize)
    (htx : ∀ d pkt, (env.tx b d pkt).2.rc = 0 ∨ (env.tx b d pkt).2.rc = -ebusy) :
    let r := ops.foldl (txStep env b)
      ((mctpRegisterBus env (mctpSetup bindings now dev) b eid).1, [])
    r.1.hist.Terminated ∧
      (r.1.busLog 0).sentPkts <+: msgPackets (bindings b) 0 r.2 ∧
      ((r.1.busses 0).txMsg = none → (r.1.busLog 0).sentPkts = msgPackets (bindings b) 0 r.2) := by
  have hchunk := chunk_pos hsize
  have hrun := BusInv.run (_, []) (mctpRegisterBus_busInv hreg hchunk htx) hchunk htx ops
  exact ⟨hrun.terminated, hrun.queue.sent_prefix, hrun.queue.idle⟩

/-- A binding for packets of 68 bytes, which takes every other packet it is given. -/
def everyOther : Env Nat where
  msgAlloc := fun _ => true
  pktAlloc := fun _ => true
  tx := fun _ d _ => (d + 1, ⟨if d % 2 = 0 then -ebusy else 0, false⟩)
  start := fun _ => some fun d => (d, ⟨0, [true]⟩)

def smallBinding : MctpBinding where
  version := 1
  bus := none
  mctp := none
  pktSize := 68
  pktHeader := 0
  pktTrailer := 0
  fits := by decide
  txStorage := true
  controlRx := false

/-- A message of two packets, the first of which is taken when the bus is enabled again. -/
theorem txRun_sends_msgPackets_resumed :
    let r := ([.messageTx 9 true 3 (List.replicate 100 7), .setTxEnabled false,
      .setTxEnabled true] : List TxOp).foldl (txStep everyOther 0)
      ((mctpRegisterBus everyOther (mctpSetup (fun _ => smallBinding) 0 0) 0 8).1, [])
    r.2.length = 1 ∧ (r.1.busLog 0).sentPkts.length = 1 ∧
    (r.1.busLog 0).sentPkts <+: msgPackets smallBinding 0 r.2 := by
  refine ⟨by decide, by decide, ?_⟩
  refine (txRun_sends_msgPackets everyOther (fun _ => smallBinding) 0 0 0 8 _ (by decide)
    (by decide) ?_).2.1
  intro d pkt
  dsimp only [everyOther]
  split
  · exact .inr rfl
  · exact .inl rfl

end Run

end LibMctp
