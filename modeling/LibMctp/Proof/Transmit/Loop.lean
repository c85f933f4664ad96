import LibMctp.Proof.Base.Packets

/-!
# The transmit loop

`Sends` is what `mctp_send_tx_queue` does, without the count of rounds that makes its loop a
function here: it stops where nothing is queued or the bus is disabled, and at the first packet that
the binding does not take. The count is enough because what is left of the queued message, cut into
fragments, has at most one fragment more than it has bytes.
-/

namespace LibMctp

open Fragment

variable {δ : Type}

/-- The addressing of the queued message. -/
def MctpBus.label (bus : MctpBus) : MsgLabel := ⟨bus.txSrc, bus.txDest, bus.txTo, bus.txTag⟩

/-- The fragments left of the queued message, numbered from `s` on. -/
def MctpBus.rest (bus : MctpBus) (chunk s : Nat) : List (Frag UInt8) :=
  match bus.txMsg with
  | none => []
  | some msg => cut 4 chunk (decide (bus.txMsgpos = 0)) s (msg.bytes.drop bus.txMsgpos)

/-- The queued message has the length noted, there is still something of it to send, and its tag is
one. -/
structure MctpBus.Ok (bus : MctpBus) : Prop where
  length : ∀ msg, bus.txMsg = some msg → msg.bytes.length = bus.txMsglen
  pos : ∀ msg, bus.txMsg = some msg → bus.txMsgpos = 0 ∨ bus.txMsgpos < bus.txMsglen
  tag : ∀ msg, bus.txMsg = some msg → bus.txTag.toNat < 8

theorem MctpBus.Ok.of_none {bus : MctpBus} (h : bus.txMsg = none) : bus.Ok where
  length := fun msg hmsg => by simp [h] at hmsg
  pos := fun msg hmsg => by simp [h] at hmsg
  tag := fun msg hmsg => by simp [h] at hmsg

theorem mctpBodySize_eq (binding : MctpBinding) (h : mctpHdrSize ≤ binding.pktSize) :
    mctpBodySize binding.pktSize = binding.chunk := by
  have hfits := binding.fits
  exact subSize_of_le h (by omega)

theorem txSeq_next (seq : UInt8) : ((seq + 1) &&& mctpHdrSeqMask).toNat = (seq.toNat + 1) % 4 := by
  have hmask : mctpHdrSeqMask.toNat = 2 ^ 2 - 1 := rfl
  have hone : (1 : UInt8).toNat = 1 := rfl
  rw [UInt8.toNat_and, UInt8.toNat_add, hmask, Nat.and_two_pow_sub_one_eq_mod, hone]
  omega

section Packet

variable {binding : MctpBinding} {bus : MctpBus} {msg : MsgBuf} {s : Nat}

/-- The flags of the source are those of the fragment. -/
theorem txFlagsSeqTag_eq (hseq : bus.txSeq.toNat = s % 4) (p payloadLen : Nat)
    (payload : List UInt8) :
    txFlagsSeqTag bus p payloadLen
      = fragFlags bus.label ⟨decide (p = 0), decide (p + payloadLen ≥ bus.txMsglen),
        s % 4, payload⟩ := by
  have hofNat : UInt8.ofNat (s % 4) = bus.txSeq := by
    rw [← hseq, UInt8.ofNat_toNat]
  rw [txFlagsSeqTag, fragFlags]
  simp only [decide_eq_true_eq, hofNat]
  rfl

/-- **The next packet is the next fragment.** Sending it leaves the fragments after it. -/
theorem mctpNextTxPkt_eq (hchunk : 0 < binding.chunk) (hok : bus.Ok)
    (hseq : bus.txSeq.toNat = s % 4) (hmsg : bus.txMsg = some msg) :
    ∃ f fs, bus.rest binding.chunk s = f :: fs ∧
      mctpNextTxPkt binding bus
        = some (fragPkt binding bus.label f, { bus with txPktlen := f.payload.length }) ∧
      f.last = decide (bus.txMsgpos + f.payload.length ≥ bus.txMsglen) ∧
      (f.last = true → fs = []) ∧
      (f.last = false → 0 < f.payload.length ∧
        fs = cut 4 binding.chunk false (s + 1) (msg.bytes.drop
          (bus.txMsgpos + f.payload.length))) := by
  have hlen := hok.length msg hmsg
  have hpos := hok.pos msg hmsg
  have hdrop : (msg.bytes.drop bus.txMsgpos).length = bus.txMsglen - bus.txMsgpos := by
    rw [List.length_drop, hlen]
  have hbody : mctpBodySize binding.pktSize = binding.chunk := by
    refine mctpBodySize_eq binding ?_
    unfold MctpBinding.chunk at hchunk
    omega
  have hrest : bus.rest binding.chunk s
      = cut 4 binding.chunk (decide (bus.txMsgpos = 0)) s (msg.bytes.drop bus.txMsgpos) := by
    rw [MctpBus.rest, hmsg]
  -- whether what is left fits one packet decides both the flag and the length of the payload
  by_cases hlast : bus.txMsglen - bus.txMsgpos ≤ binding.chunk
  · have hpayload : (msg.bytes.drop bus.txMsgpos).take (bus.txMsglen - bus.txMsgpos)
        = msg.bytes.drop bus.txMsgpos := by
      rw [← hdrop, List.take_length]
    have heom : decide (bus.txMsgpos + (bus.txMsglen - bus.txMsgpos) ≥ bus.txMsglen) = true := by
      rw [decide_eq_true_eq]
      omega
    refine ⟨⟨decide (bus.txMsgpos = 0), true, s % 4, msg.bytes.drop bus.txMsgpos⟩, [], ?_,
      ?_, ?_, fun _ => rfl, ?_⟩
    · rw [hrest, cut_of_le (by omega)]
    · rw [mctpNextTxPkt, hmsg]
      dsimp only
      rw [hbody, if_neg (by omega), hpayload,
        txFlagsSeqTag_eq hseq _ _ (msg.bytes.drop bus.txMsgpos), heom, hdrop]
      simp only [fragPkt, mctpPktbufInit, hdrop]
      rfl
    · dsimp only
      rw [hdrop, heom]
    · intro h
      cases h
  · have htake : ((msg.bytes.drop bus.txMsgpos).take binding.chunk).length = binding.chunk := by
      rw [List.length_take]
      omega
    have heom : decide (bus.txMsgpos + binding.chunk ≥ bus.txMsglen) = false := by
      rw [decide_eq_false_iff_not]
      omega
    refine ⟨⟨decide (bus.txMsgpos = 0), false, s % 4,
      (msg.bytes.drop bus.txMsgpos).take binding.chunk⟩,
      cut 4 binding.chunk false (s + 1) ((msg.bytes.drop bus.txMsgpos).drop binding.chunk),
      ?_, ?_, ?_, ?_, ?_⟩
    · rw [hrest, cut_of_lt hchunk (by omega)]
    · rw [mctpNextTxPkt, hmsg]
      dsimp only
      rw [hbody, if_pos (by omega),
        txFlagsSeqTag_eq hseq _ _ ((msg.bytes.drop bus.txMsgpos).take binding.chunk), heom, htake]
      simp only [fragPkt, mctpPktbufInit, htake]
      rfl
    · dsimp only
      rw [htake, heom]
    · intro h
      cases h
    · intro _
      dsimp only
      rw [htake, List.drop_drop]
      exact ⟨hchunk, rfl⟩

end Packet

/-! ### One attempt -/

/-- No transmit loop ran on for ever so far. -/
def History.Terminated (hist : History) : Prop := Fault.hang ∉ hist.faults

theorem History.Terminated.deref {hist : History} (h : hist.Terminated) (mctp : Option Unit) :
    (hist.deref mctp).Terminated := by
  cases mctp with
  | some _ => exact h
  | none => simpa [History.Terminated, History.deref, History.fault] using h

theorem History.Terminated.assert {hist : History} (h : hist.Terminated) (holds : Bool)
    {fault : Fault} (hfault : fault ≠ .hang) : (hist.assert holds fault).Terminated := by
  cases holds with
  | true => exact h
  | false => simpa [History.Terminated, History.assert, History.fault, hfault.symm] using h

theorem History.Terminated.capture {hist : History} (h : hist.Terminated) (set : Bool)
    (pkt : MctpPktbuf) (outgoing : Bool) : (hist.capture set pkt outgoing).Terminated := by
  cases set with
  | true => exact h
  | false => exact h

theorem History.Terminated.mctpMsgFree {hist : History} (h : hist.Terminated) (ptr : MsgBuf)
    (mctp : Option Unit) :
    (hist.mctpMsgFree ptr mctp).Terminated := h.deref mctp

section Attempt

variable (env : Env δ) (b : Nat) (binding : MctpBinding) (capture : Bool)

theorem mctpPacketTx_eq (s : BusIo δ) (henabled : s.bus.state = .txEnabled) (pkt : MctpPktbuf) :
    mctpPacketTx env b binding capture s pkt
      = (⟨{ s.bus with
            state := if (env.tx b s.dev pkt).2.disables then .txDisabled else .txEnabled },
          (env.tx b s.dev pkt).1,
          { s.log with txed := s.log.txed ++ [(pkt, (env.tx b s.dev pkt).2)] },
          (s.hist.deref binding.mctp).capture capture pkt true⟩, (env.tx b s.dev pkt).2.rc) := by
  rw [mctpPacketTx, if_neg (not_not.mpr henabled)]
  dsimp only
  congr 2
  split
  · rw [MctpBus.txDisable, henabled]
  · rw [← henabled]

theorem mctpTxComplete_of_last (s : BusIo δ) {msg : MsgBuf} (hmsg : s.bus.txMsg = some msg)
    (hend : s.bus.txMsgpos + s.bus.txPktlen ≥ s.bus.txMsglen) :
    mctpTxComplete binding s = { s with
      bus := { s.bus with
        txSeq := (s.bus.txSeq + 1) &&& mctpHdrSeqMask
        txMsgpos := s.bus.txMsgpos + s.bus.txPktlen
        txMsg := none }
      hist := s.hist.mctpMsgFree msg binding.mctp } := by
  rw [mctpTxComplete, hmsg]
  exact if_pos hend

theorem mctpTxComplete_of_more (s : BusIo δ) {msg : MsgBuf} (hmsg : s.bus.txMsg = some msg)
    (hend : ¬ s.bus.txMsgpos + s.bus.txPktlen ≥ s.bus.txMsglen) :
    mctpTxComplete binding s = { s with
      bus := { s.bus with
        txSeq := (s.bus.txSeq + 1) &&& mctpHdrSeqMask
        txMsgpos := s.bus.txMsgpos + s.bus.txPktlen } } := by
  rw [mctpTxComplete, hmsg]
  exact if_neg hend

/-- One packet given to the binding: `f` of the fragments `f :: fs` left, numbered from `n` on,
answered with `r`. The state is `s'` where the packet is kept and `t` where it is done with. -/
structure Attempt (n : Nat) (s : BusIo δ) (f : Frag UInt8) (fs : List (Frag UInt8)) (r : TxResult)
    (s' t : BusIo δ) : Prop where
  rest : s.bus.rest binding.chunk n = f :: fs
  tag : s.bus.label.tag.toNat < 8
  seq : f.seq < 4
  answer : env.tx b s.dev (fragPkt binding s.bus.label f) = (s'.dev, r)
  log : s'.log = { s.log with txed := s.log.txed ++ [(fragPkt binding s.bus.label f, r)] }
  state : s'.bus.state = if r.disables then .txDisabled else .txEnabled
  kept_ok : s'.bus.Ok
  kept_seq : s'.bus.txSeq = s.bus.txSeq
  kept_rest : s'.bus.rest binding.chunk n = f :: fs
  kept_label : s'.bus.label = s.bus.label
  kept_msg : s'.bus.txMsg = s.bus.txMsg
  kept_terminated : s.hist.Terminated → s'.hist.Terminated
  done_dev : t.dev = s'.dev
  done_log : t.log = s'.log
  done_state : t.bus.state = s'.bus.state
  done_ok : t.bus.Ok
  done_seq : t.bus.txSeq.toNat = (n + 1) % 4
  done_rest : t.bus.rest binding.chunk (n + 1) = fs
  done_label : t.bus.label = s.bus.label
  done_msg : t.bus.txMsg.isNone = f.last
  done_terminated : s.hist.Terminated → t.hist.Terminated

variable {env b binding capture}

theorem attempt_of_next {n : Nat} {s s' : BusIo δ} {pkt : MctpPktbuf} {bus : MctpBus} {rc : Int}
    (hchunk : 0 < binding.chunk) (hok : s.bus.Ok) (hseq : s.bus.txSeq.toNat = n % 4)
    (henabled : s.bus.state = .txEnabled) (hnext : mctpNextTxPkt binding s.bus = some (pkt, bus))
    (htx : mctpPacketTx env b binding capture { s with bus := bus } pkt = (s', rc)) :
    ∃ f fs r, rc = r.rc ∧ Attempt env b binding n s f fs r s' (mctpTxComplete binding s') := by
  cases hmsg : s.bus.txMsg with
  | none =>
      rw [mctpNextTxPkt, hmsg] at hnext
      cases hnext
  | some msg =>
      obtain ⟨f, fs, hrest, hpkt, hlast, hend, hmore⟩ := mctpNextTxPkt_eq hchunk hok hseq hmsg
      rw [hpkt] at hnext
      obtain ⟨rfl, rfl⟩ := Prod.mk.inj (Option.some.inj hnext)
      rw [mctpPacketTx_eq env b binding capture
        { s with bus := { s.bus with txPktlen := f.payload.length } } henabled] at htx
      obtain ⟨hs', rfl⟩ := Prod.mk.inj htx
      have hmsg' : s'.bus.txMsg = some msg := by
        rw [← hs']
        exact hmsg
      have hlen := hok.length msg hmsg
      have hpos := hok.pos msg hmsg
      have hfseq : f.seq < 4 := by
        rw [MctpBus.rest, hmsg] at hrest
        exact seq_lt_of_mem_cut (by decide) (hrest ▸ List.mem_cons_self)
      have hseq' := txSeq_next s.bus.txSeq
      rw [hseq, Nat.mod_add_mod] at hseq'
      refine ⟨f, fs, (env.tx b s.dev (fragPkt binding s.bus.label f)).2, rfl, ?_⟩
      -- the last fragment ends the message, any other moves the position by what it carries
      cases hf : f.last with
      | true =>
          rw [hf] at hlast
          have hend' := of_decide_eq_true hlast.symm
          rw [mctpTxComplete_of_last binding s' hmsg' (by rw [← hs']; exact hend')]
          subst hs'
          exact {
            rest := hrest, tag := hok.tag msg hmsg, seq := hfseq, answer := rfl, log :=
              rfl, state := rfl
            kept_ok := ⟨hok.length, hok.pos, hok.tag⟩, kept_seq := rfl, kept_rest :=
              hrest, kept_label := rfl, kept_msg := rfl
            kept_terminated := fun h => (h.deref _).capture _ _ _
            done_dev := rfl, done_log := rfl, done_state := rfl
            done_ok := .of_none rfl
            done_seq := hseq'
            done_rest := (hend hf).symm
            done_label := rfl
            done_msg := hf.symm
            done_terminated := fun h => ((h.deref _).capture _ _ _).mctpMsgFree _ _ }
      | false =>
          rw [hf] at hlast
          have hmore' := of_decide_eq_false hlast.symm
          obtain ⟨hpayload, hfs⟩ := hmore hf
          have hdone : (decide (s.bus.txMsgpos + f.payload.length = 0)) = false := by
            rw [decide_eq_false_iff_not]
            omega
          rw [mctpTxComplete_of_more binding s' hmsg' (by rw [← hs']; exact hmore')]
          subst hs'
          exact {
            rest := hrest, tag := hok.tag msg hmsg, seq := hfseq, answer := rfl, log :=
              rfl, state := rfl
            kept_ok := ⟨hok.length, hok.pos, hok.tag⟩, kept_seq := rfl, kept_rest :=
              hrest, kept_label := rfl, kept_msg := rfl
            kept_terminated := fun h => (h.deref _).capture _ _ _
            done_dev := rfl, done_log := rfl, done_state := rfl
            done_ok := ⟨hok.length, fun _ _ => .inr (by dsimp only; omega), hok.tag⟩
            done_seq := hseq'
            done_rest := by
              rw [MctpBus.rest]
              dsimp only
              rw [hmsg]
              dsimp only
              rw [hdone, hfs]
            done_label := rfl
            done_msg := by
              dsimp only
              rw [hmsg, hf]
              rfl
            done_terminated := fun h => (h.deref _).capture _ _ _ }

end Attempt

/-! ### The loop -/

section Sends

variable (env : Env δ) (b : Nat) (binding : MctpBinding)

/-- What `mctp_send_tx_queue` does to a bus whose next packet has number `n`, up to its return. -/
inductive Sends : Nat → BusIo δ → BusIo δ → Prop
  | idle {n : Nat} {s : BusIo δ} (hidle : s.bus.state ≠ .txEnabled ∨ s.bus.txMsg = none) :
      Sends n s s
  | busy {n : Nat} {s s' t : BusIo δ} {f : Frag UInt8} {fs : List (Frag UInt8)} {r : TxResult}
      (hattempt : Attempt env b binding n s f fs r s' t) (hrc : r.rc = -ebusy) : Sends n s s'
  | fail {n : Nat} {s s' t : BusIo δ} {f : Frag UInt8} {fs : List (Frag UInt8)} {r : TxResult}
      (hattempt : Attempt env b binding n s f fs r s' t) (hzero : r.rc ≠ 0)
      (hbusy : r.rc ≠ -ebusy) : Sends n s t
  | more {n : Nat} {s s' t u : BusIo δ} {f : Frag UInt8} {fs : List (Frag UInt8)} {r : TxResult}
      (hattempt : Attempt env b binding n s f fs r s' t) (hzero : r.rc = 0)
      (hsends : Sends (n + 1) t u) : Sends n s u

variable {env b binding} {capture : Bool}

theorem mctpSendTxQueueLoop_sends (hchunk : 0 < binding.chunk) (rounds : Nat) :
    ∀ (n : Nat) (s : BusIo δ), s.bus.Ok → s.bus.txSeq.toNat = n % 4 →
      (s.bus.rest binding.chunk n).length ≤ rounds →
      Sends env b binding n s (mctpSendTxQueueLoop env b binding capture rounds s) := by
  induction rounds with
  | zero =>
      intro n s hok hseq hrounds
      have hnone : s.bus.txMsg = none := by
        cases hmsg : s.bus.txMsg with
        | none => rfl
        | some msg =>
            obtain ⟨f, fs, hrest, _⟩ := mctpNextTxPkt_eq hchunk hok hseq hmsg
            rw [hrest, List.length_cons] at hrounds
            omega
      rw [mctpSendTxQueueLoop, if_neg (by simp [hnone])]
      exact .idle (.inr hnone)
  | succ rounds ih =>
      intro n s hok hseq hrounds
      rw [mctpSendTxQueueLoop]
      split
      · rename_i hdisabled
        exact .idle (.inl hdisabled)
      · rename_i henabled
        rw [not_not] at henabled
        split
        · rename_i hnext
          refine .idle (.inr ?_)
          cases hmsg : s.bus.txMsg with
          | none => rfl
          | some msg =>
              obtain ⟨f, fs, _, hpkt, _⟩ := mctpNextTxPkt_eq hchunk hok hseq hmsg
              rw [hpkt] at hnext
              cases hnext
        · rename_i pkt bus hnext
          cases htx : mctpPacketTx env b binding capture
            { s with bus := bus } pkt with | mk s' rc =>
          obtain ⟨f, fs, r, rfl, hattempt⟩ := attempt_of_next hchunk hok hseq henabled hnext htx
          have hfs := hattempt.rest
          dsimp only
          split
          · rename_i hzero
            refine .more hattempt hzero (ih (n + 1) _ hattempt.done_ok hattempt.done_seq ?_)
            rw [hattempt.done_rest]
            rw [hfs, List.length_cons] at hrounds
            omega
          · rename_i hzero
            split
            · rename_i hbusy
              exact .busy hattempt hbusy
            · rename_i hbusy
              exact .fail hattempt hzero hbusy

end Sends

end LibMctp
