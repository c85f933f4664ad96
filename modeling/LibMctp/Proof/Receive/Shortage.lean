import LibMctp.Lib.Shortage
import LibMctp.Proof.Receive.Isolation

/-!
# What missing memory costs

Where no buffer or no context can be had, a packet is passed over. Nothing is handed up that would
not be handed up with a buffer and a context for every message, in the same order, and what is
missing is one message at most for each packet passed over.
-/

namespace LibMctp

open Fragment Reassembly

variable {δ : Type}

/-- The packet is not dropped on sight, and starts a message for which there is no buffer or no
context. -/
def Refused (env : Env δ) (b : Nat) (w : Mctp δ) (pkt : MctpPktbuf) : Prop :=
  w.accepts b pkt = true ∧
    ((pktFrag pkt).first = true ∧ ((pktFrag pkt).last = true ∨ w.asm (pktLabel pkt).key = none)) ∧
    (env.msgAlloc w.nMsgAlloc = false ∨ (∀ j, (w.msgCtxs j).buf.isSome = true) ∧
      (pktFrag pkt).last = false)

instance (env : Env δ) (b : Nat) (w : Mctp δ) (pkt : MctpPktbuf) :
    Decidable (Refused env b w pkt) :=
  inferInstanceAs (Decidable (_ ∧ (_ ∧ (_ ∨ _)) ∧ (_ ∨ _ ∧ _)))

/-- The packets of a run that are passed over. -/
def refusals (env : Env δ) (b : Nat) : Mctp δ → List MctpPktbuf → Nat
  | _, [] => 0
  | w, pkt :: pkts =>
      (if Refused env b w pkt then 1 else 0) + refusals env b (mctpBusRx env w b pkt) pkts

/-- The packets of a run that are not dropped on sight. -/
def takenItems (env : Env δ) (b : Nat) : Mctp δ → List MctpPktbuf → List (MsgLabel × Frag UInt8)
  | _, [] => []
  | w, pkt :: pkts =>
      (if w.accepts b pkt then [pktItem pkt] else []) ++
        takenItems env b (mctpBusRx env w b pkt) pkts

/-- What a receiver with a buffer and a context for every message puts together from them. -/
def wouldHandUp (env : Env δ) (b : Nat) (w : Mctp δ) (pkts : List MctpPktbuf) :
    List (MsgLabel × List UInt8) :=
  (run MsgLabel.key 4 w.maxMessageSize.toNat State.init (takenItems env b w pkts)).out

section Run

variable (env : Env δ) {b : Nat} {cap lost : Nat} {w : Mctp δ}
  {st st' : State UInt8 MsgLabel MsgKey}

/-- **One packet.** It is taken like the machine takes it, or passed over. -/
theorem Sim.behind (hsim : Sim cap w st') (hmax : w.maxMessageSize.toNat = cap)
    (hbehind : Behind st' st lost) (pkt : MctpPktbuf) :
    ∃ st'', Sim cap (mctpBusRx env w b pkt) st'' ∧
      Behind st'' (if w.accepts b pkt then machine MsgLabel.key 4 cap st (pktItem pkt) else st)
        (lost + if Refused env b w pkt then 1 else 0) := by
  cases hacc : w.accepts b pkt with
  | false =>
      obtain ⟨hist, hhanded, hrx⟩ := mctpBusRx_dropped env hacc
      have hnot : ¬ Refused env b w pkt := by
        rintro ⟨htaken, -⟩
        rw [hacc] at htaken
        cases htaken
      rw [hrx, if_neg hnot, if_neg (by decide)]
      exact ⟨st', hsim.passes (hsim.inv.passes rfl hhanded), hbehind⟩
  | true =>
      rw [if_pos rfl]
      obtain hdone | ⟨hpass, hskips, hfail⟩ := mctpBusRx_spec env hsim.inv hmax hacc
      · exact ⟨_, hsim.assembles hdone, (hbehind.both (pktItem pkt)).mono (Nat.le_add_right _ _)⟩
      · rw [if_pos ⟨hacc, hskips, hfail⟩]
        rw [hsim.asm] at hskips
        exact ⟨st', hsim.passes hpass, hbehind.skip (pktItem pkt) hskips⟩

/-- **All packets.** -/
theorem Sim.behind_run (hsim : Sim cap w st') (hmax : w.maxMessageSize.toNat = cap)
    (hbehind : Behind st' st lost) (pkts : List MctpPktbuf) :
    ∃ st'', Sim cap (rxRun env b w pkts) st'' ∧
      Behind st'' (run MsgLabel.key 4 cap st (takenItems env b w pkts))
        (lost + refusals env b w pkts) := by
  induction pkts generalizing w st st' lost with
  | nil => exact ⟨st', hsim, hbehind⟩
  | cons pkt pkts ih =>
      obtain ⟨mid, hmid, hbehind'⟩ := hsim.behind env hmax hbehind pkt
      have hmax' : (mctpBusRx env w b pkt).maxMessageSize.toNat = cap := by
        rw [(mctpBusRx_sameSetup env w b pkt).maxMessageSize, hmax]
      have hrun : run MsgLabel.key 4 cap st (takenItems env b w (pkt :: pkts))
          = run MsgLabel.key 4 cap
              (if w.accepts b pkt then machine MsgLabel.key 4 cap st (pktItem pkt) else st)
              (takenItems env b (mctpBusRx env w b pkt) pkts) := by
        rw [takenItems, run_append]
        split
        · rfl
        · rfl
      rw [hrun, rxRun, List.foldl_cons, refusals, ← Nat.add_assoc]
      exact ih hmid hmax' hbehind'

end Run

/-- Seventeen first packets, each from a source of its own, and then the last packets of the first
and of the seventeenth. -/
def crowd : List MctpPktbuf :=
  ((List.range 17).map fun n =>
    fragPkt smallBinding ⟨UInt8.ofNat (16 + n), 8, true, 1⟩ ⟨true, false, 0, [1, 2]⟩) ++
    [fragPkt smallBinding ⟨16, 8, true, 1⟩ ⟨false, true, 1, [3]⟩,
      fragPkt smallBinding ⟨32, 8, true, 1⟩ ⟨false, true, 1, [4]⟩]

/-- The second of the buffers cannot be had. -/
def secondFails : Env Nat := { everyOther with msgAlloc := fun n => n ≠ 1 }

end LibMctp
