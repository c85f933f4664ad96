import LibMctp.Lib.Recognize
import LibMctp.Proof.Receive.Bounds
import LibMctp.Proof.Receive.Isolation

/-!
# What a packet changes

A packet that hands up nothing changes contexts at most. Which packets change nothing at all, and
which do no more than drop a context, can be told from the state before.
-/

namespace LibMctp

open Fragment Reassembly

variable {δ : Type}

/-! ### Tags and handlers -/

/-- No tag was given out or freed, and no handler called. -/
structure Untouched (w w' : Mctp δ) : Prop where
  reqTags : w'.reqTags = w.reqTags
  tagRoundRobin : w'.tagRoundRobin = w.tagRoundRobin
  upcalls : w'.hist.upcalls = w.hist.upcalls

section Untouched

variable {env : Env δ} {w w' w'' : Mctp δ}

theorem Untouched.refl (w : Mctp δ) : Untouched w w := ⟨rfl, rfl, rfl⟩

theorem Untouched.trans (h : Untouched w w') (h' : Untouched w' w'') : Untouched w w'' :=
  ⟨h'.reqTags.trans h.reqTags, h'.tagRoundRobin.trans h.tagRoundRobin, h'.upcalls.trans h.upcalls⟩

theorem TxOnly.untouched (h : TxOnly env w w') :
    Untouched w w' := ⟨h.reqTags, h.tagRoundRobin, h.upcalls⟩

theorem untouched_setCtx (w : Mctp δ) (j : Fin 16) (ctx : MctpMsgCtx) :
    Untouched w (w.setCtx j ctx) := ⟨rfl, rfl, rfl⟩

theorem untouched_withHist (w : Mctp δ) {hist : History} (h : hist.upcalls = w.hist.upcalls) :
    Untouched w (w.withHist hist) :=
  ⟨rfl, rfl, h⟩

theorem mctpMsgCtxDrop_untouched (w : Mctp δ) (i : Fin 2) (j : Fin 16) :
    Untouched w (mctpMsgCtxDrop w i j) := by
  refine ⟨rfl, rfl, ?_⟩
  unfold mctpMsgCtxDrop
  dsimp only [Mctp.withHist]
  split <;> simp

theorem mctpMsgCtxCreate_untouched (env : Env δ) (w : Mctp δ) (src dest tag : UInt8) :
    Untouched w (mctpMsgCtxCreate env w src dest tag).1 := by
  unfold mctpMsgCtxCreate
  split
  · exact Untouched.refl w
  · have halloc := (mctpMsgAlloc_txOnly env w w.maxMessageSize.toNat (some ())).untouched
    dsimp only
    split <;> rename_i hcase <;> rw [hcase] at halloc
    · exact halloc.trans (untouched_setCtx _ _ _)
    · exact halloc.trans (untouched_setCtx _ _ _)

theorem busRxStart_untouched (w : Mctp δ) (i : Fin 2) (pkt : MctpPktbuf) (j : Fin 16) :
    Untouched w (busRxStart w i pkt j) := by
  unfold busRxStart
  dsimp only
  cases mctpMsgCtxAddPkt { w.msgCtxs j with fragmentSize := mctpPktbufSize pkt } pkt with
  | none => exact (untouched_setCtx w _ _).trans (mctpMsgCtxDrop_untouched _ i j)
  | some ctx => exact untouched_setCtx w _ _

theorem busRxSom_untouched (env : Env δ) (w : Mctp δ) (i : Fin 2) (pkt : MctpPktbuf) :
    Untouched w (busRxSom env w i pkt) := by
  unfold busRxSom
  dsimp only
  split
  · exact (untouched_setCtx w _ _).trans (busRxStart_untouched _ i pkt _)
  · have hcreate := mctpMsgCtxCreate_untouched env w (mctpPktbufHdr pkt).src
      (mctpPktbufHdr pkt).dest (hdrTag (mctpPktbufHdr pkt))
    split <;> rename_i hcase <;> rw [hcase] at hcreate
    · exact hcreate
    · exact hcreate.trans (busRxStart_untouched _ i pkt _)

theorem busRxMiddle_untouched (w : Mctp δ) (i : Fin 2) (pkt : MctpPktbuf) :
    Untouched w (busRxMiddle w i pkt) := by
  unfold busRxMiddle
  dsimp only
  split
  · exact Untouched.refl w
  · rename_i j _
    split
    · exact mctpMsgCtxDrop_untouched w i j
    · split
      · exact mctpMsgCtxDrop_untouched w i j
      · cases mctpMsgCtxAddPkt (w.msgCtxs j) pkt with
        | none => exact mctpMsgCtxDrop_untouched w i j
        | some ctx => exact untouched_setCtx w _ _

/-- A call that hands up a message shows. -/
theorem handed_ne {w₁ : Mctp δ} {i : Fin 2} {msg : Message}
    (h : w'.hist.handed = (mctpRx env w₁ i msg).hist.handed) (h₁ : w₁.hist.handed = w.hist.handed) :
    w'.hist.handed ≠ w.hist.handed := by
  rw [h, mctpRx_handed, h₁]
  simp

theorem busRxEom_untouched (i : Fin 2) (pkt : MctpPktbuf)
    (h : (busRxEom env w i pkt).hist.handed = w.hist.handed) :
    Untouched w (busRxEom env w i pkt) := by
  unfold busRxEom at h ⊢
  dsimp only at h ⊢
  cases hlookup : mctpMsgCtxLookup w (mctpPktbufHdr pkt).src (mctpPktbufHdr pkt).dest
    (hdrTag (mctpPktbufHdr pkt)) with
  | none => exact Untouched.refl w
  | some j =>
      rw [hlookup] at h
      dsimp only at h ⊢
      have hdrop := mctpMsgCtxDrop_untouched w i j
      by_cases hseq : ((w.msgCtxs j).lastSeq + 1) % 4 ≠ hdrSeq (mctpPktbufHdr pkt)
      · rw [if_pos hseq]
        exact hdrop
      · rw [if_neg hseq] at h ⊢
        by_cases hsize : mctpPktbufSize pkt > (w.msgCtxs j).fragmentSize
        · rw [if_pos hsize]
          exact hdrop
        · rw [if_neg hsize] at h ⊢
          cases hadd : mctpMsgCtxAddPkt (w.msgCtxs j) pkt with
          | none => exact hdrop
          | some ctx =>
              rw [hadd] at h
              exact absurd h (handed_ne (mctpMsgCtxDrop_handed _ i j) rfl)

theorem busRxSingle_untouched (i : Fin 2) (pkt : MctpPktbuf)
    (h : (busRxSingle env w i pkt).hist.handed = w.hist.handed) :
    Untouched w (busRxSingle env w i pkt) := by
  have hdup :=
    mctpMsgDup_txOnly env w
    (mctpPktbufData pkt (subSize (subSize pkt.end_ pkt.mctpHdrOff) mctpHdrSize)) (some ())
  unfold busRxSingle at h ⊢
  dsimp only at h ⊢
  cases hcase : mctpMsgDup env w
    (mctpPktbufData pkt (subSize (subSize pkt.end_ pkt.mctpHdrOff) mctpHdrSize)) (some ()) with
  | mk w₁ copy =>
      rw [hcase] at hdup h
      cases copy with
      | none => exact hdup.untouched
      | some p =>
          dsimp only at h
          exact absurd h (handed_ne (mctpMsgFree_txOnly env _ p (some ())).handed hdup.handed)

theorem busRxSwitch_untouched (i : Fin 2) (pkt : MctpPktbuf)
    (h : (busRxSwitch env w i pkt).hist.handed = w.hist.handed) :
    Untouched w (busRxSwitch env w i pkt) := by
  unfold busRxSwitch at h ⊢
  dsimp only at h ⊢
  by_cases hboth : hdrFlags (mctpPktbufHdr pkt) = mctpHdrFlagSom ||| mctpHdrFlagEom
  · rw [if_pos hboth] at h ⊢
    exact busRxSingle_untouched i pkt h
  · rw [if_neg hboth] at h ⊢
    by_cases hsom : hdrFlags (mctpPktbufHdr pkt) = mctpHdrFlagSom
    · rw [if_pos hsom]
      exact busRxSom_untouched env w i pkt
    · rw [if_neg hsom] at h ⊢
      by_cases heom : hdrFlags (mctpPktbufHdr pkt) = mctpHdrFlagEom
      · rw [if_pos heom] at h ⊢
        exact busRxEom_untouched i pkt h
      · rw [if_neg heom]
        exact busRxMiddle_untouched w i pkt

/-- **A packet that hands up nothing leaves tags and handlers alone.** -/
theorem mctpBusRx_untouched (env : Env δ) (w : Mctp δ) (b : Nat) (pkt : MctpPktbuf)
    (h : (mctpBusRx env w b pkt).hist.handed = w.hist.handed) :
    Untouched w (mctpBusRx env w b pkt) := by
  have hseen : Untouched w (w.seen b pkt) := untouched_withHist w (by simp)
  obtain ⟨-, ⟨-, hrx⟩ | hrx | hrx⟩ | ⟨i, -, -, hrx⟩ := mctpBusRx_cases_sight env w b pkt <;>
    rw [hrx] at h ⊢
  · exact untouched_withHist w rfl
  · exact Untouched.refl w
  · exact hseen
  · rw [← seen_handed w b pkt] at h
    exact hseen.trans (busRxSwitch_untouched i pkt h)

end Untouched

/-! ### Contexts and messages -/

/-- The packet changes no context and hands up nothing: it is dropped on sight, finds no context to
be had, or is idle to the assembly of its key. -/
def Mctp.Ignores (w : Mctp δ) (b : Nat) (pkt : MctpPktbuf) : Prop :=
  w.accepts b pkt = false ∨
    ((pktFrag pkt).first = true ∧ (pktFrag pkt).last = false ∧ w.asm (pktLabel pkt).key = none ∧
      w.Full) ∨
    Idle (w.limit (pktLabel pkt).key) (w.asm (pktLabel pkt).key) (pktFrag pkt)

/-- The packet has the context of its key dropped. -/
def Mctp.Drops (w : Mctp δ) (b : Nat) (pkt : MctpPktbuf) : Prop :=
  w.accepts b pkt = true ∧ ∃ p, w.asm (pktLabel pkt).key = some p ∧
    Breaks 4 (w.limit (pktLabel pkt).key) p (pktFrag pkt)

/-- What the packet does to the assembly of its key. -/
structure Moves (pkt : MctpPktbuf) (w w' : Mctp δ) : Prop where
  asm : w'.asm
    = Function.update w.asm (pktLabel pkt).key (rxStep (w.limit (pktLabel pkt).key) w pkt).1
  handed : w'.hist.handed
    = w.hist.handed ++ ((rxStep (w.limit (pktLabel pkt).key) w pkt).2.map
      (pktLabel pkt).message).toList

section Effects

variable {env : Env δ} {w : Mctp δ} {b : Nat} {pkt pkt' : MctpPktbuf}

theorem TableSound.slot_none (h : TableSound w) {k : MsgKey} (hasm : w.asm k = none) (j : Fin 16) :
    (w.msgCtxs j).key ≠ some k := by
  intro hj
  rw [asm_of_slot h.distinct hj] at hasm
  cases hasm

theorem busRx_moves (h : TableSound w) (halloc : env.msgAlloc w.nMsgAlloc = true)
    (hacc : w.accepts b pkt = true) :
    Moves pkt w (mctpBusRx env w b pkt) ∨
      ((mctpBusRx env w b pkt).asm = w.asm ∧ (mctpBusRx env w b pkt).hist.handed = w.hist.handed) ∧
        w.Ignores b pkt := by
  obtain hdone | ⟨hpass, hskips, hfail⟩ :=
    mctpBusRx_spec_on env h.rxInvOn (fun _ hnone => (limit_of_asm_none hnone).symm) hacc
  · exact .inl ⟨hdone.asm, hdone.handed⟩
  · rw [halloc] at hfail
    obtain hfail | ⟨hfull, hlast⟩ := hfail
    · cases hfail
    · obtain ⟨hfirst, hboth | hnone⟩ := hskips
      · rw [hlast] at hboth
        cases hboth
      · exact .inr ⟨⟨hpass.asm, hpass.handed⟩, .inr (.inl ⟨hfirst, hlast, hnone, hfull⟩)⟩

theorem rxStep_of_idle
    (h : Idle (w.limit (pktLabel pkt).key) (w.asm (pktLabel pkt).key) (pktFrag pkt)) :
    rxStep (w.limit (pktLabel pkt).key) w pkt = (w.asm (pktLabel pkt).key, none) :=
  (step_eq_self_iff (by decide : 2 ≤ 4)).mpr h

/-- **A packet that is ignored changes nothing.** -/
theorem busRx_of_ignores (h : TableSound w) (halloc : env.msgAlloc w.nMsgAlloc = true)
    (hign : w.Ignores b pkt) :
    (mctpBusRx env w b pkt).asm = w.asm ∧ (mctpBusRx env w b pkt).hist.handed = w.hist.handed := by
  obtain hacc | ⟨hfirst, hlast, hnone, hfull⟩ | hidle := hign
  · obtain ⟨hist, hhanded, hrx⟩ := mctpBusRx_dropped env hacc
    rw [hrx]
    exact ⟨rfl, hhanded⟩
  · obtain ⟨hctxs, hhanded⟩ := mctpBusRx_full env pkt w b (flags_of_pktFrag hfirst hlast)
      (h.slot_none hnone) hfull
    exact ⟨asm_congr hctxs, hhanded⟩
  · cases hacc : w.accepts b pkt with
    | false =>
        obtain ⟨hist, hhanded, hrx⟩ := mctpBusRx_dropped env hacc
        rw [hrx]
        exact ⟨rfl, hhanded⟩
    | true =>
        obtain hmoves | ⟨hsame, -⟩ := busRx_moves h halloc hacc
        · refine ⟨?_, ?_⟩
          · rw [hmoves.asm, rxStep_of_idle hidle, Function.update_eq_self]
          · rw [hmoves.handed, rxStep_of_idle hidle]
            exact List.append_nil _
        · exact hsame

/-- And one that changes nothing was ignored. -/
theorem ignores_of_busRx (h : TableSound w) (halloc : env.msgAlloc w.nMsgAlloc = true)
    (hasm : (mctpBusRx env w b pkt).asm = w.asm)
    (hhanded : (mctpBusRx env w b pkt).hist.handed = w.hist.handed) :
    w.Ignores b pkt := by
  cases hacc : w.accepts b pkt with
  | false => exact .inl hacc
  | true =>
      obtain hmoves | ⟨-, hign⟩ := busRx_moves h halloc hacc
      · refine .inr (.inr ((step_eq_self_iff (by decide : 2 ≤ 4)).mp (Prod.ext ?_ ?_)))
        · have hkey := congrFun (hmoves.asm.symm.trans hasm) (pktLabel pkt).key
          rw [Function.update_self] at hkey
          exact hkey
        · have hout := hmoves.handed.symm.trans hhanded
          have hnone : (rxStep (w.limit (pktLabel pkt).key) w pkt).2 = none := by simpa using hout
          exact hnone
      · exact hign

/-- **A packet that has a context dropped does no more.** -/
theorem busRx_of_drops (h : TableSound w) (halloc : env.msgAlloc w.nMsgAlloc = true)
    (hdrops : w.Drops b pkt) :
    (mctpBusRx env w b pkt).asm = Function.update w.asm (pktLabel pkt).key none ∧
      (mctpBusRx env w b pkt).hist.handed = w.hist.handed := by
  obtain ⟨hacc, p, hp, hbreaks⟩ := hdrops
  have hstep : rxStep (w.limit (pktLabel pkt).key) w pkt = (none, none) := by
    rw [rxStep, hp]
    exact step_eq_none_iff.mpr hbreaks
  obtain hmoves | ⟨⟨hasm, hhanded⟩, hign⟩ := busRx_moves h halloc hacc
  · refine ⟨?_, ?_⟩
    · rw [hmoves.asm, hstep]
    · rw [hmoves.handed, hstep]
      exact List.append_nil _
  · -- a packet for which there is no context drops none
    obtain hnot | ⟨-, -, hnone, -⟩ | hidle := hign
    · rw [hacc] at hnot
      cases hnot
    · rw [hp] at hnone
      cases hnone
    · have hself := (rxStep_of_idle hidle).symm.trans hstep
      rw [hp] at hself
      cases hself

/-- A context that is gone, with nothing handed up, was dropped for a packet of its key. -/
theorem drops_of_busRx (h : TableSound w) (halloc : env.msgAlloc w.nMsgAlloc = true) {k : MsgKey}
    {p : Partial UInt8} (hp : w.asm k = some p) (hgone : (mctpBusRx env w b pkt).asm k = none)
    (hhanded : (mctpBusRx env w b pkt).hist.handed = w.hist.handed) :
    w.Drops b pkt ∧ (pktLabel pkt).key = k := by
  have hnot : ¬ w.Ignores b pkt := by
    intro hign
    rw [(busRx_of_ignores h halloc hign).1, hp] at hgone
    cases hgone
  have hacc : w.accepts b pkt = true := by
    rw [← Bool.not_eq_false]
    exact fun hacc => hnot (.inl hacc)
  obtain hmoves | ⟨-, hign⟩ := busRx_moves h halloc hacc
  · have hkey : (pktLabel pkt).key = k := by
      by_contra hne
      rw [hmoves.asm, Function.update_of_ne (Ne.symm hne), hp] at hgone
      cases hgone
    rw [hmoves.asm, ← hkey, Function.update_self] at hgone
    have hout : (rxStep (w.limit (pktLabel pkt).key) w pkt).2 = none := by
      have hsame := hmoves.handed.symm.trans hhanded
      simpa using hsame
    have hstep : rxStep (w.limit (pktLabel pkt).key) w pkt = (none, none) := Prod.ext hgone hout
    rw [← hkey] at hp
    rw [rxStep, hp] at hstep
    exact ⟨⟨hacc, p, hp, step_eq_none_iff.mp hstep⟩, hkey⟩
  · exact absurd hign hnot

/-- What a context holds after a packet is what it held, or the packet, or both. -/
theorem busRx_data (h : TableSound w) (halloc : env.msgAlloc w.nMsgAlloc = true) {k : MsgKey}
    {p' : Partial UInt8} (hp' : (mctpBusRx env w b pkt).asm k = some p') :
    w.asm k = some p' ∨ p'.data = (pktFrag pkt).payload ∨
      ∃ p, w.asm k = some p ∧ p'.data = p.data ++ (pktFrag pkt).payload := by
  by_cases hign : w.Ignores b pkt
  · rw [(busRx_of_ignores h halloc hign).1] at hp'
    exact .inl hp'
  · have hacc : w.accepts b pkt = true := by
      rw [← Bool.not_eq_false]
      exact fun hacc => hign (.inl hacc)
    obtain hmoves | ⟨-, hign'⟩ := busRx_moves h halloc hacc
    · rw [hmoves.asm] at hp'
      by_cases hkey : k = (pktLabel pkt).key
      · rw [hkey, Function.update_self] at hp'
        rw [hkey]
        obtain hsame | ⟨-, hdata⟩ | hdata := (step_data 4 _ _ _).1 p' hp'
        · exact .inl hsame
        · exact .inr (.inl hdata)
        · exact .inr (.inr hdata)
      · rw [Function.update_of_ne hkey] at hp'
        exact .inl hp'
    · exact absurd hign' hign

end Effects

/-! ### The stack as a whole -/

/-- Nothing was sent, handed up or called, and no tag changed. -/
structure Unheard (w w' : Mctp δ) : Prop extends Untouched w w' where
  busses : w'.busses = w.busses
  busLog : w'.busLog = w.busLog
  handed : w'.hist.handed = w.hist.handed

/-- The contexts in use, the tags, what was sent and what was delivered are the same. -/
structure SameStack (w w' : Mctp δ) : Prop extends Unheard w w' where
  contexts : w'.asm = w.asm

section Stack

variable {env : Env δ} {w w' w'' : Mctp δ} {b : Nat} {pkt : MctpPktbuf}

theorem Unheard.symm (h : Unheard w w') : Unheard w' w :=
  ⟨⟨h.reqTags.symm, h.tagRoundRobin.symm, h.upcalls.symm⟩, h.busses.symm,
    h.busLog.symm, h.handed.symm⟩

theorem Unheard.trans (h : Unheard w w') (h' : Unheard w' w'') : Unheard w w'' :=
  ⟨h.toUntouched.trans h'.toUntouched, h'.busses.trans h.busses, h'.busLog.trans h.busLog,
    h'.handed.trans h.handed⟩

/-- **A packet that hands up nothing is unheard.** -/
theorem mctpBusRx_unheard (h : (mctpBusRx env w b pkt).hist.handed = w.hist.handed) :
    Unheard w (mctpBusRx env w b pkt) := by
  have hpass : Passive env w (mctpBusRx env w b pkt) := by
    obtain hpass | ⟨i, msg, -, -, -, hup⟩ := mctpBusRx_outcome env w b pkt
    · exact hpass
    · rw [hup.handed] at h
      exact absurd h (by simp)
  exact ⟨mctpBusRx_untouched env w b pkt h, hpass.sent.busses, hpass.sent.busLog, h⟩

end Stack

end LibMctp
