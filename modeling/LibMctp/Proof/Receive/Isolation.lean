import LibMctp.Proof.Receive.Endpoint
import LibMctp.Proof.Transmit.Queue

/-!
# Streams do not disturb each other

All streams share one table of contexts. A packet leaves the contexts of the other keys as they are,
and while contexts can be had, what is handed up for a key is what its own packets alone would hand
up.
-/

namespace LibMctp

open Fragment Reassembly

variable {δ : Type}

/-! ### The contexts of other keys -/

/-- Every context in use with another key is as it was. -/
def OthersKept (k : MsgKey) (w w' : Mctp δ) : Prop :=
  ∀ j k', (w.msgCtxs j).key = some k' → k' ≠ k → w'.msgCtxs j = w.msgCtxs j

section Others

variable {k : MsgKey} {w w' : Mctp δ} {j : Fin 16}

theorem othersKept_of_eq (h : w'.msgCtxs = w.msgCtxs) : OthersKept k w w' := by
  intro j k' _ _
  rw [h]

/-- Only the slot `j` was written, which was free or the key's own. -/
theorem othersKept_of_slot (h : ∀ i ≠ j, w'.msgCtxs i = w.msgCtxs i)
    (hold : (w.msgCtxs j).key = some k ∨ (w.msgCtxs j).buf = none) : OthersKept k w w' := by
  intro i k' hi hne
  refine h i ?_
  rintro rfl
  cases hold with
  | inl hkey =>
      rw [hkey] at hi
      exact hne (Option.some.inj hi).symm
  | inr hfree =>
      rw [MctpMsgCtx.key_of_none hfree] at hi
      cases hi

theorem setCtx_msgCtxs_of_ne (w : Mctp δ) (ctx : MctpMsgCtx) {i : Fin 16} (hij : i ≠ j) :
    (w.setCtx j ctx).msgCtxs i = w.msgCtxs i :=
  Function.update_of_ne hij _ _

theorem mctpMsgCtxDrop_msgCtxs_of_ne (w : Mctp δ) (n : Fin 2) {i : Fin 16} (hij : i ≠ j) :
    (mctpMsgCtxDrop w n j).msgCtxs i = w.msgCtxs i :=
  Function.update_of_ne hij _ _

theorem busRxStart_msgCtxs_of_ne (w : Mctp δ) (n : Fin 2) (pkt : MctpPktbuf) {i : Fin 16}
    (hij : i ≠ j) :
    (busRxStart w n pkt j).msgCtxs i = w.msgCtxs i := by
  unfold busRxStart
  dsimp only
  cases mctpMsgCtxAddPkt { w.msgCtxs j with fragmentSize := mctpPktbufSize pkt } pkt with
  | none => exact (mctpMsgCtxDrop_msgCtxs_of_ne _ n hij).trans (setCtx_msgCtxs_of_ne w _ hij)
  | some ctx => exact setCtx_msgCtxs_of_ne w _ hij

variable (env : Env δ) (i : Fin 2) (pkt : MctpPktbuf)

theorem busRxSingle_msgCtxs (w : Mctp δ) : (busRxSingle env w i pkt).msgCtxs = w.msgCtxs := by
  unfold busRxSingle
  dsimp only
  have hdup := mctpMsgDup_txOnly env w
    (mctpPktbufData pkt (subSize (subSize pkt.end_ pkt.mctpHdrOff) mctpHdrSize)) (some ())
  split <;> rename_i hcase <;> rw [hcase] at hdup
  · exact hdup.msgCtxs
  · exact (mctpMsgFree_txOnly env _ _ _).msgCtxs.trans
      ((mctpRx_msgCtxs env _ i _).trans hdup.msgCtxs)

theorem busRxSom_othersKept (w : Mctp δ) :
    OthersKept (pktLabel pkt).key w (busRxSom env w i pkt) := by
  unfold busRxSom
  dsimp only
  rw [lookup_pkt]
  split
  · rename_i j hslot
    refine othersKept_of_slot (fun k hk => ?_) (.inl (Table.slot_some hslot))
    exact (busRxStart_msgCtxs_of_ne _ i pkt hk).trans (setCtx_msgCtxs_of_ne w _ hk)
  · split <;> rename_i hcreate
    · obtain ⟨rfl, _⟩ | ⟨_, _, j, ctx, hfree, hctxs, _⟩ := mctpMsgCtxCreate_none env hcreate
      · exact othersKept_of_eq rfl
      · refine othersKept_of_slot (fun k hk => ?_) (.inr hfree)
        rw [hctxs]
        exact Function.update_of_ne hk _ _
    · rename_i w₁ j
      obtain ⟨hfree, _, ctx, hctxs, _⟩ := mctpMsgCtxCreate_some env hcreate
      refine othersKept_of_slot (fun k hk => ?_) (.inr hfree)
      rw [busRxStart_msgCtxs_of_ne w₁ i pkt hk, hctxs]
      exact Function.update_of_ne hk _ _

theorem busRxEom_othersKept (w : Mctp δ) :
    OthersKept (pktLabel pkt).key w (busRxEom env w i pkt) := by
  unfold busRxEom
  dsimp only
  rw [lookup_pkt]
  split
  · exact othersKept_of_eq rfl
  · rename_i j hslot
    have hkey := Table.slot_some hslot
    have hdrop := othersKept_of_slot (fun k => mctpMsgCtxDrop_msgCtxs_of_ne w i) (.inl hkey)
    split
    · exact hdrop
    · split
      · exact hdrop
      · cases mctpMsgCtxAddPkt (w.msgCtxs j) pkt with
        | none => exact hdrop
        | some ctx =>
            refine othersKept_of_slot (fun k hk => (mctpMsgCtxDrop_msgCtxs_of_ne _ i hk).trans ?_)
              (.inl hkey)
            rw [mctpRx_msgCtxs]
            exact setCtx_msgCtxs_of_ne w ctx hk

theorem busRxMiddle_othersKept (w : Mctp δ) :
    OthersKept (pktLabel pkt).key w (busRxMiddle w i pkt) := by
  unfold busRxMiddle
  dsimp only
  rw [lookup_pkt]
  split
  · exact othersKept_of_eq rfl
  · rename_i j hslot
    have hkey := Table.slot_some hslot
    have hdrop := othersKept_of_slot (fun k => mctpMsgCtxDrop_msgCtxs_of_ne w i) (.inl hkey)
    split
    · exact hdrop
    · split
      · exact hdrop
      · cases mctpMsgCtxAddPkt (w.msgCtxs j) pkt with
        | none => exact hdrop
        | some ctx => exact othersKept_of_slot (fun k => setCtx_msgCtxs_of_ne w _) (.inl hkey)

/-- **A packet leaves the contexts of other keys alone**, in any state. -/
theorem mctpBusRx_othersKept (w : Mctp δ) (b : Nat) :
    OthersKept (pktLabel pkt).key w (mctpBusRx env w b pkt) := by
  obtain ⟨-, ⟨-, hrx⟩ | hrx | hrx⟩ | ⟨i, -, -, hrx⟩ := mctpBusRx_cases_sight env w b pkt <;>
    rw [hrx]
  · exact othersKept_of_eq rfl
  · exact othersKept_of_eq rfl
  · exact othersKept_of_eq rfl
  · unfold busRxSwitch
    dsimp only
    split_ifs
    · exact othersKept_of_eq (busRxSingle_msgCtxs env i pkt _)
    · exact busRxSom_othersKept env i pkt (w.seen b pkt)
    · exact busRxEom_othersKept env i pkt (w.seen b pkt)
    · exact busRxMiddle_othersKept i pkt (w.seen b pkt)

/-- A first packet that finds no context of its key and none free changes nothing. -/
theorem mctpBusRx_full (w : Mctp δ) (b : Nat)
    (hflags : hdrFlags (mctpPktbufHdr pkt) = mctpHdrFlagSom)
    (hnew : ∀ j, (w.msgCtxs j).key ≠ some (pktLabel pkt).key) (hfull : w.Full) :
    (mctpBusRx env w b pkt).msgCtxs = w.msgCtxs ∧
      (mctpBusRx env w b pkt).hist.handed = w.hist.handed := by
  have hsom : ∀ i, busRxSom env (w.seen b pkt) i pkt = w.seen b pkt := by
    intro i
    have hslot : Table.slot MctpMsgCtx.key (w.seen b pkt).msgCtxs (pktLabel pkt).key = none :=
      Table.slot_eq_none.mpr hnew
    have hnone : Table.first (fun ctx : MctpMsgCtx => ctx.buf.isNone) (w.seen b pkt).msgCtxs
        = none := by
      rw [Table.first_eq_none]
      intro j
      simpa [Mctp.seen, Mctp.withHist] using hfull j
    unfold busRxSom
    dsimp only
    rw [lookup_pkt, hslot, mctpMsgCtxCreate, hnone]
  obtain ⟨-, ⟨-, hrx⟩ | hrx | hrx⟩ | ⟨i, -, -, hrx⟩ := mctpBusRx_cases_sight env w b pkt <;>
    rw [hrx]
  · exact ⟨rfl, rfl⟩
  · exact ⟨rfl, rfl⟩
  · exact ⟨rfl, seen_handed w b pkt⟩
  · unfold busRxSwitch
    dsimp only
    rw [hflags, if_neg som_ne_single, if_pos rfl, hsom]
    exact ⟨rfl, seen_handed w b pkt⟩

end Others

/-! ### What is handed up for a key -/

/-- No first packet of the run that needs a new context finds every context in use. -/
def FindsContext (env : Env δ) (b : Nat) : Mctp δ → List MctpPktbuf → Prop
  | _, [] => True
  | w, pkt :: pkts =>
    (hdrFlags (mctpPktbufHdr pkt) = mctpHdrFlagSom →
      (∀ j, (w.msgCtxs j).key ≠ some (pktLabel pkt).key) → ¬ w.Full) ∧
      FindsContext env b (mctpBusRx env w b pkt) pkts

section Streams

variable {env : Env δ} {b : Nat} {eid : UInt8} {cap : Nat} {w : Mctp δ} {k : MsgKey}

theorem FindsContext.at_packet {pre pkts : List MctpPktbuf} {pkt : MctpPktbuf}
    (h : FindsContext env b w pkts) (hpre : pre ++ [pkt] <+: pkts)
    (hflags : hdrFlags (mctpPktbufHdr pkt) = mctpHdrFlagSom)
    (hnew : ∀ j, ((rxRun env b w pre).msgCtxs j).key ≠ some (pktLabel pkt).key) :
    ¬ (rxRun env b w pre).Full := by
  obtain ⟨rest, rfl⟩ := hpre
  induction pre generalizing w with
  | nil => exact h.1 hflags hnew
  | cons pkt' pre ih => exact ih hnew h.2

theorem flags_of_pktFrag {pkt : MctpPktbuf} (hfirst : (pktFrag pkt).first = true)
    (hlast : (pktFrag pkt).last = false) :
    hdrFlags (mctpPktbufHdr pkt) = mctpHdrFlagSom := by
  have hnot : ¬ hdrFlags (mctpPktbufHdr pkt) = mctpHdrFlagSom ||| mctpHdrFlagEom := by
    intro hboth
    rw [pktFrag_single hboth] at hlast
    cases hlast
  by_contra hsom
  by_cases heom : hdrFlags (mctpPktbufHdr pkt) = mctpHdrFlagEom
  · rw [pktFrag_eom heom] at hfirst
    cases hfirst
  · rw [pktFrag_middle hnot hsom heom] at hfirst
    cases hfirst

theorem RxInv.slot_none (h : RxInv cap w) (hasm : w.asm k = none) (j : Fin 16) :
    (w.msgCtxs j).key ≠ some k := by
  intro hj
  rw [h.asm_of_slot hj] at hasm
  cases hasm

theorem RxInv.not_full (h : RxInv cap w) (hasm : ∀ k, w.asm k = none) : ¬ w.Full := by
  intro hfull
  obtain ⟨buf, hbuf⟩ := Option.isSome_iff_exists.mp (hfull 0)
  have hkey := MctpMsgCtx.key_of_buf hbuf
  exact h.slot_none (hasm _) 0 hkey

/-- While the packets that need a context find one. -/
theorem rxRun_sim_of_findsContext {st : State UInt8 MsgLabel MsgKey} (hready : RxReady b eid cap w)
    (hsim : Sim cap w st) (halloc : ∀ n, env.msgAlloc n = true) {pkts : List MctpPktbuf}
    (hfree : FindsContext env b w pkts)
    (hset : ∀ msg ∈ (rxRun env b w pkts).hist.handed.drop w.hist.handed.length, ¬ msg.SetsEid) :
    Sim cap (rxRun env b w pkts) (run MsgLabel.key 4 cap st (endpointItems eid pkts)) := by
  refine (rxRun_sim hready hsim halloc pkts ?_ ?_).2
  · intro pre pkt hpre hsim' hfirst hlast hnone
    exact hfree.at_packet hpre (flags_of_pktFrag hfirst hlast) (hsim'.inv.slot_none hnone)
  · intro pre msgs hpre _ hmsgs msg hmsg
    obtain ⟨rest, hrest⟩ := rxRun_handed_mono env b hsim.inv hready.max hpre
    rw [hmsgs, List.append_assoc] at hrest
    rw [← hrest, List.drop_left] at hset
    exact hset msg (List.mem_append_left _ hmsg)

/-- The packets of one key. -/
def ofKey (k : MsgKey) (pkts : List MctpPktbuf) : List MctpPktbuf :=
  pkts.filter fun pkt => (pktLabel pkt).key = k

theorem endpointItems_ofKey (eid : UInt8) (k : MsgKey) (pkts : List MctpPktbuf) :
    endpointItems eid (ofKey k pkts) = (endpointItems eid pkts).filter fun item =>
      item.1.key = k := by
  unfold endpointItems ofKey
  rw [List.filter_map, List.filter_filter, List.filter_filter]
  congr 1
  refine List.filter_congr fun pkt _ => ?_
  exact Bool.and_comm _ _

theorem key_of_mem_endpointItems {pkts : List MctpPktbuf}
    (hpkts : ∀ pkt ∈ pkts, (pktLabel pkt).key = k) :
    ∀ item ∈ endpointItems eid pkts, item.1.key = k := by
  intro item hitem
  obtain ⟨pkt, hpkt, rfl⟩ := List.mem_map.mp hitem
  exact hpkts pkt (List.mem_of_mem_filter hpkt)

theorem endpointItems_mono (eid : UInt8) {pre pkts : List MctpPktbuf} (h : pre <+: pkts) :
    endpointItems eid pre <+: endpointItems eid pkts :=
  (h.filter _).map _

/-- Packets of one key alone never run out of contexts. -/
theorem Sim.not_full_ofKey {pre : List MctpPktbuf}
    (hsim : Sim cap w (run MsgLabel.key 4 cap State.init (endpointItems eid pre)))
    (hpre : ∀ pkt ∈ pre, (pktLabel pkt).key = k) (hnone : w.asm k = none) : ¬ w.Full := by
  refine hsim.inv.not_full fun k' => ?_
  by_cases hk : k' = k
  · rw [hk]
    exact hnone
  · rw [hsim.asm]
    refine asm_run_of_ne _ _ fun item hitem => ?_
    rw [key_of_mem_endpointItems hpre item hitem]
    exact Ne.symm hk

theorem rxRun_sim_ofKey (hfresh : FreshEndpoint b eid cap w) (halloc : ∀ n, env.msgAlloc n = true)
    {pkts : List MctpPktbuf} (hpkts : ∀ pkt ∈ pkts, (pktLabel pkt).key = k)
    (hset : ∀ o ∈ (run MsgLabel.key 4 cap State.init (endpointItems eid pkts)).out,
      ¬ (o.1.message o.2).SetsEid) :
    Sim cap (rxRun env b w pkts) (run MsgLabel.key 4 cap State.init (endpointItems eid pkts)) := by
  refine (rxRun_sim hfresh.toRxReady hfresh.sim halloc pkts ?_ ?_).2
  · intro pre pkt hpre hsim _ _ hnone
    have hmem : ∀ pkt' ∈ pre ++ [pkt], (pktLabel pkt').key = k :=
      fun pkt' h => hpkts pkt' (hpre.subset h)
    rw [hmem pkt (by simp)] at hnone
    exact hsim.not_full_ofKey (fun pkt' h => hmem pkt' (List.mem_append_left _ h)) hnone
  · intro pre msgs hpre hsim hmsgs msg hmsg
    have hout : msg.labelled ∈ (run MsgLabel.key 4 cap State.init (endpointItems eid pre)).out := by
      rw [← hsim.handed, hmsgs]
      exact List.mem_map_of_mem (List.mem_append_right _ hmsg)
    obtain ⟨rest, hrest⟩ := endpointItems_mono eid hpre
    rw [← hrest] at hset
    exact hset _ ((out_run_mono _ _ rest).subset hout)

end Streams

/-- **Isolation.** A packet leaves the contexts in use of other keys as they are, and a first packet
with no context to be had changes none and hands up nothing. Over a run whose first packets find
contexts, the messages handed up for a key are those that its packets alone hand up on a fresh
endpoint. -/
theorem rxRun_isolated (env : Env δ) :
    (∀ (w : Mctp δ) b pkt,
      (∀ j k, (w.msgCtxs j).key = some k → k ≠ (pktLabel pkt).key →
        (mctpBusRx env w b pkt).msgCtxs j = w.msgCtxs j) ∧
      (hdrFlags (mctpPktbufHdr pkt) = mctpHdrFlagSom →
        (∀ j, (w.msgCtxs j).key ≠ some (pktLabel pkt).key) → w.Full →
        (mctpBusRx env w b pkt).msgCtxs = w.msgCtxs ∧
          (mctpBusRx env w b pkt).hist.handed = w.hist.handed)) ∧
    ∀ b eid cap (w alone : Mctp δ) pkts, FreshEndpoint b eid cap w → FreshEndpoint b eid cap alone →
      (∀ n, env.msgAlloc n = true) → FindsContext env b w pkts →
      (∀ msg ∈ (rxRun env b w pkts).hist.handed, ¬ msg.SetsEid) →
      ∀ k, ((rxRun env b w pkts).hist.handed.filter fun msg => msg.label.key = k)
        = (rxRun env b alone (ofKey k pkts)).hist.handed := by
  refine ⟨fun w b pkt => ⟨mctpBusRx_othersKept env pkt w b, mctpBusRx_full env pkt w b⟩, ?_⟩
  intro b eid cap w alone pkts hfresh hfresh' halloc hfree hset k
  have hsim := rxRun_sim_of_findsContext hfresh.toRxReady hfresh.sim halloc hfree
    (by rw [hfresh.nothing]; exact hset)
  have hkeys : ∀ item ∈ endpointItems eid (ofKey k pkts), item.1.key = k :=
    key_of_mem_endpointItems fun pkt hpkt => by simpa using List.of_mem_filter hpkt
  have hout : (run MsgLabel.key 4 cap State.init (endpointItems eid pkts)).out.filter
    (fun o => o.1.key = k)
      = (run MsgLabel.key 4 cap State.init (endpointItems eid (ofKey k pkts))).out := by
    rw [(run_filter k State.init State.init (endpointItems eid pkts) rfl rfl).2,
      ← endpointItems_ofKey]
    refine List.filter_eq_self.mpr fun o ho => decide_eq_true ?_
    exact label_of_mem_out (P := fun l => l.key = k) _ hkeys o ho
  rw [← hsim.handed, List.filter_map] at hout
  have hsim' : Sim cap (rxRun env b alone (ofKey k pkts))
      (run MsgLabel.key 4 cap State.init (endpointItems eid (ofKey k pkts))) := by
    refine rxRun_sim_ofKey (k := k) hfresh' halloc
      (fun pkt hpkt => by simpa using List.of_mem_filter hpkt) ?_
    intro o ho
    rw [← hout] at ho
    obtain ⟨msg, hmsg, rfl⟩ := List.mem_map.mp ho
    exact hset msg (List.mem_of_mem_filter hmsg)
  refine Message.labelled_injective.list_map ?_
  rw [hsim'.handed, ← hout]
  rfl

/-- An endpoint with id 8 that takes messages of up to 1024 bytes. -/
def smallEndpoint : Mctp Nat :=
  mctpSetMaxMessageSize (mctpRegisterBus everyOther (mctpSetup (fun _ => smallBinding) 0 0) 0 8).1
    1024

theorem smallEndpoint_fresh : FreshEndpoint 0 8 1024 smallEndpoint :=
  ⟨⟨rfl, rfl, rfl, rfl⟩, fun _ => rfl, rfl⟩

/-- Two messages of two packets each, one from 9 and one from 10. -/
def twoStreams : List MctpPktbuf :=
  [fragPkt smallBinding ⟨9, 8, true, 1⟩ ⟨true, false, 0, [1, 2]⟩,
    fragPkt smallBinding ⟨10, 8, true, 1⟩ ⟨true, false, 3, [5]⟩,
    fragPkt smallBinding ⟨9, 8, true, 1⟩ ⟨false, true, 1, [3]⟩, fragPkt smallBinding
    ⟨10, 8, true, 1⟩ ⟨false, true, 0, [6]⟩]

theorem twoStreams_findsContext : FindsContext everyOther 0 smallEndpoint twoStreams := by
  refine ⟨fun _ _ => ?_, fun _ _ => ?_, fun _ _ => ?_, fun _ _ => ?_, trivial⟩ <;>
    exact fun hfull => by cases hfull 15

theorem rxRun_isolated_two_streams :
    ((rxRun everyOther 0 smallEndpoint twoStreams).hist.handed.filter fun msg =>
      msg.label.key = ⟨9, 8, 1⟩)
      = (rxRun everyOther 0 smallEndpoint (ofKey ⟨9, 8, 1⟩ twoStreams)).hist.handed ∧
    (rxRun everyOther 0 smallEndpoint (ofKey ⟨9, 8, 1⟩ twoStreams)).hist.handed
      = [⟨9, 8, true, 1, [1, 2, 3]⟩] := by
  refine ⟨?_, by decide⟩
  exact (rxRun_isolated everyOther).2 0 8 1024 smallEndpoint smallEndpoint twoStreams
    smallEndpoint_fresh smallEndpoint_fresh (fun _ => rfl) twoStreams_findsContext (by decide) _

end LibMctp
