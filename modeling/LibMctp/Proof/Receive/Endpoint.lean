import LibMctp.Proof.Receive.Outcome

/-!
# An endpoint refines the machine of assemblies

An endpoint keeps its id unless it is handed a Set Endpoint ID request that it accepts. While it
does, and while buffers and contexts can be had, the packets it is given move it as the packets
addressed to it move the machine.
-/

namespace LibMctp

open Fragment Reassembly

variable {δ : Type}

/-! ### The endpoint id -/

/-- The data of a Set Endpoint ID request that an endpoint accepts. -/
def AcceptedEid (data : List UInt8) : Prop :=
  data.length = 5 ∧ (data.getD 3 0 &&& mctpCtrlSetEidOpMask = mctpCtrlSetEidOpSet ∨
    data.getD 3 0 &&& mctpCtrlSetEidOpMask = mctpCtrlSetEidOpForce) ∧
      ¬ (data.getD 4 0 < 8 ∨ data.getD 4 0 = 0xff)

instance (data : List UInt8) : Decidable (AcceptedEid data) :=
  inferInstanceAs (Decidable (_ ∧ _ ∧ _))

/-- The message is a Set Endpoint ID request that an endpoint accepts. -/
def Message.SetsEid (msg : Message) : Prop :=
  msg.tagOwner = true ∧ (ctrlMsgHdr msg.bytes).icMsgType = mctpCtrlHdrMsgType ∧
    (ctrlMsgHdr msg.bytes).rqDgramInst &&& (mctpCtrlHdrFlagRequest ||| mctpCtrlHdrFlagDgram)
      = mctpCtrlHdrFlagRequest ∧
    (ctrlMsgHdr msg.bytes).commandCode = mctpCtrlCmdSetEndpointId ∧ AcceptedEid msg.bytes

instance (msg : Message) : Decidable msg.SetsEid := inferInstanceAs (Decidable (_ ∧ _ ∧ _ ∧ _ ∧ _))

section Eid

variable (env : Env δ)

theorem mctpCtrlSetEndpointId_refused (w : Mctp δ) (i : Fin 2) (srcEid msgTag : UInt8)
    {data : List UInt8} (h : ¬ AcceptedEid data) :
    (mctpCtrlSetEndpointId env w i srcEid msgTag data).1 = w := by
  unfold mctpCtrlSetEndpointId
  dsimp only
  split
  · rfl
  · rename_i hlen
    split
    · rfl
    · rename_i hop
      have hrefused : data.getD 4 0 < 8 ∨ data.getD 4 0 = 0xff := by
        by_contra hvalid
        exact h ⟨not_not.mp hlen, not_not.mp hop, hvalid⟩
      rw [mctpBusSetEid, if_pos hrefused]
      rfl

theorem ctrlDispatch_eid (w : Mctp δ) (i : Fin 2) (srcEid msgTag : UInt8) {data : List UInt8}
    (h : (ctrlMsgHdr data).commandCode = mctpCtrlCmdSetEndpointId → ¬ AcceptedEid data)
    (k : Fin 2) :
    ((ctrlDispatch env w i srcEid msgTag data).1.busses k).eid = (w.busses k).eid := by
  unfold ctrlDispatch
  dsimp only
  split
  · rename_i hcmd
    rw [mctpCtrlSetEndpointId_refused env w i srcEid msgTag (h hcmd)]
  · split
    · exact (mctpCtrlGetEndpointId_txOnly env w i srcEid msgTag data).eid k
    · split
      · exact (mctpCtrlGetVersion_txOnly env w i srcEid msgTag data).eid k
      · split
        · exact (mctpCtrlGetTypes_txOnly env w i srcEid msgTag data).eid k
        · rfl

theorem mctpControlHandler_eid (w : Mctp δ) (i : Fin 2) {msg : Message} (h : ¬ msg.SetsEid)
    (k : Fin 2) :
    ((mctpControlHandler env w i msg.src msg.tagOwner msg.tag msg.bytes).1.busses k).eid
      = (w.busses k).eid := by
  unfold mctpControlHandler replyError
  cases howner : msg.tagOwner with
  | false => rfl
  | true =>
      dsimp only
      split_ifs with _ _ htype _ hrequest
      · rfl
      · rfl
      · rfl
      · rfl
      · rfl
      all_goals
        have hdispatch := ctrlDispatch_eid env w i msg.src msg.tag 
          (fun hcmd haccepted => h ⟨howner, not_not.mp htype, not_not.mp hrequest, hcmd, haccepted⟩)
          k
      · exact ((sendResp_txOnly env _ _ _ _ _).eid k).trans hdispatch
      · exact hdispatch

theorem mctpRxControl_eid (w : Mctp δ) (i : Fin 2) {msg : Message} (h : ¬ msg.SetsEid) (k : Fin 2) :
    ((mctpRxControl env w i msg).1.busses k).eid = (w.busses k).eid := by
  unfold mctpRxControl
  split
  · unfold mctpCtrlHandleMsg
    split
    · split <;> rfl
    · exact mctpControlHandler_eid env w i h k
  · rfl

/-- A message other than an accepted Set Endpoint ID request leaves every endpoint id as it is. -/
theorem mctpRx_eid (w : Mctp δ) (i : Fin 2) {msg : Message} (h : ¬ msg.SetsEid) (k : Fin 2) :
    ((mctpRx env w i msg).busses k).eid = (w.busses k).eid := by
  have hdealloc : ∀ w : Mctp δ, (mctpDeallocTag w i msg.dest msg.src msg.tag).busses
      = w.busses := by
    intro w
    unfold mctpDeallocTag
    dsimp only
    split
    · rfl
    · split <;> rfl
  unfold mctpRx
  dsimp only
  split
  · split
    · unfold mctpRxEndpoint
      dsimp only
      have hcontrol : ∀ w' : Mctp δ, w'.busses = w.busses →
          ((mctpRxControl env w' i msg).1.busses k).eid = (w.busses k).eid := fun w' hw' =>
        (mctpRxControl_eid env w' i h k).trans (by rw [hw'])
      have hstart : (if !msg.tagOwner then mctpDeallocTag (w.handUp msg) i msg.dest msg.src msg.tag
          else w.handUp msg).busses = w.busses := by
        split
        · exact hdealloc _
        · rfl
      have heid := hcontrol _ hstart
      split <;> rename_i hcase <;> rw [hcase] at heid
      · exact heid
      · split
        · exact heid
        · exact heid
    · rfl
  · exact (mctpRxBridge_txOnly env i msg _ _).eid k

/-- A packet changes an endpoint id only where it completes an accepted Set Endpoint ID request. -/
theorem mctpBusRx_eid {w : Mctp δ} {b : Nat} {pkt : MctpPktbuf}
    (h : ∀ msg, (mctpBusRx env w b pkt).hist.handed = w.hist.handed ++ [msg] → ¬ msg.SetsEid)
    (k : Fin 2) :
    ((mctpBusRx env w b pkt).busses k).eid = (w.busses k).eid := by
  rcases mctpBusRx_outcome env w b pkt with hpass | ⟨i, msg, -, -, -, hup⟩
  · rw [hpass.sent.busses]
  · have hnot := h msg hup.handed
    obtain ⟨w₁, hbefore, hafter⟩ := hup.rx
    rw [hafter.sent.busses, mctpRx_eid env w₁ i hnot k, hbefore.sent.busses]

end Eid

/-! ### The simulation -/

/-- An endpoint on bus 0 with a fixed id and message size. -/
structure RxReady (b : Nat) (eid : UInt8) (cap : Nat) (w : Mctp δ) : Prop where
  bus : (w.bindings b).bus = some 0
  endpoint : w.routePolicy = .endpoint
  eid : (w.busses 0).eid = eid
  max : w.maxMessageSize.toNat = cap

/-- The contexts are the assemblies of the machine, and what was handed up is what came out of
it. -/
structure Sim (cap : Nat) (w : Mctp δ) (st : State UInt8 MsgLabel MsgKey) : Prop where
  inv : RxInv cap w
  asm : w.asm = st.asm
  handed : w.hist.handed.map Message.labelled = st.out

/-- `Sim`, where the buffers have the sizes for their keys. -/
structure SimOn (caps : MsgKey → Nat) (w : Mctp δ) (st : State UInt8 MsgLabel MsgKey) : Prop where
  inv : RxInvOn caps w
  asm : w.asm = st.asm
  handed : w.hist.handed.map Message.labelled = st.out

/-- An endpoint with id `eid` does not drop the packet on sight. -/
def pktTaken (eid : UInt8) (pkt : MctpPktbuf) : Bool :=
  decide (mctpHdrSize ≤ mctpPktbufSize pkt) && (mctpPktbufHdr pkt).src != mctpEidBroadcast &&
    mctpRxDestIsLocal { eid := eid } (mctpPktbufHdr pkt).dest

/-- What a packet is to the machine. -/
def pktItem (pkt : MctpPktbuf) : MsgLabel × Frag UInt8 := (pktLabel pkt, pktFrag pkt)

def endpointItems (eid : UInt8) (pkts : List MctpPktbuf) : List (MsgLabel × Frag UInt8) :=
  (pkts.filter (pktTaken eid)).map pktItem

section Sim

variable {env : Env δ} {b : Nat} {eid : UInt8} {cap : Nat} {w w' : Mctp δ}
  {st : State UInt8 MsgLabel MsgKey}

theorem RxReady.of_sameSetup (h : RxReady b eid cap w) (hsame : SameSetup env w w')
    (heid : (w'.busses 0).eid = (w.busses 0).eid) :
    RxReady b eid cap w' where
  bus := by rw [hsame.bindings]; exact h.bus
  endpoint := hsame.routePolicy.trans h.endpoint
  eid := heid.trans h.eid
  max := by rw [hsame.maxMessageSize]; exact h.max

theorem RxReady.accepts_eq (h : RxReady b eid cap w) (pkt : MctpPktbuf) :
    w.accepts b pkt = pktTaken eid pkt := by
  unfold Mctp.accepts pktTaken
  rw [h.bus, h.endpoint, ← h.eid]
  rfl

theorem SimOn.assembles {caps : MsgKey → Nat} (hsim : SimOn caps w st) {pkt : MctpPktbuf}
    (h : AssemblesOn caps pkt w w') :
    SimOn caps w' (machine MsgLabel.key 4 (caps (pktLabel pkt).key) st (pktItem pkt)) := by
  have hstep : rxStep (caps (pktLabel pkt).key) w pkt
      = Reassembly.step 4 (caps (pktLabel pkt).key) (st.asm (pktLabel pkt).key) (pktFrag pkt) := by
    rw [rxStep, hsim.asm]
  refine ⟨h.inv, ?_, ?_⟩
  · rw [h.asm, hstep, hsim.asm]
    rfl
  · rw [h.handed, List.map_append, hsim.handed, hstep]
    dsimp only [machine, pktItem]
    congr 1
    cases (Reassembly.step 4 (caps (pktLabel pkt).key) (st.asm (pktLabel pkt).key)
      (pktFrag pkt)).2 with
    | none => rfl
    | some bytes => rfl

theorem Sim.assembles (hsim : Sim cap w st) {pkt : MctpPktbuf} (h : Assembles cap pkt w w') :
    Sim cap w' (machine MsgLabel.key 4 cap st (pktItem pkt)) := by
  have hon : SimOn (fun _ => cap) w st := ⟨hsim.inv.on, hsim.asm, hsim.handed⟩
  have hnext := hon.assembles ⟨h.inv.on, h.asm, h.handed⟩
  exact ⟨hnext.inv.rxInv, hnext.asm, hnext.handed⟩

theorem Sim.passes (hsim : Sim cap w st) (h : Passes cap w w') : Sim cap w' st :=
  ⟨h.inv, h.asm.trans hsim.asm, by rw [h.handed]; exact hsim.handed⟩

/-- **One packet.** Where a buffer and a context can be had, the endpoint does with it what the
machine does. -/
theorem Sim.step (hsim : Sim cap w st) (hready : RxReady b eid cap w) {pkt : MctpPktbuf}
    (halloc : env.msgAlloc w.nMsgAlloc = true)
    (hfree : (pktFrag pkt).first = true → (pktFrag pkt).last = false →
      st.asm (pktLabel pkt).key = none → ¬ w.Full) :
    Sim cap (mctpBusRx env w b pkt)
      (if pktTaken eid pkt then machine MsgLabel.key 4 cap st (pktItem pkt) else st) := by
  rw [← hready.accepts_eq]
  cases hacc : w.accepts b pkt with
  | false =>
      obtain ⟨hist, hhanded, hrx⟩ := mctpBusRx_dropped env hacc
      rw [hrx, if_neg (by decide)]
      exact hsim.passes (hsim.inv.passes rfl hhanded)
  | true =>
      rw [if_pos rfl]
      obtain hdone | ⟨_, hskips, hfail⟩ := mctpBusRx_spec env hsim.inv hready.max hacc
      · exact hsim.assembles hdone
      · rw [halloc] at hfail
        obtain hfail | ⟨hfull, hlast⟩ := hfail
        · cases hfail
        · rw [hsim.asm] at hskips
          have hnone : st.asm (pktLabel pkt).key = none := by
            cases hskips.2 with
            | inl h =>
                rw [hlast] at h
                cases h
            | inr h => exact h
          exact absurd hfull (hfree hskips.1 hlast hnone)

theorem endpointItems_concat (eid : UInt8) (pkts : List MctpPktbuf) (pkt : MctpPktbuf) :
    endpointItems eid (pkts ++ [pkt])
      = if pktTaken eid pkt then endpointItems eid pkts ++ [pktItem pkt]
        else endpointItems eid pkts := by
  unfold endpointItems
  rw [List.filter_append, List.map_append]
  cases hpkt : pktTaken eid pkt <;> simp [hpkt]

end Sim

/-! ### Runs -/

/-- The packets given to one binding, one after the other. -/
def rxRun (env : Env δ) (b : Nat) (w : Mctp δ) (pkts : List MctpPktbuf) : Mctp δ :=
  pkts.foldl (fun w pkt => mctpBusRx env w b pkt) w

structure FreshEndpoint (b : Nat) (eid : UInt8) (cap : Nat) (w : Mctp δ) :
    Prop extends RxReady b eid cap w where
  free : ∀ j, (w.msgCtxs j).buf = none
  nothing : w.hist.handed = []

section Run

variable {env : Env δ} {b : Nat} {eid : UInt8} {cap : Nat} {w : Mctp δ}

theorem rxRun_concat (w : Mctp δ) (pkts : List MctpPktbuf) (pkt : MctpPktbuf) :
    rxRun env b w (pkts ++ [pkt]) = mctpBusRx env (rxRun env b w pkts) b pkt := by
  rw [rxRun, List.foldl_append]
  rfl

/-- What was handed up stays, and the contexts stay in order. -/
theorem rxRun_inv (env : Env δ) (b : Nat) (w : Mctp δ) (pkts : List MctpPktbuf) (h : RxInv cap w)
    (hmax : w.maxMessageSize.toNat = cap) :
    RxInv cap (rxRun env b w pkts) ∧ (rxRun env b w pkts).maxMessageSize.toNat = cap ∧
      w.hist.handed <+: (rxRun env b w pkts).hist.handed := by
  induction pkts using List.reverseRecOn with
  | nil => exact ⟨h, hmax, List.prefix_rfl⟩
  | append_singleton pkts pkt ih =>
      obtain ⟨hinv, hmax', hprefix⟩ := ih
      rw [rxRun_concat, (mctpBusRx_sameSetup env _ b pkt).maxMessageSize]
      obtain ⟨_, hdone⟩ | ⟨hpass, _⟩ := mctpBusRx_cases env (b := b) hinv hmax'
      · refine ⟨hdone.inv, hmax', ?_⟩
        rw [hdone.handed]
        exact hprefix.trans (List.prefix_append _ _)
      · refine ⟨hpass.inv, hmax', ?_⟩
        rw [hpass.handed]
        exact hprefix

theorem rxRun_append (w : Mctp δ) (pkts pkts' : List MctpPktbuf) :
    rxRun env b w (pkts ++ pkts') = rxRun env b (rxRun env b w pkts) pkts' :=
  List.foldl_append

theorem rxRun_handed_mono (env : Env δ) (b : Nat) {w : Mctp δ} (h : RxInv cap w)
    (hmax : w.maxMessageSize.toNat = cap) {pre pkts : List MctpPktbuf} (hpre : pre <+: pkts) :
    (rxRun env b w pre).hist.handed <+: (rxRun env b w pkts).hist.handed := by
  obtain ⟨rest, rfl⟩ := hpre
  obtain ⟨hinv, hmax', _⟩ := rxRun_inv env b w pre h hmax
  rw [rxRun_append]
  exact (rxRun_inv env b _ rest hinv hmax').2.2

/-- With no context in use and nothing handed up, the machine is at its start. -/
theorem sim_of_free (hfree : ∀ j, (w.msgCtxs j).buf = none) (hnothing : w.hist.handed = []) :
    Sim w.maxMessageSize.toNat w State.init := by
  have hkey : ∀ j, (w.msgCtxs j).key = none := fun j => MctpMsgCtx.key_of_none (hfree j)
  refine ⟨⟨?_, ?_, w.maxMessageSize.toNat_lt⟩, ?_, ?_⟩
  · intro i j k hi
    rw [hkey i] at hi
    cases hi
  · intro j k hj
    rw [hkey j] at hj
    cases hj
  · funext k
    refine asm_of_slot_none (Table.slot_eq_none.mpr fun j hj => ?_)
    rw [hkey j] at hj
    cases hj
  · rw [hnothing]
    rfl

theorem FreshEndpoint.sim (h : FreshEndpoint b eid cap w) :
    Sim cap w State.init := h.max ▸ sim_of_free h.free h.nothing

/-- **A run of packets.** While contexts can be had for the packets that need one, and the endpoint
keeps its id, it is where the machine is. Both conditions may rest on the simulation up to the
packet in question. -/
theorem rxRun_sim_of_eid {st : State UInt8 MsgLabel MsgKey} (hready : RxReady b eid cap w)
    (hsim : Sim cap w st) (halloc : ∀ n, env.msgAlloc n = true) (pkts : List MctpPktbuf)
    (hfree : ∀ pre pkt, pre ++ [pkt] <+: pkts →
      Sim cap (rxRun env b w pre) (run MsgLabel.key 4 cap st (endpointItems eid pre)) →
      (pktFrag pkt).first = true → (pktFrag pkt).last = false →
      (rxRun env b w pre).asm (pktLabel pkt).key = none → ¬ (rxRun env b w pre).Full)
    (heid : ∀ pre pkt, pre ++ [pkt] <+: pkts →
      Sim cap (rxRun env b w (pre ++ [pkt])) (run MsgLabel.key 4 cap st
        (endpointItems eid (pre ++ [pkt]))) → ((rxRun env b w pre).busses 0).eid = eid →
        ((rxRun env b w (pre ++ [pkt])).busses 0).eid = eid) :
    RxReady b eid cap (rxRun env b w pkts) ∧
      Sim cap (rxRun env b w pkts) (run MsgLabel.key 4 cap st (endpointItems eid pkts)) := by
  induction pkts using List.reverseRecOn with
  | nil => exact ⟨hready, hsim⟩
  | append_singleton pkts pkt ih =>
      have hpre : pkts <+: pkts ++ [pkt] := List.prefix_append _ _
      obtain ⟨hready', hsim'⟩ :=
        ih (fun pre pkt' h => hfree pre pkt' (h.trans hpre))
          (fun pre pkt' h => heid pre pkt' (h.trans hpre))
      have hnext : Sim cap (rxRun env b w (pkts ++ [pkt]))
          (run MsgLabel.key 4 cap st (endpointItems eid (pkts ++ [pkt]))) := by
        have hstep := hsim'.step hready' (halloc _) fun hfirst hlast hnone =>
          hfree pkts pkt List.prefix_rfl hsim' hfirst hlast (by rw [hsim'.asm]; exact hnone)
        rw [rxRun_concat, endpointItems_concat]
        cases hpkt : pktTaken eid pkt with
        | false =>
            rw [hpkt, if_neg (by decide)] at hstep
            rw [if_neg (by decide)]
            exact hstep
        | true =>
            rw [hpkt, if_pos rfl] at hstep
            rw [if_pos rfl, run_append]
            exact hstep
      refine ⟨?_, hnext⟩
      have hkept := heid pkts pkt List.prefix_rfl hnext hready'.eid
      rw [← hready'.eid, rxRun_concat] at hkept
      rw [rxRun_concat]
      exact hready'.of_sameSetup (mctpBusRx_sameSetup env _ b pkt) hkept

/-- An endpoint that is handed no accepted Set Endpoint ID request keeps its id. -/
theorem rxRun_sim {st : State UInt8 MsgLabel MsgKey} (hready : RxReady b eid cap w)
    (hsim : Sim cap w st) (halloc : ∀ n, env.msgAlloc n = true) (pkts : List MctpPktbuf)
    (hfree : ∀ pre pkt, pre ++ [pkt] <+: pkts →
      Sim cap (rxRun env b w pre) (run MsgLabel.key 4 cap st (endpointItems eid pre)) →
      (pktFrag pkt).first = true → (pktFrag pkt).last = false →
      (rxRun env b w pre).asm (pktLabel pkt).key = none → ¬ (rxRun env b w pre).Full)
    (hset : ∀ pre msgs, pre <+: pkts →
      Sim cap (rxRun env b w pre) (run MsgLabel.key 4 cap st (endpointItems eid pre)) →
      (rxRun env b w pre).hist.handed = w.hist.handed ++ msgs → ∀ msg ∈ msgs, ¬ msg.SetsEid) :
    RxReady b eid cap (rxRun env b w pkts) ∧
      Sim cap (rxRun env b w pkts) (run MsgLabel.key 4 cap st (endpointItems eid pkts)) := by
  refine rxRun_sim_of_eid hready hsim halloc pkts hfree ?_
  intro pre pkt hpre hnext heid
  obtain ⟨msgs, hmsgs⟩ := (rxRun_inv env b w pre hsim.inv hready.max).2.2
  have hnot : ∀ msg, (rxRun env b w (pre ++ [pkt])).hist.handed
    = (rxRun env b w pre).hist.handed ++ [msg] →
      ¬ msg.SetsEid := by
    intro msg hmsg
    rw [← hmsgs, List.append_assoc] at hmsg
    exact hset _ (msgs ++ [msg]) hpre hnext hmsg msg (by simp)
  rw [rxRun_concat] at hnot ⊢
  rw [mctpBusRx_eid env hnot 0]
  exact heid

/-- Whatever fails, the endpoint is where the machine is after some of the packets. -/
theorem rxRun_sim_some (env : Env δ) (b : Nat) (hfresh : FreshEndpoint b eid cap w)
    (pkts : List MctpPktbuf) :
    ∃ taken : List MctpPktbuf, taken.Sublist pkts ∧
      Sim cap (rxRun env b w pkts) (run MsgLabel.key 4 cap State.init (taken.map pktItem)) := by
  induction pkts using List.reverseRecOn with
  | nil => exact ⟨[], List.Sublist.refl _, hfresh.sim⟩
  | append_singleton pkts pkt ih =>
      obtain ⟨taken, hsub, hsim⟩ := ih
      obtain ⟨hinv, hmax, _⟩ := rxRun_inv env b w pkts hfresh.sim.inv hfresh.max
      rw [rxRun_concat]
      obtain ⟨_, hdone⟩ | ⟨hpass, _⟩ := mctpBusRx_cases env (b := b) hinv hmax
      · refine ⟨taken ++ [pkt], hsub.append (List.Sublist.refl _), ?_⟩
        rw [List.map_append, run_append]
        exact hsim.assembles hdone
      · exact ⟨taken, hsub.trans (List.sublist_append_left _ _), hsim.passes hpass⟩

end Run

end LibMctp
