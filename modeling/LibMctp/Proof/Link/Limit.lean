import LibMctp.Proof.Instance.Reached
import LibMctp.Proof.Link.Wire
import LibMctp.Proof.Receive.Bounds

/-!
# The size limit of a message

A message of several packets is limited by the buffer of its context, which has the size limit in
force when the context was made and keeps it when the context starts over. A message of one packet
is not limited at all. So what reaches the receiver's handlers depends on how a message was cut and
on what came before it.
-/

namespace LibMctp

open Fragment Reassembly

variable {δ : Type}

/-! ### The packets of one message -/

section Packets

variable (env : Env δ) {caps : MsgKey → Nat} {w : Mctp δ} {st : State UInt8 MsgLabel MsgKey}
  {b : Nat} {pkt : MctpPktbuf}

theorem SimOn.step (hsim : SimOn caps w st) (hacc : w.accepts b pkt = true)
    (hfirst : (pktFrag pkt).first = true → env.msgAlloc w.nMsgAlloc = true ∧
      (w.asm (pktLabel pkt).key = none → w.maxMessageSize.toNat = caps (pktLabel pkt).key ∧
        ¬ w.Full)) :
    SimOn caps (mctpBusRx env w b pkt)
      (machine MsgLabel.key 4 (caps (pktLabel pkt).key) st (pktItem pkt)) := by
  obtain hdone | ⟨_, hskips, hfail⟩ :=
    mctpBusRx_spec_on env hsim.inv (fun h hnone => ((hfirst h).2 hnone).1) hacc
  · exact hsim.assembles hdone
  · obtain ⟨halloc, hnew⟩ := hfirst hskips.1
    rw [halloc] at hfail
    obtain hfail | ⟨hfull, hlast⟩ := hfail
    · cases hfail
    · obtain hboth | hnone := hskips.2
      · rw [hlast] at hboth
        cases hboth
      · exact absurd hfull (hnew hnone).2

/-- The endpoint takes packets of this addressing on binding `b`. -/
def Mctp.Receives (w : Mctp δ) (b : Nat) (l : MsgLabel) : Prop :=
  ∃ i, (w.bindings b).bus = some i ∧ l.src ≠ mctpEidBroadcast ∧
    (w.routePolicy = .endpoint → mctpRxDestIsLocal (w.busses i) l.dest = true)

theorem Passive.receives {env : Env δ} {w' : Mctp δ} {l : MsgLabel} (h : Passive env w w')
    (hw : w.Receives b l) : w'.Receives b l := by
  obtain ⟨i, hbus, hsrc, hlocal⟩ := hw
  refine ⟨i, ?_, hsrc, ?_⟩
  · rw [h.setup.bindings]
    exact hbus
  · rw [h.setup.routePolicy, h.sent.busses]
    exact hlocal

/-- A packet that ends no message hands up nothing, and sends nothing. -/
theorem SimOn.passive {cap : Nat} (hsim : SimOn caps w st)
    (hnext : SimOn caps (mctpBusRx env w b pkt) (machine MsgLabel.key 4 cap st (pktItem pkt)))
    (hlast : (pktFrag pkt).last = false) :
    Passive env w (mctpBusRx env w b pkt) := by
  obtain hpass | ⟨i, msg, -, -, -, hup⟩ := mctpBusRx_outcome env w b pkt
  · exact hpass
  · have hout : (machine MsgLabel.key 4 cap st (pktItem pkt)).out = st.out := by
      dsimp only [machine, pktItem]
      rw [step_of_not_last hlast]
      exact List.append_nil _
    have hlen := congrArg List.length (hnext.handed.trans (hout.trans hsim.handed.symm))
    rw [hup.handed] at hlen
    simp at hlen

section Message

variable {sender : MctpBinding} {l : MsgLabel} (hchunk : 0 < sender.chunk) (htag : l.tag.toNat < 8)

include hchunk htag

theorem fragPkt_of_mem_cut {first : Bool} {s : Nat} {xs : List UInt8} {f : Frag UInt8}
    (hf : f ∈ cut 4 sender.chunk first s xs) (hw : w.Receives b l) :
    w.accepts b (fragPkt sender l f) = true ∧ pktItem (fragPkt sender l f) = (l, f) := by
  have hpayload := payload_le_of_mem_cut hchunk hf
  have hseq := seq_lt_of_mem_cut (by decide) hf
  have hfits := sender.fits
  have hroom : sender.pktHeader + mctpHdrSize + f.payload.length < 2 ^ 64 := by
    unfold MctpBinding.chunk at hchunk hpayload
    omega
  obtain ⟨i, hbus, hsrc, hlocal⟩ := hw
  refine ⟨?_, pktItem_fragPkt htag hseq hroom⟩
  rw [Mctp.accepts_iff hbus, mctpPktbufSize_fragPkt hroom, mctpPktbufHdr_fragPkt]
  exact ⟨Nat.le_add_right _ _, hsrc, hlocal⟩

/-- One packet of a message. Unless it is the last, the endpoint goes on to take the packets of the
message. -/
theorem SimOn.fragment (env : Env δ) {first : Bool} {s : Nat} {xs : List UInt8} {f : Frag UInt8}
    (hsim : SimOn caps w st) (hw : w.Receives b l) (hf : f ∈ cut 4 sender.chunk first s xs)
    (hfirst : f.first = true → env.msgAlloc w.nMsgAlloc = true ∧
      (w.asm l.key = none → w.maxMessageSize.toNat = caps l.key ∧ ¬ w.Full)) :
    SimOn caps (mctpBusRx env w b (fragPkt sender l f))
      (machine MsgLabel.key 4 (caps l.key) st (l, f)) ∧
      (f.last = false → (mctpBusRx env w b (fragPkt sender l f)).Receives b l) := by
  obtain ⟨hacc, hitem⟩ := fragPkt_of_mem_cut hchunk htag hf hw
  obtain ⟨hlabel, hfrag⟩ := Prod.mk.inj hitem
  have hnext := hsim.step env hacc (by rw [hlabel, hfrag]; exact hfirst)
  refine ⟨?_, fun hlast => (hsim.passive env hnext (by rw [hfrag]; exact hlast)).receives hw⟩
  rw [hlabel, hitem] at hnext
  exact hnext

theorem SimOn.rest (env : Env δ) (xs : List UInt8) :
    ∀ (s : Nat) (w : Mctp δ) (st : State UInt8 MsgLabel MsgKey), SimOn caps w st →
    w.Receives b l →
    SimOn caps (rxRun env b w ((cut 4 sender.chunk false s xs).map (fragPkt sender l)))
      (run MsgLabel.key 4 (caps l.key) st ((cut 4 sender.chunk false s xs).map (Prod.mk l))) := by
  induction xs using chunk_induction hchunk with
  | hlast xs hle =>
      intro s w st hsim hw
      have hcut := cut_of_le (m := 4) hle false s
      rw [hcut]
      exact (hsim.fragment hchunk htag env hw (hcut ▸ List.mem_cons_self) fun h => by cases h).1
  | hmore xs hlt ih =>
      intro s w st hsim hw
      have hcut := cut_of_lt (m := 4) hchunk hlt false s
      obtain ⟨hnext, hstays⟩ := hsim.fragment hchunk htag env hw (hcut ▸ List.mem_cons_self)
        fun h => by cases h
      rw [hcut]
      exact ih (s + 1) _ _ hnext (hstays rfl)

/-- **A message arrives whole.** The endpoint does with its packets what the machine does whose
capacity is the limit for the key. -/
theorem SimOn.message (env : Env δ) (hsim : SimOn caps w st) (hw : w.Receives b l) (s : Nat)
    (xs : List UInt8) (halloc : env.msgAlloc w.nMsgAlloc = true)
    (hnew : w.asm l.key = none → w.maxMessageSize.toNat = caps l.key ∧ ¬ w.Full) :
    SimOn caps (rxRun env b w ((cut 4 sender.chunk true s xs).map (fragPkt sender l)))
      (run MsgLabel.key 4 (caps l.key) st ((cut 4 sender.chunk true s xs).map (Prod.mk l))) := by
  by_cases hle : xs.length ≤ sender.chunk
  · have hcut := cut_of_le (m := 4) hle true s
    rw [hcut]
    exact (hsim.fragment hchunk htag env hw (hcut ▸ List.mem_cons_self) fun _ => ⟨halloc, hnew⟩).1
  · have hcut := cut_of_lt (m := 4) hchunk (Nat.lt_of_not_le hle) true s
    obtain ⟨hnext, hstays⟩ := hsim.fragment hchunk htag env hw (hcut ▸ List.mem_cons_self) fun _ =>
      ⟨halloc, hnew⟩
    rw [hcut]
    exact SimOn.rest hchunk htag env (xs.drop sender.chunk) (s + 1) _ _ hnext (hstays rfl)

end Message

end Packets

/-! ### The limit -/

/-- The message reaches the handlers if and only if it is within the size limit. -/
def Limited (env : Env δ) (b : Nat) (w : Mctp δ) (sender : MctpBinding) (s : Nat) (msg : Message) :
    Prop :=
  (rxRun env b w (msgPackets sender s [msg])).hist.handed = w.hist.handed ++ [msg] ↔
    msg.bytes.length ≤ w.maxMessageSize.toNat

/-- A message of one packet is within the size limit, and for a longer one a context of its key, if
there is any, was made when the limit was the same as far as this message goes. -/
structure LimitAgrees (w : Mctp δ) (sender : MctpBinding) (msg : Message) : Prop where
  single : msg.bytes.length ≤ sender.chunk → msg.bytes.length ≤ w.maxMessageSize.toNat
  reused : sender.chunk < msg.bytes.length → ∀ j, (w.msgCtxs j).key = some msg.label.key →
    (msg.bytes.length ≤ (w.msgCtxs j).bufAllocSize ↔ msg.bytes.length ≤ w.maxMessageSize.toNat)

section Limited

variable {env : Env δ} {b : Nat} {w : Mctp δ} {sender : MctpBinding} {msg : Message}

theorem TableSound.handed_message (h : TableSound w) (hchunk : 0 < sender.chunk)
    (htag : msg.tag.toNat < 8) (s : Nat) (hw : w.Receives b msg.label)
    (halloc : env.msgAlloc w.nMsgAlloc = true)
    (havailable : ¬ w.Full ∨ ∃ j, (w.msgCtxs j).key = some msg.label.key) :
    (rxRun env b w (msgPackets sender s [msg])).hist.handed
      = w.hist.handed ++
        if msg.bytes.length ≤ sender.chunk ∨ msg.bytes.length ≤ w.limit msg.label.key then [msg]
        else [] := by
  have hnew : w.asm msg.label.key = none → w.maxMessageSize.toNat = w.limit msg.label.key ∧
      ¬ w.Full := by
    intro hnone
    refine ⟨(limit_of_asm_none hnone).symm, ?_⟩
    obtain hfree | ⟨j, hj⟩ := havailable
    · exact hfree
    · rw [asm_of_slot h.distinct hj] at hnone
      cases hnone
  have hsim : SimOn w.limit w ⟨w.asm, w.hist.handed.map Message.labelled⟩ := ⟨h.rxInvOn, rfl, rfl⟩
  have hdone := (hsim.message hchunk htag env hw s msg.bytes halloc hnew).handed
  rw [out_run_cut hchunk] at hdone
  have hpkts : msgPackets sender s [msg]
      = (cut 4 sender.chunk true s msg.bytes).map (fragPkt sender msg.label) := by
    have hconcat := msgPackets_concat sender s [] msg
    exact hconcat
  refine Message.labelled_injective.list_map ?_
  rw [hpkts, hdone, List.map_append]
  congr 1
  split <;> rfl

theorem limited_iff (h : TableSound w) (hchunk : 0 < sender.chunk) (htag : msg.tag.toNat < 8)
    (s : Nat) (hw : w.Receives b msg.label) (halloc : env.msgAlloc w.nMsgAlloc = true)
    (havailable : ¬ w.Full ∨ ∃ j, (w.msgCtxs j).key = some msg.label.key) :
    Limited env b w sender s msg ↔ LimitAgrees w sender msg := by
  have hup : (rxRun env b w (msgPackets sender s [msg])).hist.handed = w.hist.handed ++ [msg] ↔
      msg.bytes.length ≤ sender.chunk ∨ msg.bytes.length ≤ w.limit msg.label.key := by
    rw [h.handed_message hchunk htag s hw halloc havailable, List.append_cancel_left_eq]
    split
    · rename_i hyes
      exact ⟨fun _ => hyes, fun _ => rfl⟩
    · rename_i hno
      exact ⟨fun hnil => absurd hnil (by simp), fun hyes => absurd hyes hno⟩
  unfold Limited
  rw [hup]
  constructor
  · intro hiff
    refine ⟨fun hsingle => hiff.mp (.inl hsingle), fun hlong j hj => ?_⟩
    rw [← limit_of_slot h.distinct hj, ← hiff]
    exact ⟨.inr, fun hor => hor.resolve_left (by omega)⟩
  · intro hagrees
    by_cases hsingle : msg.bytes.length ≤ sender.chunk
    · exact ⟨fun _ => hagrees.single hsingle, fun _ => .inl hsingle⟩
    · have hlimit : msg.bytes.length ≤ w.limit msg.label.key ↔
          msg.bytes.length ≤ w.maxMessageSize.toNat := by
        cases hslot : Table.slot MctpMsgCtx.key w.msgCtxs msg.label.key with
        | none => rw [limit_of_asm_none (asm_of_slot_none hslot)]
        | some j =>
            have hj := Table.slot_some hslot
            rw [limit_of_slot h.distinct hj]
            exact hagrees.reused (by omega) j hj
      rw [← hlimit]
      exact ⟨fun hor => hor.resolve_left hsingle, .inr⟩

end Limited

/-- **When the size limit is what decides.** -/
theorem endpointRun_limited_iff (env : Env δ) (bindings : Nat → MctpBinding) (now : Nat) (dev : δ)
    (b : Nat) (eid : UInt8) (ops : List EndpointOp) {w : Mctp δ}
    (hw : endpointRun env bindings now dev b eid ops = w)
    (hreg : Registers env bindings now dev b eid) (sender : MctpBinding)
    (hsize : mctpPacketSize mctpBtu ≤ sender.pktSize) (s : Nat) (msg : Message)
    (htag : msg.tag.toNat < 8) (hsrc : msg.src ≠ mctpEidBroadcast)
    (hdest : mctpRxDestIsLocal (w.busses 0) msg.dest = true)
    (halloc : env.msgAlloc w.nMsgAlloc = true)
    (havailable : ¬ w.Full ∨ ∃ j, (w.msgCtxs j).key = some msg.label.key) :
    Limited env b w sender s msg ↔ LimitAgrees w sender msg := by
  have hinv := hreg.endpointInv ops
  have hsound := endpointRun_tableSound env bindings now dev b eid ops
  rw [hw] at hinv hsound
  have hchunk : 0 < sender.chunk := by
    dsimp only [mctpPacketSize, mctpBtu, mctpHdrSize] at hsize
    unfold MctpBinding.chunk mctpHdrSize
    omega
  have hbus : (w.bindings b).bus = some 0 := by rw [hinv.linked.eq]
  exact limited_iff hsound hchunk htag s ⟨0, hbus, hsrc, fun _ => hdest⟩ halloc havailable

/-- A message of two packets from EID 8 to EID 9. -/
def longMessage : Message := ⟨8, 9, true, 0, List.replicate 65 7⟩

def leftoverOps (messageSize : UInt64) : List EndpointOp :=
  [.setMaxMessageSize messageSize, .busRx (oneByte 0x88)]

theorem endpointRun_limited_iff_leftover :
    ((endpointRun plainEnv (fun _ => smallBinding) 0 () 0 9 (leftoverOps 100)).msgCtxs 0).key
      = some longMessage.label.key ∧
      Limited plainEnv 0 (endpointRun plainEnv (fun _ => smallBinding) 0 () 0 9 (leftoverOps 100))
        smallBinding 0 longMessage := by
  refine ⟨by decide, ?_⟩
  refine (endpointRun_limited_iff plainEnv (fun _ => smallBinding) 0 () 0 9 (leftoverOps 100) rfl
    ⟨fun _ => rfl, by decide⟩
    smallBinding (by decide) 0 longMessage (by decide) (by decide) (by decide) rfl
    (.inr ⟨0, by decide⟩)).mpr ⟨?_, ?_⟩
  · decide
  · decide

/-- A message of one packet passes a limit of 0, and one of two packets does not fit a context that
was made when the limit was 1. -/
theorem endpointRun_not_limited :
    Registers plainEnv (fun _ => smallBinding) 0 () 0 9 ∧
      ¬ Limited plainEnv 0
        (endpointRun plainEnv (fun _ => smallBinding) 0 () 0 9 [.setMaxMessageSize 0])
        smallBinding 0
        ⟨8, 9, true, 0, [7]⟩ ∧
      ¬ Limited plainEnv 0
        (endpointRun plainEnv (fun _ => smallBinding) 0 () 0 9
          (leftoverOps 1 ++ [.setMaxMessageSize mctpMaxMessageSize]))
        smallBinding 0 longMessage := by
  refine ⟨⟨fun _ => rfl, by decide⟩, ?_, ?_⟩
  · rw [limited_iff (endpointRun_tableSound _ _ _ _ _ _ _) (by decide) (by decide) 0
      ⟨0, rfl, by decide, fun _ => rfl⟩ rfl (.inl fun hfull => absurd (hfull 0) (by decide))]
    exact fun h => absurd (h.single (by decide)) (by decide)
  · rw [limited_iff (endpointRun_tableSound _ _ _ _ _ _ _) (by decide) (by decide) 0
      ⟨0, rfl, by decide, fun _ => rfl⟩ rfl (.inr ⟨0, by decide⟩)]
    exact fun h => absurd (h.reused (by decide) 0 (by decide)) (by decide)

end LibMctp
