import LibMctp.Lib.Recognize
import LibMctp.Proof.Instance.Linkage
import LibMctp.Proof.Receive.Isolation

/-!
# The runs of packets that make a message

Of the packets of one key, those that make a message are a first packet and the packets after it up
to a last one, in sequence, all of one size but the last, and within the size limit. Nothing else is
handed up.
-/

namespace LibMctp

open Fragment Reassembly

variable {δ : Type}

/-- What follows the header of a packet. -/
def pktPayload (pkt : MctpPktbuf) : List UInt8 :=
  mctpPktbufData pkt (mctpPktbufSize pkt - mctpHdrSize)

/-- The packets from the first to the last of a message. -/
structure FragmentRun (cap : Nat) (p₀ : MctpPktbuf) (ps : List MctpPktbuf) (q : MctpPktbuf) :
    Prop where
  first : hdrFlags (mctpPktbufHdr p₀) = mctpHdrFlagSom
  middle : ∀ p ∈ ps, hdrFlags (mctpPktbufHdr p) = 0
  seq : (p₀ :: ps ++ [q]).IsChain fun p p' =>
    (hdrSeq (mctpPktbufHdr p) + 1) % 4 = hdrSeq (mctpPktbufHdr p')
  size : ∀ p ∈ ps, mctpPktbufSize p = mctpPktbufSize p₀
  size_last : mctpPktbufSize q ≤ mctpPktbufSize p₀
  total : ((p₀ :: ps ++ [q]).map fun p => mctpPktbufSize p - mctpHdrSize).sum ≤ cap

/-- A packet of the key `k` that is not a message of its own. -/
structure PacketOf (k : MsgKey) (pkt : MctpPktbuf) : Prop where
  key : (pktLabel pkt).key = k
  size : mctpHdrSize ≤ mctpPktbufSize pkt
  several : hdrFlags (mctpPktbufHdr pkt) ≠ mctpHdrFlagSom ||| mctpHdrFlagEom

section Packet

variable {k : MsgKey} {pkt : MctpPktbuf}

theorem PacketOf.payload (h : PacketOf k pkt) : (pktFrag pkt).payload = pktPayload pkt := by
  have hlen := subSize_of_le h.size (subSize_lt pkt.end_ pkt.start)
  dsimp only [pktFrag]
  rw [if_neg h.several, hlen]
  rfl

theorem length_pktPayload (pkt : MctpPktbuf) :
    (pktPayload pkt).length = mctpPktbufSize pkt - mctpHdrSize :=
  length_mctpPktbufData _ _

theorem PacketOf.first (h : PacketOf k pkt) :
    (pktFrag pkt).first = true ↔ hdrFlags (mctpPktbufHdr pkt) = mctpHdrFlagSom := by
  simp [pktFrag, h.several]

theorem PacketOf.last (h : PacketOf k pkt) :
    (pktFrag pkt).last = true ↔ hdrFlags (mctpPktbufHdr pkt) = mctpHdrFlagEom := by
  simp [pktFrag, h.several]

theorem PacketOf.not_single (h : PacketOf k pkt) :
    ¬ ((pktFrag pkt).first = true ∧ (pktFrag pkt).last = true) := by
  rw [h.first, h.last]
  rintro ⟨hsom, heom⟩
  rw [hsom] at heom
  exact absurd heom (by decide)

private theorem flags_cases : ∀ flags : Fin 256,
    let flags := UInt8.ofNat flags.val &&& (mctpHdrFlagSom ||| mctpHdrFlagEom)
    flags = 0 ∨ flags = mctpHdrFlagSom ∨ flags = mctpHdrFlagEom ∨
    flags = mctpHdrFlagSom ||| mctpHdrFlagEom := by
  decide +kernel

theorem PacketOf.middle (h : PacketOf k pkt) :
    (pktFrag pkt).first = false ∧ (pktFrag pkt).last = false ↔
      hdrFlags (mctpPktbufHdr pkt) = 0 := by
  have hcases := flags_cases ⟨(mctpPktbufHdr pkt).flagsSeqTag.toNat, UInt8.toNat_lt _⟩
  dsimp only at hcases
  rw [UInt8.ofNat_toNat] at hcases
  rw [← Bool.not_eq_true, ← Bool.not_eq_true, h.first, h.last]
  constructor
  · rintro ⟨hsom, heom⟩
    exact hcases.resolve_right (not_or.mpr ⟨hsom, not_or.mpr ⟨heom, h.several⟩⟩)
  · intro hzero
    rw [hzero]
    exact ⟨by decide, by decide⟩

end Packet

section Run

variable {k : MsgKey} {cap : Nat} {p₀ q : MctpPktbuf} {ps : List MctpPktbuf}

theorem PacketOf.size_eq {pkt pkt' : MctpPktbuf} (h : PacketOf k pkt) (h' : PacketOf k pkt') :
    (pktFrag pkt).payload.length = (pktFrag pkt').payload.length ↔
      mctpPktbufSize pkt = mctpPktbufSize pkt' := by
  have hsize := h.size
  have hsize' := h'.size
  rw [h.payload, h'.payload, length_pktPayload, length_pktPayload]
  omega

theorem PacketOf.size_le {pkt pkt' : MctpPktbuf} (h : PacketOf k pkt) (h' : PacketOf k pkt') :
    (pktFrag pkt).payload.length ≤ (pktFrag pkt').payload.length ↔
      mctpPktbufSize pkt ≤ mctpPktbufSize pkt' := by
  have hsize := h.size
  have hsize' := h'.size
  rw [h.payload, h'.payload, length_pktPayload, length_pktPayload]
  omega

theorem payloads_pktFrag {pkts : List MctpPktbuf} (h : ∀ pkt ∈ pkts, PacketOf k pkt) :
    payloads (pkts.map pktFrag) = (pkts.map pktPayload).flatten := by
  rw [payloads, List.map_map]
  congr 1
  exact List.map_congr_left fun pkt hpkt => (h pkt hpkt).payload

/-- A run of packets is what the machine takes for a message. -/
theorem fragmentRun_iff (h : ∀ pkt ∈ p₀ :: ps ++ [q], PacketOf k pkt)
    (heom : hdrFlags (mctpPktbufHdr q) = mctpHdrFlagEom) :
    FragmentRun cap p₀ ps q ↔ Whole 4 cap (pktFrag p₀) (ps.map pktFrag) (pktFrag q) := by
  have hp₀ : PacketOf k p₀ := h p₀ (by simp)
  have hps : ∀ p ∈ ps, PacketOf k p := fun p hp => h p (by simp [hp])
  have hq : PacketOf k q := h q (by simp)
  have hmap : pktFrag p₀ :: ps.map pktFrag ++ [pktFrag q] = (p₀ :: ps ++ [q]).map pktFrag := by simp
  have hchain : (pktFrag p₀ :: ps.map pktFrag ++ [pktFrag q]).IsChain
    (fun f f' => (f.seq + 1) % 4 = f'.seq) ↔
      (p₀ :: ps ++ [q]).IsChain fun p p' =>
        (hdrSeq (mctpPktbufHdr p) + 1) % 4 = hdrSeq (mctpPktbufHdr p') := by
    rw [hmap, List.isChain_map]
    simp only [seq_next_iff]
    rfl
  have hsum : ((pktFrag p₀ :: ps.map pktFrag ++ [pktFrag q]).map fun f => f.payload.length).sum
      = ((p₀ :: ps ++ [q]).map fun p => mctpPktbufSize p - mctpHdrSize).sum := by
    rw [hmap, List.map_map]
    congr 1
    refine List.map_congr_left fun pkt hpkt => ?_
    rw [← length_pktPayload, ← (h pkt hpkt).payload]
    rfl
  constructor
  · intro hrun
    refine ⟨⟨hp₀.first.mpr hrun.first, ?_⟩, ?_, ⟨?_, hq.last.mpr heom⟩, hchain.mpr hrun.seq, ?_,
      (hq.size_le hp₀).mpr hrun.size_last, hsum ▸ hrun.total⟩
    · rw [← Bool.not_eq_true]
      exact fun hlast => hp₀.not_single ⟨hp₀.first.mpr hrun.first, hlast⟩
    · intro f hf
      obtain ⟨p, hp, rfl⟩ := List.mem_map.mp hf
      exact (hps p hp).middle.mpr (hrun.middle p hp)
    · rw [← Bool.not_eq_true]
      exact fun hfirst => hq.not_single ⟨hfirst, hq.last.mpr heom⟩
    · intro f hf
      obtain ⟨p, hp, rfl⟩ := List.mem_map.mp hf
      exact ((hps p hp).size_eq hp₀).mpr (hrun.size p hp)
  · intro hwhole
    refine ⟨hp₀.first.mp hwhole.first.1, ?_, hchain.mp hwhole.seq, ?_,
      (hq.size_le hp₀).mp hwhole.size_last, hsum ▸ hwhole.fits⟩
    · exact fun p hp => (hps p hp).middle.mp (hwhole.middle _ (List.mem_map_of_mem hp))
    · exact fun p hp => ((hps p hp).size_eq hp₀).mp (hwhole.size _ (List.mem_map_of_mem hp))

/-- What a packet hands up after others of its key. -/
theorem step_packets_iff (cap : Nat) {pkts : List MctpPktbuf}
    (h : ∀ pkt ∈ pkts ++ [q], PacketOf k pkt) (heom : hdrFlags (mctpPktbufHdr q) = mctpHdrFlagEom)
    (bytes : List UInt8) :
    (step 4 cap (assemble 4 cap (pkts.map pktFrag)) (pktFrag q)).2 = some bytes ↔
      ∃ pre p₀ ps, pkts = pre ++ p₀ :: ps ∧ FragmentRun cap p₀ ps q ∧
        bytes = ((p₀ :: ps ++ [q]).map pktPayload).flatten := by
  have hq : PacketOf k q := h q (by simp)
  have hsingle : ∀ f ∈ pkts.map pktFrag, ¬ (f.first = true ∧ f.last = true) := by
    intro f hf
    obtain ⟨pkt, hpkt, rfl⟩ := List.mem_map.mp hf
    exact (h pkt (List.mem_append_left _ hpkt)).not_single
  have hlast : (pktFrag q).first = false ∧ (pktFrag q).last = true := by
    rw [pktFrag_eom heom]
    exact ⟨rfl, rfl⟩
  rw [step_assemble_iff hsingle hlast]
  have hmem : ∀ {pre p₀ ps}, pkts = pre ++ p₀ :: ps → ∀ pkt ∈ p₀ :: ps ++ [q], PacketOf k pkt := by
    intro pre p₀ ps hpkts pkt hpkt
    refine h pkt ?_
    rw [hpkts, List.append_assoc]
    exact List.mem_append_right _ hpkt
  constructor
  · rintro ⟨pre, f₀, mids, hfs, hwhole, rfl⟩
    obtain ⟨pre', rest, hpkts, rfl, hrest⟩ := List.map_eq_append_iff.mp hfs
    obtain ⟨p₀, ps, rfl, rfl, rfl⟩ := List.map_eq_cons_iff.mp hrest
    refine ⟨pre', p₀, ps, hpkts, (fragmentRun_iff (hmem hpkts) heom).mpr hwhole, ?_⟩
    rw [← payloads_pktFrag (hmem hpkts)]
    simp
  · rintro ⟨pre, p₀, ps, hpkts, hrun, rfl⟩
    refine ⟨pre.map pktFrag, pktFrag p₀, ps.map pktFrag, ?_,
      (fragmentRun_iff (hmem hpkts) heom).mp hrun, ?_⟩
    · rw [hpkts, List.map_append, List.map_cons]
    · rw [← payloads_pktFrag (hmem hpkts)]
      simp

end Run

/-! ### An endpoint that receives one key -/

section Endpoint

variable {env : Env δ} {b : Nat} {eid : UInt8} {cap : Nat} {w : Mctp δ} {k : MsgKey}
  {pkts : List MctpPktbuf} {q : MctpPktbuf}

theorem PacketOf.taken {pkt : MctpPktbuf} (h : PacketOf k pkt) (hsrc : k.src ≠ mctpEidBroadcast)
    (hdest : mctpRxDestIsLocal { eid := eid } k.dest = true) : pktTaken eid pkt = true := by
  obtain ⟨rfl⟩ := h.key
  have hsize := h.size
  dsimp only [pktLabel, MsgLabel.key] at hsrc hdest
  simp [pktTaken, hsize, hsrc, hdest]

theorem endpointItems_packetOf (h : ∀ pkt ∈ pkts, PacketOf k pkt) (hsrc : k.src ≠ mctpEidBroadcast)
    (hdest : mctpRxDestIsLocal { eid := eid } k.dest = true) :
    endpointItems eid pkts = pkts.map pktItem := by
  rw [endpointItems, List.filter_eq_self.mpr fun pkt hpkt => (h pkt hpkt).taken hsrc hdest]

/-- One more packet of the key, after others that left the endpoint id as it was. -/
theorem rxRun_packetOf (hfresh : FreshEndpoint b eid cap w) (halloc : ∀ n, env.msgAlloc n = true)
    (hsrc : k.src ≠ mctpEidBroadcast) (hdest : mctpRxDestIsLocal { eid := eid } k.dest = true)
    (hpkts : ∀ pkt ∈ pkts ++ [q], PacketOf k pkt)
    (heid : ∀ pre, pre <+: pkts → ((rxRun env b w pre).busses 0).eid = eid) :
    (rxRun env b w (pkts ++ [q])).hist.handed
      = (rxRun env b w pkts).hist.handed ++
        ((step 4 cap (assemble 4 cap (pkts.map pktFrag)) (pktFrag q)).2.map
          (pktLabel q).message).toList := by
  have hq : PacketOf k q := hpkts q (by simp)
  have hbefore : ∀ pkt ∈ pkts, PacketOf k pkt :=
    fun pkt hpkt => hpkts pkt (List.mem_append_left _ hpkt)
  obtain ⟨hready, hsim⟩ := rxRun_sim_of_eid hfresh.toRxReady hfresh.sim halloc pkts
    (fun pre pkt hpre hsim _ _ hnone => by
      have hmem : ∀ pkt' ∈ pre ++ [pkt], (pktLabel pkt').key = k :=
        fun pkt' h => (hbefore pkt' (hpre.subset h)).key
      rw [hmem pkt (by simp)] at hnone
      exact hsim.not_full_ofKey (fun pkt' h => hmem pkt' (List.mem_append_left _ h)) hnone)
    fun pre pkt hpre _ _ => heid _ hpre
  have hasm : (run MsgLabel.key 4 cap State.init (endpointItems eid pkts)).asm k
      = assemble 4 cap (pkts.map pktFrag) := by
    rw [asm_run_of_key (key_of_mem_endpointItems fun pkt hpkt => (hbefore pkt hpkt).key),
      endpointItems_packetOf hbefore hsrc hdest, List.map_map]
    rfl
  have hnext := hsim.step hready (halloc _) fun _ _ hnone => by
    rw [hq.key, ← hsim.asm] at hnone
    exact hsim.not_full_ofKey (fun pkt hpkt => (hbefore pkt hpkt).key) hnone
  rw [hq.taken hsrc hdest, if_pos rfl, ← rxRun_concat] at hnext
  have hout := hnext.handed
  dsimp only [machine, pktItem] at hout
  rw [hq.key, hasm, ← hsim.handed] at hout
  refine Message.labelled_injective.list_map (hout.trans ?_)
  rw [List.map_append]
  congr 1
  cases (step 4 cap (assemble 4 cap (pkts.map pktFrag)) (pktFrag q)).2 with
  | none => rfl
  | some bytes => rfl

/-- **Exactly the runs of packets are handed up**, each as one message. -/
theorem rxRun_hands_up_iff (hfresh : FreshEndpoint b eid cap w)
    (halloc : ∀ n, env.msgAlloc n = true) (hsrc : k.src ≠ mctpEidBroadcast)
    (hdest : mctpRxDestIsLocal { eid := eid } k.dest = true)
    (hpkts : ∀ pkt ∈ pkts ++ [q], PacketOf k pkt)
    (heid : ∀ pre, pre <+: pkts → ((rxRun env b w pre).busses 0).eid = eid) :
    (hdrFlags (mctpPktbufHdr q) = mctpHdrFlagEom →
      ((rxRun env b w (pkts ++ [q])).hist.handed ≠ (rxRun env b w pkts).hist.handed ↔
        ∃ pre p₀ ps, pkts = pre ++ p₀ :: ps ∧ FragmentRun cap p₀ ps q) ∧
      ∀ pre p₀ ps, pkts = pre ++ p₀ :: ps → FragmentRun cap p₀ ps q →
        (rxRun env b w (pkts ++ [q])).hist.handed = (rxRun env b w pkts).hist.handed ++
          [⟨k.src, k.dest, hdrTagOwner (mctpPktbufHdr q), k.tag,
            ((p₀ :: ps ++ [q]).map pktPayload).flatten⟩]) ∧
    (hdrFlags (mctpPktbufHdr q) ≠ mctpHdrFlagEom →
      (rxRun env b w (pkts ++ [q])).hist.handed = (rxRun env b w pkts).hist.handed) := by
  have hq : PacketOf k q := hpkts q (by simp)
  have hhanded := rxRun_packetOf hfresh halloc hsrc hdest hpkts heid
  refine ⟨fun heom => ?_, fun hother => ?_⟩
  · have hiff := step_packets_iff cap hpkts heom
    refine ⟨?_, fun pre p₀ ps hsplit hrun => ?_⟩
    · rw [hhanded]
      constructor
      · intro hne
        cases hstep : (step 4 cap (assemble 4 cap (pkts.map pktFrag)) (pktFrag q)).2 with
        | none =>
            rw [hstep] at hne
            exact absurd (List.append_nil _) hne
        | some bytes =>
            obtain ⟨pre, p₀, ps, hsplit, hrun, -⟩ := (hiff bytes).mp hstep
            exact ⟨pre, p₀, ps, hsplit, hrun⟩
      · rintro ⟨pre, p₀, ps, hsplit, hrun⟩
        rw [(hiff _).mpr ⟨pre, p₀, ps, hsplit, hrun, rfl⟩]
        simp
    · rw [hhanded, (hiff _).mpr ⟨pre, p₀, ps, hsplit, hrun, rfl⟩, ← hq.key]
      rfl
  · have hlast : (pktFrag q).last = false := by
      rw [← Bool.not_eq_true, hq.last]
      exact hother
    rw [hhanded, step_of_not_last hlast]
    exact List.append_nil _

end Endpoint

/-- A message of two packets of one byte. -/
theorem rxRun_hands_up_two :
    (rxRun plainEnv 0 (mctpRegisterBus plainEnv plainInstance 0 9).1
      ([oneByte 0x88] ++ [oneByte 0x58])).hist.handed
      = [⟨8, 9, true, 0, [7, 7]⟩] := by
  have hfresh : FreshEndpoint 0 9 mctpMaxMessageSize.toNat
      (mctpRegisterBus plainEnv plainInstance 0 9).1 :=
    ⟨⟨rfl, rfl, rfl, rfl⟩, fun _ => rfl, rfl⟩
  have hpkts : ∀ pkt ∈ [oneByte 0x88] ++ [oneByte 0x58], PacketOf ⟨8, 9, 0⟩ pkt := by
    intro pkt hpkt
    simp only [List.cons_append, List.nil_append, List.mem_cons, List.not_mem_nil, or_false] at hpkt
    obtain rfl | rfl := hpkt
    · exact ⟨by decide, by decide, by decide⟩
    · exact ⟨by decide, by decide, by decide⟩
  have heid : ∀ pre, pre <+: [oneByte 0x88] →
      ((rxRun plainEnv 0 (mctpRegisterBus plainEnv plainInstance 0 9).1 pre).busses 0).eid = 9 := by
    intro pre hpre
    obtain rfl | ⟨rest, rfl, hrest⟩ := List.prefix_cons_iff.mp hpre
    · rfl
    · rw [List.prefix_nil.mp hrest]
      decide
  have hrun : FragmentRun mctpMaxMessageSize.toNat (oneByte 0x88) [] (oneByte 0x58) :=
    ⟨by decide, by decide, by decide, by decide, by decide, by decide⟩
  rw [((rxRun_hands_up_iff hfresh (fun _ => rfl) (by decide) (by decide) hpkts heid).1
    (by decide)).2 [] _ [] rfl hrun]
  decide

end LibMctp
