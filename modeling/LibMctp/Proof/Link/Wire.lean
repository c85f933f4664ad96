import LibMctp.Proof.Receive.Endpoint
import LibMctp.Proof.Transmit.Queue

/-!
# Packets on the wire

A packet that one bus gave to its binding is read by the bus at the other end as the fragment it was
made from, so that what a bus sends is, to the receiving machine, the stream of the messages it
accepted.
-/

namespace LibMctp

open Fragment Reassembly

variable {δ : Type}

section Packet

variable {binding : MctpBinding} {l : MsgLabel} {f : Frag UInt8}

theorem mctpPktbufData_fragPkt :
    mctpPktbufData (fragPkt binding l f) f.payload.length = f.payload := by
  have hdrop : (fragPkt binding l f).data.drop (binding.pktHeader + mctpHdrSize) = f.payload := by
    dsimp only [fragPkt]
    refine List.drop_left' ?_
    rw [List.length_append, List.length_replicate]
    rfl
  have hread : mctpPktbufData (fragPkt binding l f) f.payload.length
      = ((fragPkt binding l f).data.drop (binding.pktHeader + mctpHdrSize) ++
        List.replicate f.payload.length 0).take f.payload.length := rfl
  rw [hread, hdrop, List.take_left]

theorem pktLabel_fragPkt (htag : l.tag.toNat < 8) (hseq : f.seq < 4) :
    pktLabel (fragPkt binding l f) = l := by
  obtain ⟨_, htag', _, howner⟩ := fragPkt_fields binding htag hseq
  dsimp only [pktLabel]
  rw [htag', howner, mctpPktbufHdr_fragPkt]

/-- **A packet carries its fragment.** -/
theorem pktItem_fragPkt (htag : l.tag.toNat < 8) (hseq : f.seq < 4)
    (hroom : binding.pktHeader + mctpHdrSize + f.payload.length < 2 ^ 64) :
    pktItem (fragPkt binding l f) = (l, f) := by
  obtain ⟨hflags, _, hseq', _⟩ := fragPkt_fields binding htag hseq
  have hlen : subSize (mctpPktbufSize (fragPkt binding l f)) mctpHdrSize = f.payload.length := by
    rw [mctpPktbufSize_fragPkt hroom, subSize_of_le (by omega) (by omega)]
    omega
  have hlen' : subSize (subSize (fragPkt binding l f).end_ (fragPkt binding l f).mctpHdrOff)
    mctpHdrSize
      = f.payload.length := hlen
  have hfrag : pktFrag (fragPkt binding l f) = f := by
    obtain ⟨first, last, seq, payload⟩ := f
    cases first <;> cases last <;> simp only [reduceIte, Bool.false_eq_true] at hflags
    · rw [pktFrag_middle (by rw [hflags]; decide) (by rw [hflags]; decide) (by rw [hflags]; decide),
        hseq', hlen, mctpPktbufData_fragPkt]
    · rw [pktFrag_eom (by rw [hflags]; decide), hseq', hlen, mctpPktbufData_fragPkt]
    · rw [pktFrag_som (by rw [hflags]; decide), hseq', hlen, mctpPktbufData_fragPkt]
    · rw [pktFrag_single hflags, hseq', hlen', mctpPktbufData_fragPkt]
  rw [pktItem, hfrag, pktLabel_fragPkt htag hseq]

end Packet

section Packets

variable {binding : MctpBinding} {s : Nat} {msgs : List Message}

theorem mem_msgFrags (hchunk : 0 < binding.chunk) (htags : ∀ msg ∈ msgs, msg.tag.toNat < 8)
    {x : MsgLabel × Frag UInt8} (hx : x ∈ msgFrags binding s msgs) :
    (∃ msg ∈ msgs, x.1 = msg.label) ∧ x.1.tag.toNat < 8 ∧ x.2.seq < 4 ∧
      binding.pktHeader + mctpHdrSize + x.2.payload.length < 2 ^ 64 := by
  obtain ⟨item, hitem, hlabel, s', hfrag⟩ := mem_stream hx
  obtain ⟨msg, hmsg, rfl⟩ := List.mem_map.mp hitem
  have hpayload := payload_le_of_mem_cut hchunk hfrag
  have hfits := binding.fits
  refine ⟨⟨msg, hmsg, hlabel⟩, ?_, seq_lt_of_mem_cut (by decide) hfrag, ?_⟩
  · rw [hlabel]
    exact htags msg hmsg
  · unfold MctpBinding.chunk at hchunk hpayload
    omega

theorem map_pktItem_msgPackets (hchunk : 0 < binding.chunk)
    (htags : ∀ msg ∈ msgs, msg.tag.toNat < 8) :
    (msgPackets binding s msgs).map pktItem = msgFrags binding s msgs := by
  rw [msgPackets, List.map_map]
  refine (List.map_congr_left fun x hx => ?_).trans (List.map_id _)
  obtain ⟨_, htag, hseq, hroom⟩ := mem_msgFrags hchunk htags hx
  exact pktItem_fragPkt htag hseq hroom

/-- The receiver of a packet does not find it too short. -/
theorem size_of_mem_msgPackets (hchunk : 0 < binding.chunk)
    (htags : ∀ msg ∈ msgs, msg.tag.toNat < 8) {pkt : MctpPktbuf}
    (hpkt : pkt ∈ msgPackets binding s msgs) : mctpHdrSize ≤ mctpPktbufSize pkt := by
  obtain ⟨x, hx, rfl⟩ := List.mem_map.mp hpkt
  obtain ⟨_, _, _, hroom⟩ := mem_msgFrags hchunk htags hx
  rw [mctpPktbufSize_fragPkt hroom]
  omega

theorem label_of_mem_msgPackets (hchunk : 0 < binding.chunk)
    (htags : ∀ msg ∈ msgs, msg.tag.toNat < 8) {pkt : MctpPktbuf}
    (hpkt : pkt ∈ msgPackets binding s msgs) : ∃ msg ∈ msgs, pktLabel pkt = msg.label := by
  obtain ⟨x, hx, rfl⟩ := List.mem_map.mp hpkt
  obtain ⟨⟨msg, hmsg, hlabel⟩, htag, hseq, _⟩ := mem_msgFrags hchunk htags hx
  exact ⟨msg, hmsg, (pktLabel_fragPkt htag hseq).trans hlabel⟩

end Packets

/-- A binding that takes every packet and puts it on the wire. -/
def wire : Env (List MctpPktbuf) where
  msgAlloc := fun _ => true
  pktAlloc := fun _ => true
  tx := fun _ d pkt => (d ++ [pkt], ⟨0, false⟩)
  start := fun _ => some fun d => (d, ⟨0, [true]⟩)

end LibMctp
