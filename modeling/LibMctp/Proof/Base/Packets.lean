import LibMctp.Lib.Fragment
import LibMctp.Model.Receive

/-!
# The packets of a list of messages

What a bus is to put on its binding for the messages it took, in terms of the cutting of messages
into numbered fragments: the payload of a packet is one fragment, and its header has the addressing
of the message, the two ends of the fragment as flags, and its number modulo 4.
-/

namespace LibMctp

open Fragment

/-- What every packet of a message carries of its addressing. -/
structure MsgLabel where
  src : UInt8
  dest : UInt8
  tagOwner : Bool
  tag : UInt8
  deriving DecidableEq, Repr

def Message.label (msg : Message) : MsgLabel := ⟨msg.src, msg.dest, msg.tagOwner, msg.tag⟩

def Message.labelled (msg : Message) : MsgLabel × List UInt8 := (msg.label, msg.bytes)

def MsgLabel.message (l : MsgLabel) (bytes : List UInt8) : Message :=
  ⟨l.src, l.dest, l.tagOwner, l.tag, bytes⟩

theorem Message.labelled_injective : Function.Injective Message.labelled := by
  intro msg msg' h
  cases msg
  cases msg'
  simpa [Message.labelled, Message.label, and_assoc] using h

/-- How many bytes of a message one packet carries at most. -/
def MctpBinding.chunk (binding : MctpBinding) : Nat := binding.pktSize - mctpHdrSize

def fragFlags (l : MsgLabel) (f : Frag UInt8) : UInt8 :=
  let flags := (if l.tagOwner then 1 else 0) <<< mctpHdrToShift ||| l.tag <<< mctpHdrTagShift
  let flags := if f.first then flags ||| mctpHdrFlagSom else flags
  let flags := if f.last then flags ||| mctpHdrFlagEom else flags
  flags ||| UInt8.ofNat f.seq <<< mctpHdrSeqShift

/-- The packet that carries one fragment of a message. -/
def fragPkt (binding : MctpBinding) (l : MsgLabel) (f : Frag UInt8) : MctpPktbuf where
  start := binding.pktHeader
  end_ := binding.pktHeader + mctpHdrSize + f.payload.length
  size := binding.storageSize
  mctpHdrOff := binding.pktHeader
  alloc := false
  data := List.replicate binding.pktHeader 0 ++ [binding.version &&& 0xf, l.dest, l.src,
    fragFlags l f] ++ f.payload

/-- The fragments of a list of messages, numbered from `s` on. -/
def msgFrags (binding : MctpBinding) (s : Nat) (msgs : List Message) :
    List (MsgLabel × Frag UInt8) :=
  stream 4 binding.chunk s (msgs.map Message.labelled)

/-- The packets of a list of messages, numbered from `s` on. -/
def msgPackets (binding : MctpBinding) (s : Nat) (msgs : List Message) : List MctpPktbuf :=
  (msgFrags binding s msgs).map fun x => fragPkt binding x.1 x.2

theorem msgPackets_concat (binding : MctpBinding) (s : Nat) (msgs : List Message) (msg : Message) :
    msgPackets binding s (msgs ++ [msg])
      = msgPackets binding s msgs ++
        (cut 4 binding.chunk true (s + (msgPackets binding s msgs).length) msg.bytes).map
        (fragPkt binding msg.label) := by
  have hmsg : msgFrags binding s (msgs ++ [msg]) = msgFrags binding s msgs ++
      (cut 4 binding.chunk true (s + (msgFrags binding s msgs).length) msg.bytes).map
      (Prod.mk msg.label) := by
    rw [msgFrags, List.map_append]
    exact stream_concat _ _ _ _
  rw [msgPackets, hmsg, List.map_append, List.map_map, msgPackets, List.length_map]
  rfl

/-! ### Reading a packet back -/

theorem tag_lt_of_mask {tag : UInt8} (h : tag &&& mctpHdrTagMask = tag) : tag.toNat < 8 := by
  have hmask : mctpHdrTagMask.toNat = 2 ^ 3 - 1 := rfl
  rw [← h, UInt8.toNat_and, hmask, Nat.and_two_pow_sub_one_eq_mod]
  exact Nat.mod_lt _ (by decide)

theorem mctpPktbufHdr_fragPkt (binding : MctpBinding) (l : MsgLabel) (f : Frag UInt8) :
    mctpPktbufHdr (fragPkt binding l f) = ⟨binding.version &&& 0xf, l.dest, l.src,
      fragFlags l f⟩ := by
  have hroom : (List.replicate binding.pktHeader (0 : UInt8)).length = binding.pktHeader :=
    List.length_replicate
  simp [mctpPktbufHdr, fragPkt, hroom]

theorem mctpPktbufSize_fragPkt {binding : MctpBinding} {l : MsgLabel} {f : Frag UInt8}
    (hroom : binding.pktHeader + mctpHdrSize + f.payload.length < 2 ^ 64) :
    mctpPktbufSize (fragPkt binding l f) = mctpHdrSize + f.payload.length := by
  dsimp only [mctpPktbufSize, fragPkt]
  rw [subSize_of_le (by omega) hroom]
  omega

private theorem fragFlags_fields : ∀ (tagOwner first last : Bool) (tag : Fin 8) (seq : Fin 4),
    let flags := fragFlags ⟨0, 0, tagOwner, UInt8.ofNat tag.val⟩ ⟨first, last, seq.val, []⟩
    flags &&& (mctpHdrFlagSom ||| mctpHdrFlagEom)
        = (if first then mctpHdrFlagSom else 0) ||| (if last then mctpHdrFlagEom else 0) ∧
      (flags >>> mctpHdrTagShift) &&& mctpHdrTagMask = UInt8.ofNat tag.val ∧
      (flags >>> mctpHdrSeqShift) &&& mctpHdrSeqMask = UInt8.ofNat seq.val ∧
      ((flags >>> mctpHdrToShift) &&& mctpHdrToMask != 0) = tagOwner := by
  decide +kernel

section Header

variable (binding : MctpBinding) {l : MsgLabel} {f : Frag UInt8} (htag : l.tag.toNat < 8)
  (hseq : f.seq < 4)

include htag hseq

/-- The fields of a packet's header are those of the label and the fragment. -/
theorem fragPkt_fields :
    hdrFlags (mctpPktbufHdr (fragPkt binding l f))
        = (if f.first then mctpHdrFlagSom else 0) ||| (if f.last then mctpHdrFlagEom else 0) ∧
      hdrTag (mctpPktbufHdr (fragPkt binding l f)) = l.tag ∧
      (hdrSeq (mctpPktbufHdr (fragPkt binding l f))).toNat = f.seq ∧
      hdrTagOwner (mctpPktbufHdr (fragPkt binding l f)) = l.tagOwner := by
  have hfields := fragFlags_fields l.tagOwner f.first f.last ⟨l.tag.toNat, htag⟩ ⟨f.seq, hseq⟩
  have hflags : fragFlags ⟨0, 0, l.tagOwner, UInt8.ofNat l.tag.toNat⟩ ⟨f.first, f.last, f.seq, []⟩
      = fragFlags l f := by
    rw [UInt8.ofNat_toNat]
    rfl
  dsimp only at hfields
  rw [hflags, UInt8.ofNat_toNat] at hfields
  obtain ⟨hends, htag', hseq', howner⟩ := hfields
  rw [mctpPktbufHdr_fragPkt]
  refine ⟨hends, htag', ?_, howner⟩
  dsimp only [hdrSeq]
  rw [hseq', UInt8.toNat_ofNat']
  exact Nat.mod_eq_of_lt (by omega)

theorem fragPkt_eom : (fragFlags l f &&& mctpHdrFlagEom ≠ 0) ↔ f.last = true := by
  have hends := (fragPkt_fields default htag hseq).1
  rw [mctpPktbufHdr_fragPkt] at hends
  dsimp only [hdrFlags] at hends
  have heom : fragFlags l f &&& mctpHdrFlagEom
      = (fragFlags l f &&& (mctpHdrFlagSom ||| mctpHdrFlagEom)) &&& mctpHdrFlagEom := by
    rw [UInt8.and_assoc]
    rfl
  rw [heom, hends]
  cases f.first <;> cases f.last <;> decide

end Header

end LibMctp
