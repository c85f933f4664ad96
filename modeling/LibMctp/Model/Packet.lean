import Mathlib.Algebra.Order.Ring.Nat
import Mathlib.Tactic.Common

/-!
# Packets

The packet header and the packet buffer of `libmctp.h`, with the buffer operations of `core.c`.

A `size_t` is a natural number below `2 ^ 64`. Every subtraction or addition of the source that can
wrap is written with `subSize` or `addSize`; the others stay in range because a binding's packet
size, header room and trailer room fit one `size_t` together.
-/

namespace LibMctp

/-- An instance has two busses, and the driver two devices. -/
instance instNeZeroTwo : NeZero (2 : Nat) := ⟨by decide⟩

/-- `a - b` on `size_t`. -/
def subSize (a b : Nat) : Nat := (2 ^ 64 + a - b) % 2 ^ 64

/-- `a + b` on `size_t`. -/
def addSize (a b : Nat) : Nat := (a + b) % 2 ^ 64

theorem subSize_of_le {a b : Nat} (hb : b ≤ a) (ha : a < 2 ^ 64) : subSize a b = a - b := by
  unfold subSize
  omega

theorem subSize_lt (a b : Nat) : subSize a b < 2 ^ 64 := Nat.mod_lt _ (by decide)

theorem addSize_of_lt {a b : Nat} (h : a + b < 2 ^ 64) : addSize a b = a + b := Nat.mod_eq_of_lt h

/-! ### Error numbers

The values of the Windows C runtime, whose port this is. -/

def enxio : Int := 6
def eio : Int := 5
def enomem : Int := 12
def ebusy : Int := 16
def einval : Int := 22
def enospc : Int := 28
def epipe : Int := 32
def emsgsize : Int := 115

/-! ### The packet header -/

/-- `sizeof(struct mctp_hdr)`. -/
def mctpHdrSize : Nat := 4

def mctpBtu : Nat := 64

/-- `MCTP_PACKET_SIZE(unit)`. -/
def mctpPacketSize (unit : Nat) : Nat := unit + mctpHdrSize

/-- `MCTP_BODY_SIZE(unit)`, an unsigned subtraction that wraps below the header size. -/
def mctpBodySize (unit : Nat) : Nat := subSize unit mctpHdrSize

def mctpEidNull : UInt8 := 0
def mctpEidBroadcast : UInt8 := 0xff

def mctpHdrFlagSom : UInt8 := (1 : UInt8) <<< 7
def mctpHdrFlagEom : UInt8 := (1 : UInt8) <<< 6
def mctpHdrToShift : UInt8 := 3
def mctpHdrToMask : UInt8 := 1
def mctpHdrSeqShift : UInt8 := 4
def mctpHdrSeqMask : UInt8 := 0x3
def mctpHdrTagShift : UInt8 := 0
def mctpHdrTagMask : UInt8 := 0x7

structure MctpHdr where
  ver : UInt8
  dest : UInt8
  src : UInt8
  flagsSeqTag : UInt8
  deriving DecidableEq, Repr

/-! ### Packet buffers -/

/-- `struct mctp_pktbuf`. `data` is the storage from its first byte on. -/
structure MctpPktbuf where
  start : Nat
  end_ : Nat
  size : Nat
  mctpHdrOff : Nat
  alloc : Bool
  data : List UInt8
  deriving DecidableEq, Repr

/-- The `len` bytes of a storage from `off` on. Bytes past the storage are unspecified in the source
and read as zero here. -/
def readBytes (data : List UInt8) (off len : Nat) : List UInt8 :=
  (data.drop off ++ List.replicate len 0).take len

/-- `memcpy(data + off, bytes, len)`. -/
def writeBytes (data : List UInt8) (off : Nat) (bytes : List UInt8) : List UInt8 :=
  data.take off ++ bytes ++ data.drop (off + bytes.length)

@[simp] theorem length_readBytes (data : List UInt8) (off len : Nat) :
    (readBytes data off len).length = len := by
  simp [readBytes]

theorem readBytes_of_le {data : List UInt8} {off len : Nat} (h : off + len ≤ data.length) :
    readBytes data off len = (data.drop off).take len := by
  rw [readBytes, List.take_append_of_le_length]
  rw [List.length_drop]
  omega

/-- `struct mctp_binding`, less the callbacks and the name used in log lines. A binding's storage
holds one packet with its header and trailer room, so their sizes fit one `size_t` together. -/
structure MctpBinding where
  version : UInt8
  bus : Option (Fin 2)
  mctp : Option Unit
  pktSize : Nat
  pktHeader : Nat
  pktTrailer : Nat
  fits : pktSize + pktHeader + pktTrailer < 2 ^ 64
  txStorage : Bool
  controlRx : Bool

instance : Inhabited MctpBinding := ⟨⟨0, none, none, 0, 0, 0, by decide, false, false⟩⟩

/-- `binding->pkt_size + binding->pkt_header + binding->pkt_trailer`. -/
def MctpBinding.storageSize (binding : MctpBinding) : Nat :=
  binding.pktSize + binding.pktHeader + binding.pktTrailer

def mctpPktbufInit (binding : MctpBinding) (storage : List UInt8) : MctpPktbuf where
  start := binding.pktHeader
  end_ := binding.pktHeader
  size := binding.storageSize
  mctpHdrOff := binding.pktHeader
  alloc := false
  data := storage

/-- `mctp_pktbuf_alloc`. `ok` is whether `__mctp_alloc` returns storage. -/
def mctpPktbufAlloc (binding : MctpBinding) (ok : Bool) (len : Nat) : Option MctpPktbuf :=
  if len > binding.storageSize then none
  else if ok then
    let pkt := mctpPktbufInit binding (List.replicate binding.storageSize 0)
    some { pkt with alloc := true, end_ := addSize pkt.start len }
  else none

def mctpPktbufHdr (pkt : MctpPktbuf) : MctpHdr where
  ver := pkt.data.getD pkt.mctpHdrOff 0
  dest := pkt.data.getD (pkt.mctpHdrOff + 1) 0
  src := pkt.data.getD (pkt.mctpHdrOff + 2) 0
  flagsSeqTag := pkt.data.getD (pkt.mctpHdrOff + 3) 0

/-- The first `len` bytes at `mctp_pktbuf_data`. -/
def mctpPktbufData (pkt : MctpPktbuf) (len : Nat) : List UInt8 :=
  readBytes pkt.data (pkt.mctpHdrOff + mctpHdrSize) len

def mctpPktbufSize (pkt : MctpPktbuf) : Nat := subSize pkt.end_ pkt.start

/-- `mctp_pktbuf_alloc_start`, `none` where its assertion fails. -/
def mctpPktbufAllocStart (pkt : MctpPktbuf) (size : Nat) : Option MctpPktbuf :=
  if size ≤ pkt.start then some { pkt with start := subSize pkt.start size } else none

/-- `mctp_pktbuf_alloc_end`, `none` where its assertion fails. -/
def mctpPktbufAllocEnd (pkt : MctpPktbuf) (size : Nat) : Option MctpPktbuf :=
  if size ≤ subSize pkt.size pkt.end_ then some { pkt with end_ := addSize pkt.end_ size } else none

def mctpPktbufPush (pkt : MctpPktbuf) (bytes : List UInt8) : MctpPktbuf × Int :=
  if addSize pkt.end_ bytes.length > pkt.size then (pkt, -1)
  else
    ({ pkt with
        end_ := addSize pkt.end_ bytes.length
        data := writeBytes pkt.data pkt.end_ bytes }, 0)

/-- `mctp_pktbuf_pop`: the new buffer, and the offset of the pointer it returns unless that is
NULL. -/
def mctpPktbufPop (pkt : MctpPktbuf) (len : Nat) : MctpPktbuf × Option Nat :=
  if len > mctpPktbufSize pkt then (pkt, none)
  else
    let pkt := { pkt with end_ := subSize pkt.end_ len }
    (pkt, some pkt.end_)

end LibMctp
