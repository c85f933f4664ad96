import LibMctp.Lib.Reassembly
import LibMctp.Proof.Base.Frame
import LibMctp.Proof.Base.Packets

/-!
# Reassembly contexts as assemblies

A context in use is an assembly under its key, and the table of contexts is a map from keys to
assemblies: `Mctp.asm`. Where the slot of a context lies in the table, and what a reused slot still
holds of an earlier message, does not show there.
-/

namespace LibMctp

open Fragment Reassembly

variable {δ : Type}

/-- What `mctp_msg_ctx_lookup` compares. -/
structure MsgKey where
  src : UInt8
  dest : UInt8
  tag : UInt8
  deriving DecidableEq, Repr

def MsgLabel.key (l : MsgLabel) : MsgKey := ⟨l.src, l.dest, l.tag⟩

/-- The key of a context in use. -/
def MctpMsgCtx.key (ctx : MctpMsgCtx) : Option MsgKey :=
  if ctx.buf.isSome then some ⟨ctx.src, ctx.dest, ctx.tag⟩ else none

theorem mctpMsgCtxLookup_eq (w : Mctp δ) (k : MsgKey) :
    mctpMsgCtxLookup w k.src k.dest k.tag = Table.slot MctpMsgCtx.key w.msgCtxs k := by
  refine Table.first_congr fun j => ?_
  unfold MctpMsgCtx.carries MctpMsgCtx.key
  cases (w.msgCtxs j).buf with
  | none => simp
  | some buf =>
      obtain ⟨src, dest, tag⟩ := k
      rw [Bool.eq_iff_iff]
      simp [and_assoc]

/-- The assembly of a context in use. -/
def MctpMsgCtx.asm (ctx : MctpMsgCtx) : Partial UInt8 where
  data := match ctx.buf with
    | some buf => buf.bytes.take ctx.bufSize
    | none => []
  seq := ctx.lastSeq.toNat
  size := ctx.fragmentSize - mctpHdrSize

/-- A context in use holds what it was given, in a buffer of the size set when it was made. -/
structure MctpMsgCtx.Ok (cap : Nat) (ctx : MctpMsgCtx) : Prop where
  alloc : ctx.bufAllocSize = cap
  size : ctx.bufSize ≤ cap
  bytes : ∀ buf, ctx.buf = some buf → ctx.bufSize ≤ buf.bytes.length
  fragment : mctpHdrSize ≤ ctx.fragmentSize

/-- The assemblies under way. -/
def Mctp.asm (w : Mctp δ) (k : MsgKey) : Option (Partial UInt8) :=
  (Table.get MctpMsgCtx.key w.msgCtxs k).map MctpMsgCtx.asm

structure RxInv (cap : Nat) (w : Mctp δ) : Prop where
  distinct : Table.Distinct MctpMsgCtx.key w.msgCtxs
  ok : ∀ j k, (w.msgCtxs j).key = some k → (w.msgCtxs j).Ok cap
  cap_lt : cap < 2 ^ 64

/-- Each context in use has a buffer of the size for its key. -/
structure RxInvOn (caps : MsgKey → Nat) (w : Mctp δ) : Prop where
  distinct : Table.Distinct MctpMsgCtx.key w.msgCtxs
  ok : ∀ j k, (w.msgCtxs j).key = some k → (w.msgCtxs j).Ok (caps k)
  cap_lt : ∀ k, caps k < 2 ^ 64

theorem RxInv.on {cap : Nat} {w : Mctp δ} (h : RxInv cap w) :
    RxInvOn (fun _ => cap) w := ⟨h.distinct, h.ok, fun _ => h.cap_lt⟩

theorem RxInvOn.rxInv {cap : Nat} {w : Mctp δ} (h : RxInvOn (fun _ => cap) w) : RxInv cap w :=
  ⟨h.distinct, h.ok, h.cap_lt ⟨0, 0, 0⟩⟩

/-- The context is `asm` under the key `k`, or free. -/
def MctpMsgCtx.Becomes (cap : Nat) (k : MsgKey) (ctx : MctpMsgCtx) : Option (Partial UInt8) → Prop
  | none => ctx.key = none
  | some p => ctx.key = some k ∧ ctx.Ok cap ∧ ctx.asm = p

section Table

variable {cap : Nat} {caps : MsgKey → Nat} {w w' : Mctp δ} {j : Fin 16} {k : MsgKey}
  {ctx : MctpMsgCtx}

theorem asm_of_slot (h : Table.Distinct MctpMsgCtx.key w.msgCtxs)
    (hj : (w.msgCtxs j).key = some k) :
    w.asm k = some (w.msgCtxs j).asm := by
  rw [Mctp.asm, Table.get, Table.slot_of_distinct h hj]
  rfl

theorem RxInv.asm_of_slot (h : RxInv cap w) (hj : (w.msgCtxs j).key = some k) :
    w.asm k = some (w.msgCtxs j).asm :=
  LibMctp.asm_of_slot h.distinct hj

theorem asm_of_slot_none (hk : Table.slot MctpMsgCtx.key w.msgCtxs k = none) : w.asm k = none := by
  rw [Mctp.asm, Table.get, hk]
  rfl

theorem asm_congr (h : w'.msgCtxs = w.msgCtxs) : w'.asm = w.asm := by
  funext k
  rw [Mctp.asm, Mctp.asm, h]

theorem RxInvOn.congr (h : RxInvOn caps w) (hctxs : w'.msgCtxs = w.msgCtxs) : RxInvOn caps w' := by
  refine ⟨?_, ?_, h.cap_lt⟩ <;> rw [hctxs]
  · exact h.distinct
  · exact h.ok

/-- Writing the slot of a key, or a free slot for a key that has none, changes the assembly of that
key. -/
theorem RxInvOn.write (h : RxInvOn caps w) (asm : Option (Partial UInt8))
    (hctxs : w'.msgCtxs = Function.update w.msgCtxs j ctx)
    (hold : (w.msgCtxs j).key = some k ∨ (w.msgCtxs j).key = none ∧
      Table.slot MctpMsgCtx.key w.msgCtxs k = none)
    (hctx : ctx.Becomes (caps k) k asm) :
    RxInvOn caps w' ∧ w'.asm = Function.update w.asm k asm := by
  have hnew : ctx.key = some k ∨ ctx.key = none := by
    cases asm with
    | none => exact .inr hctx
    | some p => exact .inl hctx.1
  have hwrite : Table.Writable MctpMsgCtx.key w.msgCtxs j k ctx := ⟨hold, hnew⟩
  refine ⟨⟨?_, ?_, h.cap_lt⟩, ?_⟩
  · rw [hctxs]
    exact hwrite.distinct h.distinct
  · intro i k' hi
    rw [hctxs] at hi ⊢
    by_cases hij : i = j
    · rw [hij, Function.update_self] at hi ⊢
      cases asm with
      | none =>
          rw [show ctx.key = none from hctx] at hi
          cases hi
      | some p =>
          rw [← Option.some.inj (hctx.1.symm.trans hi)]
          exact hctx.2.1
    · rw [Function.update_of_ne hij] at hi ⊢
      exact h.ok i k' hi
  · funext k'
    by_cases hk : k' = k
    · rw [hk, Function.update_self, Mctp.asm, hctxs, hwrite.get_self h.distinct]
      cases asm with
      | none =>
          rw [if_neg]
          · rfl
          · rw [show ctx.key = none from hctx]
            exact fun h => by cases h
      | some p =>
          rw [if_pos hctx.1, Option.map_some, hctx.2.2]
    · rw [Function.update_of_ne hk, Mctp.asm, hctxs, hwrite.get_of_ne hk, Mctp.asm]

end Table

/-! ### Packets -/

def pktLabel (pkt : MctpPktbuf) : MsgLabel :=
  let hdr := mctpPktbufHdr pkt
  ⟨hdr.src, hdr.dest, hdrTagOwner hdr, hdrTag hdr⟩

theorem hdrTag_masked (hdr : MctpHdr) : hdrTag hdr &&& mctpHdrTagMask = hdrTag hdr := by
  rw [hdrTag, UInt8.and_assoc]
  rfl

/-- The fragment a packet carries. A packet that is a whole message is measured from the header on,
and any other from the start of the packet. -/
def pktFrag (pkt : MctpPktbuf) : Frag UInt8 :=
  let flags := hdrFlags (mctpPktbufHdr pkt)
  let single := flags = mctpHdrFlagSom ||| mctpHdrFlagEom
  { first := single ∨ flags = mctpHdrFlagSom
    last := single ∨ flags = mctpHdrFlagEom
    seq := (hdrSeq (mctpPktbufHdr pkt)).toNat
    payload :=
      if single then mctpPktbufData pkt (subSize (subSize pkt.end_ pkt.mctpHdrOff) mctpHdrSize)
      else mctpPktbufData pkt (subSize (mctpPktbufSize pkt) mctpHdrSize) }

theorem length_mctpPktbufData (pkt : MctpPktbuf) (len : Nat) :
    (mctpPktbufData pkt len).length = len :=
  length_readBytes _ _ _

/-- What stands in a buffer up to the end of what was just written. -/
theorem take_writeBytes {data : List UInt8} {off : Nat} (bytes : List UInt8)
    (h : off ≤ data.length) :
    (writeBytes data off bytes).take (off + bytes.length) = data.take off ++ bytes := by
  have hlen : (data.take off ++ bytes).length = off + bytes.length := by
    rw [List.length_append, List.length_take, Nat.min_eq_left h]
  rw [writeBytes, ← hlen, List.take_left']
  rfl

theorem length_writeBytes_ge {data : List UInt8} {off : Nat} (bytes : List UInt8)
    (h : off ≤ data.length) :
    off + bytes.length ≤ (writeBytes data off bytes).length := by
  rw [writeBytes, List.length_append, List.length_append, List.length_take, Nat.min_eq_left h]
  omega

/-- Adding a packet to a context fails where the message would pass the size of the buffer, and
nowhere else. -/
theorem mctpMsgCtxAddPkt_eq (ctx : MctpMsgCtx) {buf : MsgBuf} (hbuf : ctx.buf = some buf)
    (pkt : MctpPktbuf) (hsize : ctx.bufSize ≤ ctx.bufAllocSize) (hcap : ctx.bufAllocSize < 2 ^ 64) :
    mctpMsgCtxAddPkt ctx pkt
      = if ctx.bufSize + subSize (mctpPktbufSize pkt) mctpHdrSize ≤ ctx.bufAllocSize then
          some { ctx with
            buf := some { buf with
              bytes := writeBytes buf.bytes ctx.bufSize
                (mctpPktbufData pkt (subSize (mctpPktbufSize pkt) mctpHdrSize)) }
            bufSize := ctx.bufSize + subSize (mctpPktbufSize pkt) mctpHdrSize }
        else none := by
  have hlen := subSize_lt (mctpPktbufSize pkt) mctpHdrSize
  rw [mctpMsgCtxAddPkt]
  generalize subSize (mctpPktbufSize pkt) mctpHdrSize = len at hlen ⊢
  by_cases hfits : ctx.bufSize + len ≤ ctx.bufAllocSize
  · rw [addSize_of_lt (by omega), addSize_of_lt (by omega), if_neg (by omega), if_neg (by omega),
      if_pos hfits, hbuf]
    rfl
  · rw [if_neg hfits]
    by_cases hwrap : ctx.bufSize + len < 2 ^ 64
    · rw [addSize_of_lt (by omega), addSize_of_lt (by omega), if_neg (by omega), if_pos (by omega)]
    · rw [if_pos]
      unfold addSize
      omega

theorem MctpMsgCtx.key_of_buf {ctx : MctpMsgCtx} {buf : MsgBuf} (h : ctx.buf = some buf) :
    ctx.key = some ⟨ctx.src, ctx.dest, ctx.tag⟩ := by
  rw [MctpMsgCtx.key, h]
  rfl

theorem MctpMsgCtx.buf_of_key {ctx : MctpMsgCtx} {k : MsgKey} (h : ctx.key = some k) :
    (∃ buf, ctx.buf = some buf) ∧ ctx.src = k.src ∧ ctx.dest = k.dest ∧ ctx.tag = k.tag := by
  unfold MctpMsgCtx.key at h
  split at h
  · rename_i hsome
    rw [← Option.some.inj h]
    exact ⟨Option.isSome_iff_exists.mp hsome, rfl, rfl, rfl⟩
  · cases h

theorem MctpMsgCtx.key_of_none {ctx : MctpMsgCtx} (h : ctx.buf = none) : ctx.key = none := by
  rw [MctpMsgCtx.key, h]
  rfl

/-- The context after a packet was added that fits. -/
theorem MctpMsgCtx.becomes_add (ctx : MctpMsgCtx) {buf : MsgBuf} {cap : Nat} {k : MsgKey}
    (hbuf : ctx.buf = some buf) (hkey : ctx.key = some k) (hok : ctx.Ok cap) (bytes : List UInt8)
    (hfits : ctx.bufSize + bytes.length ≤ cap) (seq : UInt8) :
    MctpMsgCtx.Becomes cap k { ctx with
      buf := some { buf with bytes := writeBytes buf.bytes ctx.bufSize bytes }
      bufSize := ctx.bufSize + bytes.length
      lastSeq := seq } (some ⟨ctx.asm.data ++ bytes, seq.toNat, ctx.asm.size⟩) := by
  have hbytes := hok.bytes buf hbuf
  refine ⟨?_, ⟨hok.alloc, hfits, ?_, hok.fragment⟩, ?_⟩
  · rw [← hkey, MctpMsgCtx.key_of_buf hbuf]
    rfl
  · intro buf' hbuf'
    rw [← Option.some.inj hbuf']
    exact length_writeBytes_ge bytes hbytes
  · simp only [MctpMsgCtx.asm, hbuf]
    rw [take_writeBytes bytes hbytes]

end LibMctp
