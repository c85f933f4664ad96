import LibMctp.Proof.Receive.Contexts

/-!
# What receiving a packet does

`mctp_bus_rx` refines the machine that runs one assembly for each key: a packet it does not drop on
sight moves the assembly of its key by one step, and hands up the message that step completes. Where
no buffer or no free context can be had, a first packet is passed over instead.
-/

namespace LibMctp

open Fragment Reassembly

variable {δ : Type}

/-- The assembly of the packet's key after the packet, and the message it completes. -/
def rxStep (cap : Nat) (w : Mctp δ) (pkt : MctpPktbuf) :
    Option (Partial UInt8) × Option (List UInt8) :=
  step 4 cap (w.asm (pktLabel pkt).key) (pktFrag pkt)

/-- The packet moved the assembly of its key, and no other. -/
structure Assembles (cap : Nat) (pkt : MctpPktbuf) (w w' : Mctp δ) : Prop where
  inv : RxInv cap w'
  asm : w'.asm = Function.update w.asm (pktLabel pkt).key (rxStep cap w pkt).1
  handed : w'.hist.handed
    = w.hist.handed ++ ((rxStep cap w pkt).2.map (pktLabel pkt).message).toList

/-- The packet changed no assembly and handed up nothing. -/
structure Passes (cap : Nat) (w w' : Mctp δ) : Prop where
  inv : RxInv cap w'
  asm : w'.asm = w.asm
  handed : w'.hist.handed = w.hist.handed

/-- `Assembles`, where the buffers have the sizes for their keys. -/
structure AssemblesOn (caps : MsgKey → Nat) (pkt : MctpPktbuf) (w w' : Mctp δ) : Prop where
  inv : RxInvOn caps w'
  asm : w'.asm = Function.update w.asm (pktLabel pkt).key (rxStep (caps (pktLabel pkt).key) w pkt).1
  handed : w'.hist.handed = w.hist.handed ++ ((rxStep (caps (pktLabel pkt).key) w pkt).2.map
    (pktLabel pkt).message).toList

structure PassesOn (caps : MsgKey → Nat) (w w' : Mctp δ) : Prop where
  inv : RxInvOn caps w'
  asm : w'.asm = w.asm
  handed : w'.hist.handed = w.hist.handed

/-- No context is free. -/
def Mctp.Full (w : Mctp δ) : Prop := ∀ j, (w.msgCtxs j).buf.isSome = true

theorem RxInvOn.passes {caps : MsgKey → Nat} {w w' : Mctp δ} (h : RxInvOn caps w)
    (hctxs : w'.msgCtxs = w.msgCtxs) (hhanded : w'.hist.handed = w.hist.handed) :
    PassesOn caps w w' :=
  ⟨h.congr hctxs, asm_congr hctxs, hhanded⟩

theorem RxInv.passes {cap : Nat} {w w' : Mctp δ} (h : RxInv cap w) (hctxs : w'.msgCtxs = w.msgCtxs)
    (hhanded : w'.hist.handed = w.hist.handed) : Passes cap w w' :=
  ⟨(h.on.congr hctxs).rxInv, asm_congr hctxs, hhanded⟩

/-- A step that hands up nothing, from the slot it wrote. -/
theorem RxInvOn.assembles {caps : MsgKey → Nat} {w w' : Mctp δ} {pkt : MctpPktbuf} {j : Fin 16}
    (h : RxInvOn caps w) (ctx : MctpMsgCtx) {out : Option (List UInt8)}
    {asm : Option (Partial UInt8)} (hstep : rxStep (caps (pktLabel pkt).key) w pkt = (asm, out))
    (hctxs : w'.msgCtxs = Function.update w.msgCtxs j ctx)
    (hold : (w.msgCtxs j).key = some (pktLabel pkt).key ∨ (w.msgCtxs j).key = none ∧
      Table.slot MctpMsgCtx.key w.msgCtxs (pktLabel pkt).key = none)
    (hctx : ctx.Becomes (caps (pktLabel pkt).key) (pktLabel pkt).key asm)
    (hhanded : w'.hist.handed = w.hist.handed ++ (out.map (pktLabel pkt).message).toList) :
    AssemblesOn caps pkt w w' := by
  obtain ⟨hinv, hasm⟩ := h.write asm hctxs hold hctx
  refine ⟨hinv, ?_, ?_⟩
  · rw [hasm, hstep]
  · rw [hhanded, hstep]

section Flags

@[simp] theorem som_ne_single : mctpHdrFlagSom ≠ mctpHdrFlagSom ||| mctpHdrFlagEom := by decide
@[simp] theorem eom_ne_single : mctpHdrFlagEom ≠ mctpHdrFlagSom ||| mctpHdrFlagEom := by decide
@[simp] theorem som_ne_eom : mctpHdrFlagSom ≠ mctpHdrFlagEom := by decide
@[simp] theorem eom_ne_som : mctpHdrFlagEom ≠ mctpHdrFlagSom := by decide

variable {pkt : MctpPktbuf}

theorem pktFrag_single (h : hdrFlags (mctpPktbufHdr pkt) = mctpHdrFlagSom ||| mctpHdrFlagEom) :
    pktFrag pkt = ⟨true, true, (hdrSeq (mctpPktbufHdr pkt)).toNat,
      mctpPktbufData pkt (subSize (subSize pkt.end_ pkt.mctpHdrOff) mctpHdrSize)⟩ := by
  simp [pktFrag, h]

theorem pktFrag_som (h : hdrFlags (mctpPktbufHdr pkt) = mctpHdrFlagSom) :
    pktFrag pkt = ⟨true, false, (hdrSeq (mctpPktbufHdr pkt)).toNat,
      mctpPktbufData pkt (subSize (mctpPktbufSize pkt) mctpHdrSize)⟩ := by
  simp [pktFrag, h]

theorem pktFrag_eom (h : hdrFlags (mctpPktbufHdr pkt) = mctpHdrFlagEom) :
    pktFrag pkt = ⟨false, true, (hdrSeq (mctpPktbufHdr pkt)).toNat,
      mctpPktbufData pkt (subSize (mctpPktbufSize pkt) mctpHdrSize)⟩ := by
  simp [pktFrag, h]

theorem pktFrag_middle (hboth : hdrFlags (mctpPktbufHdr pkt) ≠ mctpHdrFlagSom ||| mctpHdrFlagEom)
    (hsom : hdrFlags (mctpPktbufHdr pkt) ≠ mctpHdrFlagSom)
    (heom : hdrFlags (mctpPktbufHdr pkt) ≠ mctpHdrFlagEom) :
    pktFrag pkt = ⟨false, false, (hdrSeq (mctpPktbufHdr pkt)).toNat,
      mctpPktbufData pkt (subSize (mctpPktbufSize pkt) mctpHdrSize)⟩ := by
  simp [pktFrag, hboth, hsom, heom]

end Flags

/-! ### The cases of the flags -/

section Cases

variable (env : Env δ) {cap : Nat} {caps : MsgKey → Nat} {w : Mctp δ} {i : Fin 2} {pkt : MctpPktbuf}
  {j : Fin 16}

theorem mctpMsgAlloc_some (env : Env δ) (w : Mctp δ) (size : Nat) (mctp : Option Unit)
    (halloc : env.msgAlloc w.nMsgAlloc = true) :
    ∃ w' buf, mctpMsgAlloc env w size mctp = (w', some buf) := by
  rw [mctpMsgAlloc, if_pos halloc]
  exact ⟨_, _, rfl⟩

theorem mctpMsgAlloc_none {size : Nat} {mctp : Option Unit} {w' : Mctp δ}
    (h : mctpMsgAlloc env w size mctp = (w', none)) : env.msgAlloc w.nMsgAlloc = false := by
  by_contra halloc
  rw [Bool.not_eq_false] at halloc
  obtain ⟨w₁, buf, hsome⟩ := mctpMsgAlloc_some env w size mctp halloc
  rw [h] at hsome
  cases hsome

theorem mctpMsgCtxDrop_handed (w : Mctp δ) (i : Fin 2) (j : Fin 16) :
    (mctpMsgCtxDrop w i j).hist.handed = w.hist.handed := by
  unfold mctpMsgCtxDrop
  dsimp only [Mctp.withHist]
  split <;> simp

theorem busRxSingle_spec (h : RxInvOn caps w)
    (hflags : hdrFlags (mctpPktbufHdr pkt) = mctpHdrFlagSom ||| mctpHdrFlagEom) :
    AssemblesOn caps pkt w (busRxSingle env w i pkt) ∨
      PassesOn caps w (busRxSingle env w i pkt) ∧ env.msgAlloc w.nMsgAlloc = false := by
  have hstep : rxStep (caps (pktLabel pkt).key) w pkt = (w.asm (pktLabel pkt).key,
      some (mctpPktbufData pkt (subSize (subSize pkt.end_ pkt.mctpHdrOff) mctpHdrSize))) := by
    rw [rxStep, pktFrag_single hflags]
    rfl
  unfold busRxSingle
  dsimp only
  have hdup := mctpMsgDup_txOnly env w
    (mctpPktbufData pkt (subSize (subSize pkt.end_ pkt.mctpHdrOff) mctpHdrSize)) (some ())
  split <;> rename_i hcase <;> rw [hcase] at hdup
  · refine .inr ⟨h.passes hdup.msgCtxs hdup.handed, ?_⟩
    unfold mctpMsgDup at hcase
    split at hcase
    · rename_i halloc
      exact mctpMsgAlloc_none env halloc
    · cases hcase
  · rename_i w₁ p
    have hbytes : p.bytes
        = mctpPktbufData pkt (subSize (subSize pkt.end_ pkt.mctpHdrOff) mctpHdrSize) := by
      unfold mctpMsgDup at hcase
      split at hcase
      · cases hcase
      · rw [← Option.some.inj (Prod.mk.inj hcase).2]
    have hfree :=
      mctpMsgFree_txOnly env (mctpRx env w₁ i ⟨(mctpPktbufHdr pkt).src, (mctpPktbufHdr pkt).dest,
      hdrTagOwner (mctpPktbufHdr pkt), hdrTag (mctpPktbufHdr pkt), p.bytes⟩) p (some ())
    have hctxs := hfree.msgCtxs.trans ((mctpRx_msgCtxs env w₁ i _).trans hdup.msgCtxs)
    refine .inl ⟨h.congr hctxs, ?_, ?_⟩
    · rw [hstep, Function.update_eq_self]
      exact asm_congr hctxs
    · rw [hfree.handed, mctpRx_handed, hdup.handed, hstep, hbytes]
      rfl

/-- A context that is the key's own and empty takes a first packet. -/
theorem busRxStart_spec {ctx : MctpMsgCtx} {k : MsgKey} (hctx : w.msgCtxs j = ctx)
    (hkey : ctx.key = some k) (halloc : ctx.bufAllocSize = cap) (hempty : ctx.bufSize = 0)
    (hcap : cap < 2 ^ 64) (hsize : mctpHdrSize ≤ mctpPktbufSize pkt)
    (hflags : hdrFlags (mctpPktbufHdr pkt) = mctpHdrFlagSom) :
    (busRxStart w i pkt j).hist.handed = w.hist.handed ∧
      ∃ ctx', (busRxStart w i pkt j).msgCtxs = Function.update w.msgCtxs j ctx' ∧
        ctx'.Becomes cap k (begin cap (pktFrag pkt)) := by
  have hlen := subSize_of_le hsize (subSize_lt pkt.end_ pkt.start)
  obtain ⟨⟨buf, hbuf⟩, _⟩ := MctpMsgCtx.buf_of_key hkey
  have hadd := mctpMsgCtxAddPkt_eq { ctx with fragmentSize := mctpPktbufSize pkt } hbuf pkt
    (by dsimp only; omega) (by dsimp only; omega)
  have hok : MctpMsgCtx.Ok cap { ctx with fragmentSize := mctpPktbufSize pkt } :=
    ⟨halloc, by dsimp only; omega, fun _ _ => by dsimp only; omega, hsize⟩
  have hfits := MctpMsgCtx.becomes_add { ctx with fragmentSize := mctpPktbufSize pkt } hbuf hkey hok
    (mctpPktbufData pkt (subSize (mctpPktbufSize pkt) mctpHdrSize))
  have hasm : MctpMsgCtx.asm { ctx with fragmentSize := mctpPktbufSize pkt }
      = ⟨[], ctx.lastSeq.toNat, mctpPktbufSize pkt - mctpHdrSize⟩ := by
    simp [MctpMsgCtx.asm, hempty, hbuf]
  rw [hasm] at hfits
  dsimp only at hadd hfits
  rw [length_mctpPktbufData] at hfits
  unfold busRxStart
  rw [hctx]
  dsimp only
  rw [hadd, pktFrag_som hflags, begin]
  dsimp only
  rw [length_mctpPktbufData]
  by_cases hle : subSize (mctpPktbufSize pkt) mctpHdrSize ≤ cap
  · rw [if_pos (by omega), if_pos hle]
    refine ⟨rfl, _, rfl, ?_⟩
    rw [hlen] at hfits ⊢
    exact hfits (by omega) _
  · rw [if_neg (by omega), if_neg hle]
    refine ⟨mctpMsgCtxDrop_handed _ _ _,
      { ctx with fragmentSize := mctpPktbufSize pkt, buf := none }, ?_, ?_⟩
    · dsimp only [mctpMsgCtxDrop, Mctp.withHist, Mctp.setCtx]
      rw [Function.update_self, Function.update_idem]
    · exact MctpMsgCtx.key_of_none rfl

theorem msgCtxs_setCtx {w' : Mctp δ} (h : w'.msgCtxs = w.msgCtxs) (j : Fin 16) (ctx : MctpMsgCtx) :
    (w'.setCtx j ctx).msgCtxs = Function.update w.msgCtxs j ctx := by
  rw [Mctp.setCtx, h]

theorem lookup_pkt (w : Mctp δ) (pkt : MctpPktbuf) :
    mctpMsgCtxLookup w (mctpPktbufHdr pkt).src (mctpPktbufHdr pkt).dest (hdrTag (mctpPktbufHdr pkt))
      = Table.slot MctpMsgCtx.key w.msgCtxs (pktLabel pkt).key :=
  mctpMsgCtxLookup_eq w (pktLabel pkt).key

/-- No context is made: none is free, or there is no buffer for it. -/
theorem mctpMsgCtxCreate_none {src dest tag : UInt8} {w' : Mctp δ}
    (h : mctpMsgCtxCreate env w src dest tag = (w', none)) :
    w' = w ∧ w.Full ∨
      env.msgAlloc w.nMsgAlloc = false ∧ w'.hist.handed = w.hist.handed ∧
        ∃ j ctx, (w.msgCtxs j).buf = none ∧ w'.msgCtxs = Function.update w.msgCtxs j ctx ∧
          ctx.buf = none := by
  unfold mctpMsgCtxCreate at h
  split at h
  · rename_i hfirst
    rw [Table.first_eq_none] at hfirst
    refine .inl ⟨(Prod.mk.inj h).1.symm, fun j => ?_⟩
    simpa using hfirst j
  · rename_i j hfirst
    have hfree : (w.msgCtxs j).buf = none := by simpa using Table.first_some hfirst
    have honly := mctpMsgAlloc_txOnly env w w.maxMessageSize.toNat (some ())
    dsimp only at h
    split at h <;> rename_i halloc <;> rw [halloc] at honly
    · rw [← (Prod.mk.inj h).1]
      exact .inr ⟨mctpMsgAlloc_none env halloc, honly.handed, j, _, hfree,
        msgCtxs_setCtx honly.msgCtxs j _, hfree⟩
    · cases h

theorem mctpMsgCtxCreate_some {src dest tag : UInt8} {w' : Mctp δ} {j : Fin 16}
    (h : mctpMsgCtxCreate env w src dest tag = (w', some j)) :
    (w.msgCtxs j).buf = none ∧ w'.hist.handed = w.hist.handed ∧
      ∃ ctx, w'.msgCtxs = Function.update w.msgCtxs j ctx ∧ ctx.key = some ⟨src, dest, tag⟩ ∧
        ctx.bufAllocSize = w.maxMessageSize.toNat ∧ ctx.bufSize = 0 := by
  unfold mctpMsgCtxCreate at h
  split at h
  · cases h
  · rename_i j' hfirst
    have hfree : (w.msgCtxs j').buf = none := by simpa using Table.first_some hfirst
    have honly := mctpMsgAlloc_txOnly env w w.maxMessageSize.toNat (some ())
    dsimp only at h
    split at h <;> rename_i halloc <;> rw [halloc] at honly
    · cases h
    · obtain ⟨rfl, hj⟩ := Prod.mk.inj h
      rw [← Option.some.inj hj]
      exact ⟨hfree, honly.handed, _, msgCtxs_setCtx honly.msgCtxs j' _,
        MctpMsgCtx.key_of_buf rfl, rfl, rfl⟩

theorem busRxSom_spec (h : RxInvOn caps w)
    (hmax : w.asm (pktLabel pkt).key = none → w.maxMessageSize.toNat = caps (pktLabel pkt).key)
    (hsize : mctpHdrSize ≤ mctpPktbufSize pkt)
    (hflags : hdrFlags (mctpPktbufHdr pkt) = mctpHdrFlagSom) :
    AssemblesOn caps pkt w (busRxSom env w i pkt) ∨
      PassesOn caps w (busRxSom env w i pkt) ∧ w.asm (pktLabel pkt).key = none ∧
        (env.msgAlloc w.nMsgAlloc = false ∨ w.Full) := by
  have hstep : rxStep (caps (pktLabel pkt).key) w pkt
      = (begin (caps (pktLabel pkt).key) (pktFrag pkt), none) := by
    rw [rxStep, pktFrag_som hflags]
    rfl
  unfold busRxSom
  dsimp only
  rw [lookup_pkt]
  split
  · rename_i j hslot
    have hkey := Table.slot_some hslot
    have hok := h.ok j _ hkey
    have hctx : (w.setCtx j (mctpMsgCtxReset (w.msgCtxs j))).msgCtxs j
        = mctpMsgCtxReset (w.msgCtxs j) :=
      Function.update_self ..
    obtain ⟨hhanded, ctx', hctxs, hbecomes⟩ := busRxStart_spec (i := i) hctx hkey hok.alloc rfl
      (h.cap_lt _) hsize hflags
    refine .inl (h.assembles _ hstep ?_ (.inl hkey) hbecomes ?_)
    · rw [hctxs]
      exact Function.update_idem ..
    · rw [hhanded]
      exact (List.append_nil _).symm
  · rename_i hslot
    have hnone := asm_of_slot_none hslot
    split <;> rename_i hcreate
    · obtain ⟨rfl, hfull⟩ | ⟨halloc, hhanded, j, ctx, hfree, hctxs, hbuf⟩ :=
        mctpMsgCtxCreate_none env hcreate
      · exact .inr ⟨h.passes rfl rfl, hnone, .inr hfull⟩
      · obtain ⟨hinv, hasm⟩ := h.write none hctxs (.inr ⟨MctpMsgCtx.key_of_none hfree, hslot⟩)
          (MctpMsgCtx.key_of_none hbuf)
        refine .inr ⟨⟨hinv, ?_, hhanded⟩, hnone, .inl halloc⟩
        rw [hasm, ← hnone, Function.update_eq_self]
    · rename_i w₁ j
      obtain ⟨hfree, hhanded₁, ctx, hctxs₁, hkey, halloc, hempty⟩ :=
        mctpMsgCtxCreate_some env hcreate
      have hctx : w₁.msgCtxs j = ctx := by
        rw [hctxs₁]
        exact Function.update_self ..
      obtain ⟨hhanded, ctx', hctxs, hbecomes⟩ :=
        busRxStart_spec (i := i) hctx hkey (halloc.trans (hmax hnone)) hempty
          (h.cap_lt _) hsize hflags
      refine .inl (h.assembles _ hstep ?_ (.inr ⟨MctpMsgCtx.key_of_none hfree, hslot⟩) hbecomes ?_)
      · rw [hctxs, hctxs₁]
        exact Function.update_idem ..
      · rw [hhanded, hhanded₁]
        exact (List.append_nil _).symm

/-! A later packet finds no context, or the context of its key. -/

theorem seq_next_iff (last seq : UInt8) :
    (last + 1) % 4 = seq ↔ (last.toNat + 1) % 4 = seq.toNat := by
  have hone : (1 : UInt8).toNat = 1 := rfl
  have hfour : (4 : UInt8).toNat = 4 := rfl
  rw [← UInt8.toNat_inj, UInt8.toNat_mod, UInt8.toNat_add, hone, hfour]
  omega

theorem assembles_of_none (h : RxInvOn caps w)
    (hslot : Table.slot MctpMsgCtx.key w.msgCtxs (pktLabel pkt).key = none)
    (hstep : rxStep (caps (pktLabel pkt).key) w pkt = (none, none)) : AssemblesOn caps pkt w w := by
  refine ⟨h, ?_, ?_⟩
  · rw [hstep, ← asm_of_slot_none hslot, Function.update_eq_self]
  · rw [hstep]
    exact (List.append_nil _).symm

theorem mctpMsgCtxDrop_spec (h : RxInvOn caps w)
    (hkey : (w.msgCtxs j).key = some (pktLabel pkt).key)
    (hstep : rxStep (caps (pktLabel pkt).key) w pkt = (none, none)) :
    AssemblesOn caps pkt w (mctpMsgCtxDrop w i j) := by
  refine h.assembles { w.msgCtxs j with buf := none } hstep rfl (.inl hkey)
    (MctpMsgCtx.key_of_none rfl) ?_
  rw [mctpMsgCtxDrop_handed]
  exact (List.append_nil _).symm

/-- The context of a key in use, in terms of its assembly: what it holds, and what a packet adds to
it. -/
structure CtxInUse (cap : Nat) (pkt : MctpPktbuf) (ctx : MctpMsgCtx) (buf : MsgBuf) : Prop where
  inUse : ctx.buf = some buf
  bytes : ctx.bufSize ≤ buf.bytes.length
  data : ctx.asm.data = buf.bytes.take ctx.bufSize
  length : ctx.asm.data.length = ctx.bufSize
  add : mctpMsgCtxAddPkt ctx pkt
    = if ctx.bufSize + subSize (mctpPktbufSize pkt) mctpHdrSize ≤ cap then
        some { ctx with
          buf := some { buf with
            bytes := writeBytes buf.bytes ctx.bufSize
              (mctpPktbufData pkt (subSize (mctpPktbufSize pkt) mctpHdrSize)) }
          bufSize := ctx.bufSize + subSize (mctpPktbufSize pkt) mctpHdrSize }
      else none

theorem ctxInUse {ctx : MctpMsgCtx} {k : MsgKey} (hkey : ctx.key = some k) (hok : ctx.Ok cap)
    (hcap : cap < 2 ^ 64) (pkt : MctpPktbuf) : ∃ buf, CtxInUse cap pkt ctx buf := by
  obtain ⟨⟨buf, hbuf⟩, _⟩ := MctpMsgCtx.buf_of_key hkey
  have hbytes := hok.bytes buf hbuf
  have hdata : ctx.asm.data = buf.bytes.take ctx.bufSize := by
    rw [MctpMsgCtx.asm, hbuf]
  refine ⟨buf, hbuf, hbytes, hdata, ?_, ?_⟩
  · rw [hdata, List.length_take, Nat.min_eq_left hbytes]
  · have hadd := mctpMsgCtxAddPkt_eq ctx hbuf pkt (by rw [hok.alloc]; exact hok.size)
      (by rw [hok.alloc]; exact hcap)
    rw [hadd, hok.alloc]

/-- The step of a later packet whose key has a context. -/
theorem rxStep_extend (h : RxInvOn caps w) (hkey : (w.msgCtxs j).key = some (pktLabel pkt).key)
    {last : Bool}
    (hfrag : pktFrag pkt = ⟨false, last, (hdrSeq (mctpPktbufHdr pkt)).toNat,
      mctpPktbufData pkt (subSize (mctpPktbufSize pkt) mctpHdrSize)⟩) :
    rxStep (caps (pktLabel pkt).key) w pkt
      = extend 4 (caps (pktLabel pkt).key) (w.msgCtxs j).asm ⟨false, last,
        (hdrSeq (mctpPktbufHdr pkt)).toNat,
      mctpPktbufData pkt (subSize (mctpPktbufSize pkt) mctpHdrSize)⟩ := by
  rw [rxStep, asm_of_slot h.distinct hkey, hfrag]
  rfl

/-- The message handed up is what the assembly held and the packet's payload. -/
theorem handUp_message {ctx : MctpMsgCtx} {buf : MsgBuf} (hctx : CtxInUse cap pkt ctx buf)
    (hkey : ctx.key = some (pktLabel pkt).key) :
    (⟨ctx.src, ctx.dest, hdrTagOwner (mctpPktbufHdr pkt), hdrTag (mctpPktbufHdr pkt),
      readBytes (writeBytes buf.bytes ctx.bufSize
        (mctpPktbufData pkt (subSize (mctpPktbufSize pkt) mctpHdrSize))) 0
        (ctx.bufSize + subSize (mctpPktbufSize pkt) mctpHdrSize)⟩ : Message)
      = (pktLabel pkt).message (ctx.asm.data ++ mctpPktbufData pkt (subSize (mctpPktbufSize pkt)
        mctpHdrSize)) := by
  obtain ⟨_, hsrc, hdest, _⟩ := MctpMsgCtx.buf_of_key hkey
  have hread := length_writeBytes_ge (mctpPktbufData pkt (subSize (mctpPktbufSize pkt) mctpHdrSize))
    hctx.bytes
  have htake := take_writeBytes (mctpPktbufData pkt (subSize (mctpPktbufSize pkt) mctpHdrSize))
    hctx.bytes
  rw [length_mctpPktbufData] at hread htake
  rw [readBytes_of_le (by omega), List.drop_zero, htake, hctx.data, hsrc, hdest]
  rfl

theorem handUp_spec (h : RxInvOn caps w) (hkey : (w.msgCtxs j).key = some (pktLabel pkt).key)
    {bytes : List UInt8} (hstep : rxStep (caps (pktLabel pkt).key) w pkt = (none, some bytes))
    (ctx : MctpMsgCtx) :
    AssemblesOn caps pkt w
      (mctpMsgCtxDrop (mctpRx env (w.setCtx j ctx) i ((pktLabel pkt).message bytes)) i j) := by
  refine h.assembles { ctx with buf := none } hstep ?_ (.inl hkey) (MctpMsgCtx.key_of_none rfl) ?_
  · dsimp only [mctpMsgCtxDrop, Mctp.withHist, Mctp.setCtx]
    rw [mctpRx_msgCtxs]
    dsimp only
    rw [Function.update_self, Function.update_idem]
  · rw [mctpMsgCtxDrop_handed, mctpRx_handed]
    rfl

theorem busRxEom_spec (h : RxInvOn caps w) (hsize : mctpHdrSize ≤ mctpPktbufSize pkt)
    (hflags : hdrFlags (mctpPktbufHdr pkt) = mctpHdrFlagEom) :
    AssemblesOn caps pkt w (busRxEom env w i pkt) := by
  have hlen := subSize_of_le hsize (subSize_lt pkt.end_ pkt.start)
  unfold busRxEom
  dsimp only
  rw [lookup_pkt]
  split
  · rename_i hslot
    refine assembles_of_none h hslot ?_
    rw [rxStep, asm_of_slot_none hslot, pktFrag_eom hflags]
    rfl
  · rename_i j hslot
    have hkey := Table.slot_some hslot
    have hok := h.ok j _ hkey
    have hfragment := hok.fragment
    obtain ⟨buf, hctx⟩ := ctxInUse hkey hok (h.cap_lt _) pkt
    have hseq : ((w.msgCtxs j).lastSeq + 1) % 4 = hdrSeq (mctpPktbufHdr pkt) ↔
        ((w.msgCtxs j).asm.seq + 1) % 4 = (hdrSeq (mctpPktbufHdr pkt)).toNat := seq_next_iff _ _
    have hstep := rxStep_extend h hkey (pktFrag_eom hflags)
    rw [extend] at hstep
    dsimp only at hstep
    rw [length_mctpPktbufData, hctx.length] at hstep
    by_cases hnext : ((w.msgCtxs j).lastSeq + 1) % 4 = hdrSeq (mctpPktbufHdr pkt)
    · rw [if_neg (not_not.mpr hnext)]
      rw [if_neg (not_not.mpr (hseq.mp hnext))] at hstep
      by_cases hfits :
        (w.msgCtxs j).bufSize + subSize (mctpPktbufSize pkt) mctpHdrSize ≤ caps (pktLabel pkt).key
      · rw [if_neg (by omega), if_pos rfl] at hstep
        by_cases hlarge : mctpPktbufSize pkt > (w.msgCtxs j).fragmentSize
        · rw [if_neg (by dsimp only [MctpMsgCtx.asm]; omega)] at hstep
          rw [if_pos hlarge]
          exact mctpMsgCtxDrop_spec h hkey hstep
        · rw [if_pos (by dsimp only [MctpMsgCtx.asm]; omega)] at hstep
          rw [if_neg hlarge, hctx.add, if_pos hfits]
          dsimp only
          rw [handUp_message hctx hkey]
          exact handUp_spec env h hkey hstep _
      · rw [if_pos (by omega)] at hstep
        rw [hctx.add, if_neg hfits]
        dsimp only
        rw [ite_self]
        exact mctpMsgCtxDrop_spec h hkey hstep
    · rw [if_pos hnext]
      rw [if_pos (fun heq => hnext (hseq.mpr heq))] at hstep
      exact mctpMsgCtxDrop_spec h hkey hstep

theorem busRxMiddle_spec (h : RxInvOn caps w) (hsize : mctpHdrSize ≤ mctpPktbufSize pkt)
    (hboth : hdrFlags (mctpPktbufHdr pkt) ≠ mctpHdrFlagSom ||| mctpHdrFlagEom)
    (hsom : hdrFlags (mctpPktbufHdr pkt) ≠ mctpHdrFlagSom)
    (heom : hdrFlags (mctpPktbufHdr pkt) ≠ mctpHdrFlagEom) :
    AssemblesOn caps pkt w (busRxMiddle w i pkt) := by
  have hlen := subSize_of_le hsize (subSize_lt pkt.end_ pkt.start)
  unfold busRxMiddle
  dsimp only
  rw [lookup_pkt]
  split
  · rename_i hslot
    refine assembles_of_none h hslot ?_
    rw [rxStep, asm_of_slot_none hslot, pktFrag_middle hboth hsom heom]
    rfl
  · rename_i j hslot
    have hkey := Table.slot_some hslot
    have hok := h.ok j _ hkey
    have hfragment := hok.fragment
    obtain ⟨buf, hctx⟩ := ctxInUse hkey hok (h.cap_lt _) pkt
    have hseq : ((w.msgCtxs j).lastSeq + 1) % 4 = hdrSeq (mctpPktbufHdr pkt) ↔
        ((w.msgCtxs j).asm.seq + 1) % 4 = (hdrSeq (mctpPktbufHdr pkt)).toNat := seq_next_iff _ _
    have hstep := rxStep_extend h hkey (pktFrag_middle hboth hsom heom)
    rw [extend] at hstep
    dsimp only at hstep
    rw [length_mctpPktbufData, hctx.length] at hstep
    by_cases hnext : ((w.msgCtxs j).lastSeq + 1) % 4 = hdrSeq (mctpPktbufHdr pkt)
    · rw [if_neg (not_not.mpr hnext)]
      rw [if_neg (not_not.mpr (hseq.mp hnext))] at hstep
      by_cases hfits :
        (w.msgCtxs j).bufSize + subSize (mctpPktbufSize pkt) mctpHdrSize ≤ caps (pktLabel pkt).key
      · rw [if_neg (by omega), if_neg (by decide)] at hstep
        by_cases hother : mctpPktbufSize pkt ≠ (w.msgCtxs j).fragmentSize
        · rw [if_neg (by dsimp only [MctpMsgCtx.asm]; omega)] at hstep
          rw [if_pos hother]
          exact mctpMsgCtxDrop_spec h hkey hstep
        · rw [if_pos (by dsimp only [MctpMsgCtx.asm]; omega)] at hstep
          rw [if_neg hother, hctx.add, if_pos hfits]
          have hbecomes := MctpMsgCtx.becomes_add (w.msgCtxs j) hctx.inUse hkey hok
            (mctpPktbufData pkt (subSize (mctpPktbufSize pkt) mctpHdrSize))
          rw [length_mctpPktbufData] at hbecomes
          refine h.assembles _ hstep rfl (.inl hkey) (hbecomes hfits _) ?_
          exact (List.append_nil _).symm
      · rw [if_pos (by omega)] at hstep
        rw [hctx.add, if_neg hfits]
        dsimp only
        rw [ite_self]
        exact mctpMsgCtxDrop_spec h hkey hstep
    · rw [if_pos hnext]
      rw [if_pos (fun heq => hnext (hseq.mpr heq))] at hstep
      exact mctpMsgCtxDrop_spec h hkey hstep

end Cases

/-! ### All packets -/

/-- The `switch` on the flags of `mctp_bus_rx`. -/
def busRxSwitch (env : Env δ) (w : Mctp δ) (i : Fin 2) (pkt : MctpPktbuf) : Mctp δ :=
  let flags := hdrFlags (mctpPktbufHdr pkt)
  if flags = mctpHdrFlagSom ||| mctpHdrFlagEom then busRxSingle env w i pkt
  else if flags = mctpHdrFlagSom then busRxSom env w i pkt
  else if flags = mctpHdrFlagEom then busRxEom env w i pkt
  else busRxMiddle w i pkt

/-- The instance as the `switch` finds it: the packet is captured. -/
def Mctp.seen (w : Mctp δ) (b : Nat) (pkt : MctpPktbuf) : Mctp δ :=
  w.withHist ((w.hist.deref (w.bindings b).mctp).capture w.capture pkt false)

/-- The packet is not dropped before its flags are looked at. -/
def Mctp.accepts (w : Mctp δ) (b : Nat) (pkt : MctpPktbuf) : Bool :=
  match (w.bindings b).bus with
  | none => false
  | some i =>
      decide (mctpHdrSize ≤ mctpPktbufSize pkt) && (mctpPktbufHdr pkt).src != mctpEidBroadcast &&
      (w.routePolicy != .endpoint || mctpRxDestIsLocal (w.busses i) (mctpPktbufHdr pkt).dest)

section All

variable (env : Env δ) {cap : Nat} {caps : MsgKey → Nat} {w : Mctp δ} {b : Nat} {pkt : MctpPktbuf}

theorem Mctp.accepts_iff {i : Fin 2} (hbus : (w.bindings b).bus = some i) :
    w.accepts b pkt = true ↔
      mctpHdrSize ≤ mctpPktbufSize pkt ∧ (mctpPktbufHdr pkt).src ≠ mctpEidBroadcast ∧
      (w.routePolicy = .endpoint →
        mctpRxDestIsLocal (w.busses i) (mctpPktbufHdr pkt).dest = true) := by
  unfold Mctp.accepts
  rw [hbus]
  by_cases hpolicy : w.routePolicy = .endpoint
  · simp [hpolicy, and_assoc]
  · simp [hpolicy]

theorem seen_handed (w : Mctp δ) (b : Nat) (pkt : MctpPktbuf) :
    (w.seen b pkt).hist.handed = w.hist.handed := by
  simp [Mctp.seen, Mctp.withHist]

/-- A packet that is not dropped on sight comes to the `switch`. -/
theorem mctpBusRx_taken {i : Fin 2} (hbus : (w.bindings b).bus = some i)
    (hacc : w.accepts b pkt = true) :
    mctpBusRx env w b pkt = busRxSwitch env (w.seen b pkt) i pkt := by
  obtain ⟨hsize, hsrc, hlocal⟩ := (Mctp.accepts_iff hbus).mp hacc
  have hlocal' : ¬ ((w.seen b pkt).routePolicy = .endpoint ∧
      mctpRxDestIsLocal ((w.seen b pkt).busses i) (mctpPktbufHdr pkt).dest = false) := by
    rintro ⟨hpolicy, hnot⟩
    have hyes := hlocal hpolicy
    dsimp only [Mctp.seen, Mctp.withHist] at hnot
    rw [hyes] at hnot
    cases hnot
  unfold mctpBusRx
  rw [hbus]
  dsimp only
  rw [if_neg (by omega), if_neg hsrc, ← Mctp.seen, if_neg hlocal']
  rfl

/-- **What becomes of a packet on sight.** It is dropped, and captured at most, or it comes to the
`switch`. -/
theorem mctpBusRx_cases_sight (env : Env δ) (w : Mctp δ) (b : Nat) (pkt : MctpPktbuf) :
    w.accepts b pkt = false ∧
      ((w.bindings b).bus = none ∧ mctpBusRx env w b pkt = w.withHist (w.hist.fault .nullBus) ∨
        mctpBusRx env w b pkt = w ∨ mctpBusRx env w b pkt = w.seen b pkt) ∨
      ∃ i, (w.bindings b).bus = some i ∧ w.accepts b pkt = true ∧
        mctpBusRx env w b pkt = busRxSwitch env (w.seen b pkt) i pkt := by
  cases hbus : (w.bindings b).bus with
  | none =>
      refine .inl ⟨?_, .inl ⟨rfl, ?_⟩⟩
      · rw [Mctp.accepts, hbus]
      · rw [mctpBusRx, hbus]
  | some i =>
      cases hacc : w.accepts b pkt with
      | true => exact .inr ⟨i, rfl, rfl, mctpBusRx_taken env hbus hacc⟩
      | false =>
          refine .inl ⟨rfl, .inr ?_⟩
          unfold mctpBusRx
          rw [hbus]
          dsimp only
          split
          · exact .inl rfl
          · rename_i hsize
            split
            · exact .inr rfl
            · rename_i hsrc
              split
              · exact .inr rfl
              · rename_i hlocal
                have htaken : w.accepts b pkt = true := by
                  refine (Mctp.accepts_iff hbus).mpr
                    ⟨Nat.le_of_not_lt hsize, hsrc, fun hpolicy => ?_⟩
                  by_contra hnot
                  exact hlocal ⟨hpolicy, Bool.eq_false_iff.mpr hnot⟩
                rw [hacc] at htaken
                cases htaken

/-- A packet dropped on sight shows in the capture log at most. -/
theorem mctpBusRx_dropped (h : w.accepts b pkt = false) :
    ∃ hist, hist.handed = w.hist.handed ∧ mctpBusRx env w b pkt = w.withHist hist := by
  obtain ⟨-, ⟨-, hnull⟩ | hsmall | hseen⟩ | ⟨i, -, hacc, -⟩ := mctpBusRx_cases_sight env w b pkt
  · exact ⟨w.hist.fault .nullBus, rfl, hnull⟩
  · exact ⟨w.hist, rfl, hsmall⟩
  · exact ⟨_, seen_handed w b pkt, hseen⟩
  · rw [h] at hacc
    cases hacc

/-- **A packet moves the assembly of its key by one step**, unless it is a first packet for which
there is no buffer or no context. -/
theorem busRxSwitch_spec {i : Fin 2} (h : RxInvOn caps w)
    (hmax : (pktFrag pkt).first = true → w.asm (pktLabel pkt).key = none →
      w.maxMessageSize.toNat = caps (pktLabel pkt).key)
    (hsize : mctpHdrSize ≤ mctpPktbufSize pkt) :
    AssemblesOn caps pkt w (busRxSwitch env w i pkt) ∨
      PassesOn caps w (busRxSwitch env w i pkt) ∧ Skips (w.asm (pktLabel pkt).key) (pktFrag pkt) ∧
        (env.msgAlloc w.nMsgAlloc = false ∨ w.Full ∧ (pktFrag pkt).last = false) := by
  unfold busRxSwitch
  dsimp only
  split
  · rename_i hflags
    obtain hdone | ⟨hpass, halloc⟩ := busRxSingle_spec env (i := i) h hflags
    · exact .inl hdone
    · refine .inr ⟨hpass, ?_, .inl halloc⟩
      rw [Skips, pktFrag_single hflags]
      exact ⟨rfl, .inl rfl⟩
  · rename_i hboth
    split
    · rename_i hflags
      have hfirst : (pktFrag pkt).first = true := by rw [pktFrag_som hflags]
      obtain hdone | ⟨hpass, hnone, hfail⟩ :=
        busRxSom_spec env (i := i) h (hmax hfirst) hsize hflags
      · exact .inl hdone
      · refine .inr ⟨hpass, ?_, ?_⟩
        · rw [Skips, pktFrag_som hflags]
          exact ⟨rfl, .inr hnone⟩
        · cases hfail with
          | inl halloc => exact .inl halloc
          | inr hfull =>
              refine .inr ⟨hfull, ?_⟩
              rw [pktFrag_som hflags]
    · rename_i hsom
      split
      · rename_i hflags
        exact .inl (busRxEom_spec env h hsize hflags)
      · rename_i heom
        exact .inl (busRxMiddle_spec h hsize hboth hsom heom)

theorem mctpBusRx_spec_on (h : RxInvOn caps w)
    (hmax : (pktFrag pkt).first = true → w.asm (pktLabel pkt).key = none →
      w.maxMessageSize.toNat = caps (pktLabel pkt).key)
    (hacc : w.accepts b pkt = true) :
    AssemblesOn caps pkt w (mctpBusRx env w b pkt) ∨
      PassesOn caps w (mctpBusRx env w b pkt) ∧ Skips (w.asm (pktLabel pkt).key) (pktFrag pkt) ∧
        (env.msgAlloc w.nMsgAlloc = false ∨ w.Full ∧ (pktFrag pkt).last = false) := by
  cases hbus : (w.bindings b).bus with
  | none => simp [Mctp.accepts, hbus] at hacc
  | some i =>
      have hsize := ((Mctp.accepts_iff hbus).mp hacc).1
      have hinv : RxInvOn caps (w.seen b pkt) := h.congr rfl
      rw [mctpBusRx_taken env hbus hacc]
      -- the history apart, the state the switch sees is the one before
      obtain hdone | ⟨hpass, hskips, hfail⟩ := busRxSwitch_spec env (i := i) hinv hmax hsize
      · refine .inl ⟨hdone.inv, hdone.asm, ?_⟩
        rw [← seen_handed w b pkt]
        exact hdone.handed
      · exact .inr ⟨⟨hpass.inv, hpass.asm, hpass.handed.trans (seen_handed w b pkt)⟩, hskips, hfail⟩

theorem mctpBusRx_spec (h : RxInv cap w) (hmax : w.maxMessageSize.toNat = cap)
    (hacc : w.accepts b pkt = true) :
    Assembles cap pkt w (mctpBusRx env w b pkt) ∨
      Passes cap w (mctpBusRx env w b pkt) ∧ Skips (w.asm (pktLabel pkt).key) (pktFrag pkt) ∧
        (env.msgAlloc w.nMsgAlloc = false ∨ w.Full ∧ (pktFrag pkt).last = false) := by
  obtain hdone | ⟨hpass, hskips, hfail⟩ := mctpBusRx_spec_on env h.on (fun _ _ => hmax) hacc
  · exact .inl ⟨hdone.inv.rxInv, hdone.asm, hdone.handed⟩
  · exact .inr ⟨⟨hpass.inv.rxInv, hpass.asm, hpass.handed⟩, hskips, hfail⟩

theorem mctpBusRx_cases (h : RxInv cap w) (hmax : w.maxMessageSize.toNat = cap) :
    w.accepts b pkt = true ∧ Assembles cap pkt w (mctpBusRx env w b pkt) ∨
      Passes cap w (mctpBusRx env w b pkt) ∧
        (w.accepts b pkt = true → Skips (w.asm (pktLabel pkt).key) (pktFrag pkt)) := by
  cases hacc : w.accepts b pkt with
  | false =>
      obtain ⟨hist, hhanded, hrx⟩ := mctpBusRx_dropped env hacc
      rw [hrx]
      exact .inr ⟨h.passes rfl hhanded, fun h => by cases h⟩
  | true =>
      obtain hdone | ⟨hpass, hskips, _⟩ := mctpBusRx_spec env h hmax hacc
      · exact .inl ⟨rfl, hdone⟩
      · exact .inr ⟨hpass, fun _ => hskips⟩

end All

end LibMctp
