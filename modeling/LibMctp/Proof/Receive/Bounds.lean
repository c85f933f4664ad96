import LibMctp.Proof.Instance.Reached
import LibMctp.Proof.Receive.Adds

/-!
# The table of contexts

Whatever sizes packets claim to have, and however the size limit changes between them, no two
contexts in use have one key, and no packet is copied past the end of the buffer of a context.
-/

namespace LibMctp

variable {δ : Type}

/-! ### The invariant -/

/-- A context with its buffer: what it holds fits, and so does what the size limit of its time
allows. -/
structure MctpMsgCtx.Takes (ctx : MctpMsgCtx) (buf : MsgBuf) : Prop where
  inUse : ctx.buf = some buf
  alloc : ctx.bufAllocSize = buf.size
  room : buf.size < 2 ^ 64
  size : ctx.bufSize ≤ ctx.bufAllocSize
  bytes : ctx.bufSize ≤ buf.bytes.length
  fragment : mctpHdrSize ≤ ctx.fragmentSize

/-- A context in use, between two packets. -/
structure MctpMsgCtx.Sound (ctx : MctpMsgCtx) (buf : MsgBuf) : Prop extends ctx.Takes buf where
  seq : ctx.lastSeq.toNat ≤ 3

structure TableSound (w : Mctp δ) : Prop where
  distinct : Table.Distinct MctpMsgCtx.key w.msgCtxs
  sound : ∀ j buf, (w.msgCtxs j).buf = some buf → (w.msgCtxs j).Sound buf

/-- The packet is copied into the buffer at the end of what it holds, with nothing wrapping on the
way. -/
structure CopiesWithin (ctx : MctpMsgCtx) (pkt : MctpPktbuf) (buf : MsgBuf) : Prop where
  len : subSize (mctpPktbufSize pkt) mctpHdrSize + mctpHdrSize = mctpPktbufSize pkt
  sum : addSize ctx.bufSize (subSize (mctpPktbufSize pkt) mctpHdrSize)
    = ctx.bufSize + subSize (mctpPktbufSize pkt) mctpHdrSize
  within : ctx.bufSize + subSize (mctpPktbufSize pkt) mctpHdrSize ≤ buf.size

section Sound

variable (env : Env δ) {w w' : Mctp δ} {b : Nat} {pkt : MctpPktbuf} {j : Fin 16}
  {ctx ctx' : MctpMsgCtx} {buf : MsgBuf}

theorem MctpMsgCtx.Takes.add (h : ctx.Takes buf)
    (hfits : ctx.bufSize + subSize (mctpPktbufSize pkt) mctpHdrSize ≤ buf.size) :
    mctpMsgCtxAddPkt ctx pkt = some { ctx with
      buf := some { buf with
        bytes := writeBytes buf.bytes ctx.bufSize
          (mctpPktbufData pkt (subSize (mctpPktbufSize pkt) mctpHdrSize)) }
      bufSize := ctx.bufSize + subSize (mctpPktbufSize pkt) mctpHdrSize } := by
  have hroom := h.room
  rw [← h.alloc] at hfits hroom
  rw [mctpMsgCtxAddPkt_eq ctx h.inUse pkt h.size hroom, if_pos hfits]

theorem MctpMsgCtx.Takes.refuse (h : ctx.Takes buf)
    (hfits : ¬ ctx.bufSize + subSize (mctpPktbufSize pkt) mctpHdrSize ≤ buf.size) :
    mctpMsgCtxAddPkt ctx pkt = none := by
  have hroom := h.room
  rw [← h.alloc] at hfits hroom
  rw [mctpMsgCtxAddPkt_eq ctx h.inUse pkt h.size hroom, if_neg hfits]

theorem MctpMsgCtx.Takes.copiesWithin (h : ctx.Takes buf) (hsize : mctpHdrSize ≤ mctpPktbufSize pkt)
    (hadd : mctpMsgCtxAddPkt ctx pkt = some ctx') : CopiesWithin ctx pkt buf := by
  have hlen := subSize_of_le hsize (subSize_lt pkt.end_ pkt.start)
  have hroom := h.room
  by_cases hfits : ctx.bufSize + subSize (mctpPktbufSize pkt) mctpHdrSize ≤ buf.size
  · exact ⟨by omega, addSize_of_lt (by omega), hfits⟩
  · rw [h.refuse hfits] at hadd
    cases hadd

/-- What the packet makes of the context is free, or sound again under the same key. -/
theorem MctpMsgCtx.Takes.added (h : ctx.Takes buf) (pkt : MctpPktbuf) :
    (addedCtx pkt ctx).buf = none ∨
      (addedCtx pkt ctx).key = ctx.key ∧ ∃ buf', (addedCtx pkt ctx).Sound buf' := by
  unfold addedCtx
  by_cases hfits : ctx.bufSize + subSize (mctpPktbufSize pkt) mctpHdrSize ≤ buf.size
  · rw [h.add hfits]
    dsimp only
    by_cases heom : hdrFlags (mctpPktbufHdr pkt) = mctpHdrFlagEom
    · rw [if_pos heom]
      exact .inl rfl
    · rw [if_neg heom]
      have hbytes :=
        length_writeBytes_ge (mctpPktbufData pkt (subSize (mctpPktbufSize pkt) mctpHdrSize)) h.bytes
      rw [length_mctpPktbufData] at hbytes
      refine .inr ⟨?_, _, ⟨rfl, h.alloc, h.room, ?_, hbytes, h.fragment⟩,
        Nat.le_of_lt_succ (txSeq_masked _)⟩
      · rw [MctpMsgCtx.key_of_buf h.inUse]
        exact MctpMsgCtx.key_of_buf rfl
      · dsimp only
        rw [h.alloc]
        exact hfits
  · rw [h.refuse hfits]
    exact .inl rfl

/-- A context that was made has a buffer of the size limit, and nothing in it. -/
theorem mctpMsgCtxCreate_made {src dest tag : UInt8}
    (h : mctpMsgCtxCreate env w src dest tag = (w', some j)) :
    (w.msgCtxs j).buf = none ∧ (w'.msgCtxs j).src = src ∧ (w'.msgCtxs j).dest = dest ∧
      (w'.msgCtxs j).tag = tag ∧
      (w'.msgCtxs j).bufSize = 0 ∧ (w'.msgCtxs j).bufAllocSize = w.maxMessageSize.toNat ∧
      (w'.msgCtxs j).buf = some ⟨w.nMsgAlloc, w.maxMessageSize.toNat, []⟩ := by
  obtain ⟨hfree, -⟩ := mctpMsgCtxCreate_some env h
  unfold mctpMsgCtxCreate mctpMsgAlloc at h
  split at h
  · cases h
  · dsimp only at h
    split at h
    · cases h
    · rename_i w₁ buf halloc
      cases hok : env.msgAlloc w.nMsgAlloc with
      | false =>
          rw [hok] at halloc
          cases halloc
      | true =>
      rw [hok] at halloc
      obtain ⟨rfl, hj⟩ := Prod.mk.inj h
      obtain ⟨hw₁, hbuf⟩ := Prod.mk.inj halloc
      refine ⟨hfree, ?_⟩
      dsimp only [Mctp.setCtx]
      rw [Option.some.inj hj, Function.update_self, ← Option.some.inj hbuf]
      exact ⟨rfl, rfl, rfl, rfl, rfl, rfl⟩

/-- The context a packet is added to has the key of the packet, in the slot of that key or in a free
one. -/
theorem TableSound.takes (h : TableSound w) (hsize : mctpHdrSize ≤ mctpPktbufSize pkt)
    (hadds : busRxAdds env w pkt = some (j, ctx)) :
    (∃ buf, ctx.Takes buf) ∧ ctx.key = some (pktLabel pkt).key ∧
      ((w.msgCtxs j).key = some (pktLabel pkt).key ∨
        (w.msgCtxs j).key = none ∧
          Table.slot MctpMsgCtx.key w.msgCtxs (pktLabel pkt).key = none) := by
  have hboth : ¬ hdrFlags (mctpPktbufHdr pkt) = mctpHdrFlagSom ||| mctpHdrFlagEom := by
    intro hboth
    rw [busRxAdds, if_pos hboth] at hadds
    cases hadds
  unfold busRxAdds at hadds
  dsimp only at hadds
  rw [if_neg hboth, lookup_pkt] at hadds
  cases hslot : Table.slot MctpMsgCtx.key w.msgCtxs (pktLabel pkt).key with
  | none =>
      rw [hslot] at hadds
      dsimp only at hadds
      split_ifs at hadds with hsom
      cases hcreate : mctpMsgCtxCreate env w (mctpPktbufHdr pkt).src (mctpPktbufHdr pkt).dest
        (hdrTag (mctpPktbufHdr pkt)) with
      | mk w₁ made =>
          rw [hcreate] at hadds
          cases made with
          | none => cases hadds
          | some j' =>
              dsimp only at hadds
              obtain ⟨rfl, rfl⟩ := Prod.mk.inj (Option.some.inj hadds)
              obtain ⟨hfree, hsrc, hdest, htag, hempty, halloc, hbuf⟩ :=
                mctpMsgCtxCreate_made env hcreate
              refine ⟨⟨_, hbuf, halloc, UInt64.toNat_lt _, ?_, ?_, hsize⟩, ?_,
                .inr ⟨MctpMsgCtx.key_of_none hfree, rfl⟩⟩
              · dsimp only
                rw [hempty]
                exact Nat.zero_le _
              · dsimp only
                rw [hempty]
                exact Nat.zero_le _
              · have hkey := MctpMsgCtx.key_of_buf hbuf
                rw [hsrc, hdest, htag] at hkey
                exact hkey
  | some j' =>
      rw [hslot] at hadds
      dsimp only at hadds
      have hkey := Table.slot_some hslot
      obtain ⟨⟨buf, hbuf⟩, -⟩ := MctpMsgCtx.buf_of_key hkey
      have hsound := h.sound j' buf hbuf
      split_ifs at hadds with hsom hseq heom hlarge hother
      · obtain ⟨rfl, rfl⟩ := Prod.mk.inj (Option.some.inj hadds)
        exact ⟨⟨buf, hbuf, hsound.alloc, hsound.room, Nat.zero_le _, Nat.zero_le _, hsize⟩,
          hkey, .inl hkey⟩
      · obtain ⟨rfl, rfl⟩ := Prod.mk.inj (Option.some.inj hadds)
        exact ⟨⟨buf, hsound.toTakes⟩, hkey, .inl hkey⟩
      · obtain ⟨rfl, rfl⟩ := Prod.mk.inj (Option.some.inj hadds)
        exact ⟨⟨buf, hsound.toTakes⟩, hkey, .inl hkey⟩

theorem TableSound.of_freed (h : TableSound w) (hfreed : CtxFreed w w') : TableSound w' := by
  rcases hfreed with hctxs | ⟨j, ctx, hnone, hctxs⟩
  · exact ⟨hctxs ▸ h.distinct, hctxs ▸ h.sound⟩
  · refine ⟨?_, ?_⟩
    · rw [hctxs]
      exact Table.Distinct.update_none h.distinct j (MctpMsgCtx.key_of_none hnone)
    · intro i buf hbuf
      rw [hctxs] at hbuf ⊢
      by_cases hij : i = j
      · rw [hij, Function.update_self, hnone] at hbuf
        cases hbuf
      · rw [Function.update_of_ne hij] at hbuf ⊢
        exact h.sound i buf hbuf

/-- **A packet leaves the table sound.** -/
theorem TableSound.mctpBusRx (h : TableSound w) : TableSound (mctpBusRx env w b pkt) := by
  by_cases hadds : w.accepts b pkt = true → busRxAdds env w pkt = none
  · exact h.of_freed (mctpBusRx_freed env hadds)
  · rw [Classical.not_imp] at hadds
    obtain ⟨hacc, hsome⟩ := hadds
    obtain ⟨⟨j, ctx⟩, hadds⟩ := Option.ne_none_iff_exists'.mp hsome
    obtain ⟨⟨buf, htakes⟩, hkey, hold⟩ := h.takes env (w.size_of_accepts hacc) hadds
    obtain ⟨hctxs, -⟩ := mctpBusRx_adds env hacc hadds
    rcases htakes.added pkt with hnone | ⟨hkey', buf', hsound⟩
    · exact h.of_freed (.inr ⟨j, _, hnone, hctxs⟩)
    · have hwrite : Table.Writable MctpMsgCtx.key w.msgCtxs j (pktLabel pkt).key
          (addedCtx pkt ctx) :=
        ⟨hold, .inl (hkey'.trans hkey)⟩
      refine ⟨?_, ?_⟩
      · rw [hctxs]
        exact hwrite.distinct h.distinct
      · intro i buf₁ hbuf₁
        rw [hctxs] at hbuf₁ ⊢
        by_cases hij : i = j
        · rw [hij, Function.update_self] at hbuf₁ ⊢
          rw [← Option.some.inj (hsound.inUse.symm.trans hbuf₁)]
          exact hsound
        · rw [Function.update_of_ne hij] at hbuf₁ ⊢
          exact h.sound i buf₁ hbuf₁

end Sound

/-! ### Copies -/

/-- `mctp_bus_rx` adds the packet to the context of `busRxAdds` and to no other: what it makes of
the table, and what it hands up, comes from the answer of `mctp_msg_ctx_add_pkt` on that context.
The packet is copied within the buffer it goes to, and no other buffer changes. -/
structure PacketSafe (env : Env δ) (w : Mctp δ) (b : Nat) (pkt : MctpPktbuf) : Prop where
  adds : ∀ j ctx, w.accepts b pkt = true → busRxAdds env w pkt = some (j, ctx) →
    (mctpBusRx env w b pkt).msgCtxs = Function.update w.msgCtxs j (addedCtx pkt ctx) ∧
      (mctpBusRx env w b pkt).hist.handed = w.hist.handed ++ (addedMsg pkt ctx).toList
  passes : (w.accepts b pkt = true → busRxAdds env w pkt = none) →
    CtxFreed w (mctpBusRx env w b pkt)
  copies : ∀ j ctx ctx', w.accepts b pkt = true → busRxAdds env w pkt = some (j, ctx) →
    mctpMsgCtxAddPkt ctx pkt = some ctx' →
    ∃ buf, ctx.buf = some buf ∧ CopiesWithin ctx pkt buf
  others : ∀ j buf', ((mctpBusRx env w b pkt).msgCtxs j).buf = some buf' →
    (w.msgCtxs j).buf = some buf' ∨
    ∃ ctx ctx', w.accepts b pkt = true ∧ busRxAdds env w pkt = some (j, ctx) ∧
      mctpMsgCtxAddPkt ctx pkt = some ctx' ∧
      ctx'.buf = some buf'
  single : w.accepts b pkt = true →
    subSize (subSize pkt.end_ pkt.mctpHdrOff) mctpHdrSize + mctpHdrSize
      = subSize pkt.end_ pkt.mctpHdrOff

theorem addedCtx_buf {pkt : MctpPktbuf} {ctx : MctpMsgCtx} {buf' : MsgBuf}
    (h : (addedCtx pkt ctx).buf = some buf') :
    ∃ ctx', mctpMsgCtxAddPkt ctx pkt = some ctx' ∧ ctx'.buf = some buf' := by
  unfold addedCtx at h
  cases hadd : mctpMsgCtxAddPkt ctx pkt with
  | none =>
      rw [hadd] at h
      cases h
  | some ctx' =>
      rw [hadd] at h
      dsimp only at h
      split at h
      · cases h
      · exact ⟨ctx', rfl, h⟩

theorem TableSound.packetSafe (env : Env δ) {w : Mctp δ} (h : TableSound w) (b : Nat)
    {pkt : MctpPktbuf} (hstart : pkt.start = pkt.mctpHdrOff) : PacketSafe env w b pkt where
  adds _ _ := mctpBusRx_adds env
  passes := mctpBusRx_freed env
  copies j ctx ctx' hacc hadds hadd := by
    have hsize := w.size_of_accepts hacc
    obtain ⟨⟨buf, htakes⟩, -⟩ := h.takes env hsize hadds
    exact ⟨buf, htakes.inUse, htakes.copiesWithin hsize hadd⟩
  others j buf' hbuf' := by
    by_cases hadds : w.accepts b pkt = true → busRxAdds env w pkt = none
    · rcases mctpBusRx_freed env hadds with hctxs | ⟨j', ctx, hnone, hctxs⟩
      · rw [hctxs] at hbuf'
        exact .inl hbuf'
      · rw [hctxs] at hbuf'
        by_cases hj : j = j'
        · rw [hj, Function.update_self, hnone] at hbuf'
          cases hbuf'
        · rw [Function.update_of_ne hj] at hbuf'
          exact .inl hbuf'
    · rw [Classical.not_imp] at hadds
      obtain ⟨hacc, hsome⟩ := hadds
      obtain ⟨⟨j', ctx⟩, hadds⟩ := Option.ne_none_iff_exists'.mp hsome
      obtain ⟨hctxs, -⟩ := mctpBusRx_adds env hacc hadds
      rw [hctxs] at hbuf'
      by_cases hj : j = j'
      · rw [hj, Function.update_self] at hbuf'
        obtain ⟨ctx', hadd, hctx'⟩ := addedCtx_buf hbuf'
        exact .inr ⟨ctx, ctx', hacc, hj ▸ hadds, hadd, hctx'⟩
      · rw [Function.update_of_ne hj] at hbuf'
        exact .inl hbuf'
  single hacc := by
    have hsize := w.size_of_accepts hacc
    unfold mctpPktbufSize at hsize
    rw [hstart] at hsize
    have hlen := subSize_of_le hsize (subSize_lt _ _)
    omega

/-! ### Runs -/

/-- Packets of any binding, and changes of the size limit. -/
inductive TableOp where
  | busRx (b : Nat) (pkt : MctpPktbuf)
  | setMaxMessageSize (messageSize : UInt64)

def tableStep (env : Env δ) (w : Mctp δ) : TableOp → Mctp δ
  | .busRx b pkt => mctpBusRx env w b pkt
  | .setMaxMessageSize messageSize => mctpSetMaxMessageSize w messageSize

theorem TableSound.step {env : Env δ} {w : Mctp δ} (h : TableSound w) (op : TableOp) :
    TableSound (tableStep env w op) := by
  cases op with
  | busRx b pkt => exact h.mctpBusRx env
  | setMaxMessageSize messageSize => exact ⟨h.distinct, h.sound⟩

theorem TableSound.run {env : Env δ} {w : Mctp δ} (h : TableSound w) (ops : List TableOp) :
    TableSound (ops.foldl (tableStep env) w) := by
  induction ops generalizing w with
  | nil => exact h
  | cons op ops ih => exact ih (h.step op)

theorem tableSound_empty {w : Mctp δ} (hempty : ∀ j, (w.msgCtxs j).buf = none) : TableSound w := by
  refine ⟨fun i j k hi => ?_, fun j buf hbuf => ?_⟩
  · rw [MctpMsgCtx.key_of_none (hempty i)] at hi
    cases hi
  · rw [hempty j] at hbuf
    cases hbuf

/-- A packet of the largest size there is. -/
def hugePkt : MctpPktbuf := { oneByte 0x18 with end_ := 2 ^ 64 - 1 }

/-- A first packet, and then no room for any. -/
def shrinkOps : List TableOp := [.busRx 0 (oneByte 0x88), .setMaxMessageSize 0]

/-- EID 9 after these. -/
def shrunken : Mctp Unit :=
  shrinkOps.foldl (tableStep plainEnv) (mctpRegisterBus plainEnv plainInstance 0 9).1

/-- The limit for a key: the size of the buffer of its context, or the size that a context would be
made with. -/
def Mctp.limit (w : Mctp δ) (k : MsgKey) : Nat :=
  match Table.get MctpMsgCtx.key w.msgCtxs k with
  | some ctx => ctx.bufAllocSize
  | none => w.maxMessageSize.toNat

section Limit

variable {w : Mctp δ} {k : MsgKey}

theorem limit_of_slot (hdistinct : Table.Distinct MctpMsgCtx.key w.msgCtxs) {j : Fin 16}
    (hj : (w.msgCtxs j).key = some k) :
    w.limit k = (w.msgCtxs j).bufAllocSize := by
  rw [Mctp.limit, Table.get, Table.slot_of_distinct hdistinct hj]
  rfl

theorem limit_of_asm_none (h : w.asm k = none) : w.limit k = w.maxMessageSize.toNat := by
  rw [Mctp.asm, Option.map_eq_none_iff] at h
  rw [Mctp.limit, h]

theorem TableSound.rxInvOn (h : TableSound w) : RxInvOn w.limit w where
  distinct := h.distinct
  ok j k hj := by
    obtain ⟨⟨buf, hbuf⟩, -⟩ := MctpMsgCtx.buf_of_key hj
    have hsound := h.sound j buf hbuf
    rw [limit_of_slot h.distinct hj]
    refine ⟨rfl, hsound.size, fun buf' hbuf' => ?_, hsound.fragment⟩
    rw [← Option.some.inj (hbuf.symm.trans hbuf')]
    exact hsound.bytes
  cap_lt k := by
    unfold Mctp.limit Table.get
    cases hslot : Table.slot MctpMsgCtx.key w.msgCtxs k with
    | none => exact w.maxMessageSize.toNat_lt
    | some j =>
        obtain ⟨⟨buf, hbuf⟩, -⟩ := MctpMsgCtx.buf_of_key (Table.slot_some hslot)
        have hsound := h.sound j buf hbuf
        have hroom := hsound.room
        rw [← hsound.alloc] at hroom
        exact hroom

end Limit

/-! ### Every state of an endpoint -/

section Reached

variable {env : Env δ} {b : Nat} {w w' : Mctp δ}

theorem TableSound.congr (h : TableSound w) (hctxs : w'.msgCtxs = w.msgCtxs) : TableSound w' :=
  h.of_freed (.inl hctxs)

theorem mctpMessageTxRequest_msgCtxs (env : Env δ) (w : Mctp δ) (eid : UInt8) (msg : MsgBuf)
    (msgLen : Nat) :
    (mctpMessageTxRequest env w eid msg msgLen).1.msgCtxs = w.msgCtxs := by
  unfold mctpMessageTxRequest
  cases findBusForEid w eid with
  | none => exact (mctpMsgFree_txOnly env w msg (some ())).msgCtxs
  | some i =>
      cases halloc : mctpAllocTag w (w.busses i).eid eid with
      | mk w₁ given =>
          dsimp only
          rw [halloc]
          cases given with
          | none =>
              obtain ⟨rfl, -⟩ := mctpAllocTag_none halloc
              exact (mctpMsgFree_txOnly env _ msg (some ())).msgCtxs
          | some tag =>
              obtain ⟨-, -, j, -, rfl⟩ := mctpAllocTag_some halloc
              exact (mctpMessageTxAlloced_txOnly env _ eid true tag msg msgLen).msgCtxs

theorem TableSound.endpointStep (h : TableSound w) (op : EndpointOp) :
    TableSound (endpointStep env b w op) := by
  cases op with
  | messageTx eid tagOwner msgTag msg =>
      exact h.congr (mctpMessageTx_txOnly env w eid tagOwner msgTag msg).msgCtxs
  | messageTxAlloced eid tagOwner msgTag msg =>
      exact h.congr (mctpMessageTxAlloced_txOnly env w.lend eid tagOwner msgTag (w.lent msg)
        msg.length).msgCtxs
  | messageTxRequest eid msg =>
      exact h.congr (mctpMessageTxRequest_msgCtxs env w.lend eid (w.lent msg) msg.length)
  | setTxEnabled enable => exact h.congr (mctpBindingSetTxEnabled_txOnly env w b enable).msgCtxs
  | busRx pkt => exact h.mctpBusRx env
  | busSetEid eid => exact h.congr (mctpBusSetEid_rxOnly env w b eid).msgCtxs
  | _ => exact h.congr rfl

/-- **The contexts of an endpoint are in order in every state.** -/
theorem endpointRun_tableSound (env : Env δ) (bindings : Nat → MctpBinding) (now : Nat) (dev : δ)
    (b : Nat) (eid : UInt8) (ops : List EndpointOp) :
    TableSound (endpointRun env bindings now dev b eid ops) := by
  have hstart : TableSound (mctpRegisterBus env (mctpSetup bindings now dev) b eid).1 := by
    have hempty : TableSound ((mctpSetup bindings now dev).initBus b eid) :=
      tableSound_empty fun _ => rfl
    have hstarted : TableSound
        (bindingStart env ((mctpSetup bindings now dev).initBus b eid) b).1 :=
      bindingStart_invariant env (fun _ => hempty.congr rfl) fun w₁ enable h₁ =>
        h₁.congr (mctpBindingSetTxEnabled_txOnly env w₁ b enable).msgCtxs
    unfold mctpRegisterBus
    dsimp only
    split
    · exact hstarted.congr rfl
    · exact hstarted
  unfold endpointRun
  generalize (mctpRegisterBus env (mctpSetup bindings now dev) b eid).1 = w at hstart
  induction ops generalizing w with
  | nil => exact hstart
  | cons op ops ih => exact ih _ (hstart.endpointStep op)

end Reached

end LibMctp
