import LibMctp.Proof.Receive.Isolation

/-!
# What a packet is added to

`mctp_bus_rx` adds a packet to at most one context: the one it finds for the key of the packet, or
one it makes. `busRxAdds` is that context as it is when `mctp_msg_ctx_add_pkt` is called on it, and
all that a packet does to the table of contexts follows from the answer of that call. Nothing here
depends on the contexts being of one size.
-/

namespace LibMctp

variable {δ : Type}

/-- The slot and the context that `mctp_msg_ctx_add_pkt` is called on, if it is, for a packet that
is not dropped on sight. -/
def busRxAdds (env : Env δ) (w : Mctp δ) (pkt : MctpPktbuf) : Option (Fin 16 × MctpMsgCtx) :=
  let hdr := mctpPktbufHdr pkt
  let size := mctpPktbufSize pkt
  if hdrFlags hdr = mctpHdrFlagSom ||| mctpHdrFlagEom then none
  else match mctpMsgCtxLookup w hdr.src hdr.dest (hdrTag hdr) with
    | none =>
      if hdrFlags hdr = mctpHdrFlagSom then
        match mctpMsgCtxCreate env w hdr.src hdr.dest (hdrTag hdr) with
        | (_, none) => none
        | (w, some j) => some (j, { w.msgCtxs j with fragmentSize := size })
      else none
    | some j =>
      let ctx := w.msgCtxs j
      if hdrFlags hdr = mctpHdrFlagSom then
        some (j, { mctpMsgCtxReset ctx with fragmentSize := size })
      else if (ctx.lastSeq + 1) % 4 ≠ hdrSeq hdr then none
      else if hdrFlags hdr = mctpHdrFlagEom then
        if size > ctx.fragmentSize then none else some (j, ctx)
      else if size ≠ ctx.fragmentSize then none else some (j, ctx)

/-- What `mctp_bus_rx` makes of the context it added the packet to. -/
def addedCtx (pkt : MctpPktbuf) (ctx : MctpMsgCtx) : MctpMsgCtx :=
  match mctpMsgCtxAddPkt ctx pkt with
  | none => { ctx with buf := none }
  | some ctx =>
    if hdrFlags (mctpPktbufHdr pkt) = mctpHdrFlagEom then { ctx with buf := none }
    else { ctx with lastSeq := hdrSeq (mctpPktbufHdr pkt) }

/-- The message that the packet completed. -/
def addedMsg (pkt : MctpPktbuf) (ctx : MctpMsgCtx) : Option Message :=
  match mctpMsgCtxAddPkt ctx pkt with
  | none => none
  | some ctx =>
    if hdrFlags (mctpPktbufHdr pkt) = mctpHdrFlagEom then
      some ⟨ctx.src, ctx.dest, hdrTagOwner (mctpPktbufHdr pkt), hdrTag (mctpPktbufHdr pkt),
        match ctx.buf with
        | some buf => readBytes buf.bytes 0 ctx.bufSize
        | none => []⟩
    else none

section Cases

variable (env : Env δ) {w : Mctp δ} {i : Fin 2} {pkt : MctpPktbuf} {j : Fin 16} {ctx : MctpMsgCtx}

theorem busRxStart_adds (hsom : hdrFlags (mctpPktbufHdr pkt) = mctpHdrFlagSom) :
    (busRxStart w i pkt j).msgCtxs
        = Function.update w.msgCtxs j (addedCtx pkt
          { w.msgCtxs j with fragmentSize := mctpPktbufSize pkt }) ∧
      (busRxStart w i pkt j).hist.handed = w.hist.handed ∧
      addedMsg pkt { w.msgCtxs j with fragmentSize := mctpPktbufSize pkt } = none := by
  have heom : ¬ hdrFlags (mctpPktbufHdr pkt) = mctpHdrFlagEom := by simp [hsom]
  unfold busRxStart addedCtx addedMsg
  dsimp only
  cases mctpMsgCtxAddPkt { w.msgCtxs j with fragmentSize := mctpPktbufSize pkt } pkt with
  | none =>
      refine ⟨?_, mctpMsgCtxDrop_handed _ _ _, rfl⟩
      dsimp only [mctpMsgCtxDrop, Mctp.withHist, Mctp.setCtx]
      rw [Function.update_self, Function.update_idem]
  | some ctx' =>
      dsimp only
      rw [if_neg heom, if_neg heom]
      exact ⟨rfl, rfl, rfl⟩

theorem busRxSom_adds (hsom : hdrFlags (mctpPktbufHdr pkt) = mctpHdrFlagSom)
    (hadds : busRxAdds env w pkt = some (j, ctx)) :
    (busRxSom env w i pkt).msgCtxs = Function.update w.msgCtxs j (addedCtx pkt ctx) ∧
      (busRxSom env w i pkt).hist.handed = w.hist.handed ++ (addedMsg pkt ctx).toList := by
  have hboth : ¬ hdrFlags (mctpPktbufHdr pkt) = mctpHdrFlagSom ||| mctpHdrFlagEom := by simp [hsom]
  unfold busRxAdds at hadds
  dsimp only at hadds
  rw [if_neg hboth] at hadds
  unfold busRxSom
  dsimp only
  cases hlookup : mctpMsgCtxLookup w (mctpPktbufHdr pkt).src (mctpPktbufHdr pkt).dest
    (hdrTag (mctpPktbufHdr pkt)) with
  | some j' =>
      rw [hlookup] at hadds
      dsimp only at hadds ⊢
      rw [if_pos hsom] at hadds
      obtain ⟨rfl, rfl⟩ := Prod.mk.inj (Option.some.inj hadds)
      obtain ⟨hctxs, hhanded, hmsg⟩ :=
        busRxStart_adds (w := w.setCtx j' (mctpMsgCtxReset (w.msgCtxs j'))) (i := i) (j := j') hsom
      have hctx : (w.setCtx j' (mctpMsgCtxReset (w.msgCtxs j'))).msgCtxs j'
          = mctpMsgCtxReset (w.msgCtxs j') :=
        Function.update_self ..
      rw [hctx] at hctxs hmsg
      refine ⟨hctxs.trans (Function.update_idem ..), hhanded.trans ?_⟩
      rw [hmsg]
      exact (List.append_nil _).symm
  | none =>
      rw [hlookup] at hadds
      dsimp only at hadds ⊢
      rw [if_pos hsom] at hadds
      cases hcreate : mctpMsgCtxCreate env w (mctpPktbufHdr pkt).src (mctpPktbufHdr pkt).dest
        (hdrTag (mctpPktbufHdr pkt)) with
      | mk w₁ made =>
          rw [hcreate] at hadds
          cases made with
          | none => cases hadds
          | some j' =>
              dsimp only at hadds ⊢
              obtain ⟨rfl, rfl⟩ := Prod.mk.inj (Option.some.inj hadds)
              obtain ⟨-, hhanded₁, ctx₁, hctxs₁, -⟩ := mctpMsgCtxCreate_some env hcreate
              obtain ⟨hctxs, hhanded, hmsg⟩ := busRxStart_adds (w := w₁) (i := i) (j := j') hsom
              refine ⟨?_, (hhanded.trans hhanded₁).trans ?_⟩
              · rw [hctxs, hctxs₁]
                exact Function.update_idem ..
              · rw [hmsg]
                exact (List.append_nil _).symm

theorem busRxEom_adds (heom : hdrFlags (mctpPktbufHdr pkt) = mctpHdrFlagEom)
    (hadds : busRxAdds env w pkt = some (j, ctx)) :
    (busRxEom env w i pkt).msgCtxs = Function.update w.msgCtxs j (addedCtx pkt ctx) ∧
      (busRxEom env w i pkt).hist.handed = w.hist.handed ++ (addedMsg pkt ctx).toList := by
  have hboth : ¬ hdrFlags (mctpPktbufHdr pkt) = mctpHdrFlagSom ||| mctpHdrFlagEom := by simp [heom]
  have hsom : ¬ hdrFlags (mctpPktbufHdr pkt) = mctpHdrFlagSom := by simp [heom]
  unfold busRxAdds at hadds
  dsimp only at hadds
  rw [if_neg hboth] at hadds
  unfold busRxEom
  dsimp only
  cases hlookup : mctpMsgCtxLookup w (mctpPktbufHdr pkt).src (mctpPktbufHdr pkt).dest
    (hdrTag (mctpPktbufHdr pkt)) with
  | none =>
      rw [hlookup] at hadds
      dsimp only at hadds
      rw [if_neg hsom] at hadds
      cases hadds
  | some j' =>
      rw [hlookup] at hadds
      dsimp only at hadds ⊢
      rw [if_neg hsom] at hadds
      split_ifs at hadds with hseq hsize
      obtain ⟨rfl, rfl⟩ := Prod.mk.inj (Option.some.inj hadds)
      rw [if_neg hseq, if_neg hsize]
      unfold addedCtx addedMsg
      cases mctpMsgCtxAddPkt (w.msgCtxs j') pkt with
      | none =>
          refine ⟨rfl, ?_⟩
          rw [mctpMsgCtxDrop_handed]
          exact (List.append_nil _).symm
      | some ctx' =>
          dsimp only
          rw [if_pos heom, if_pos heom]
          refine ⟨?_, ?_⟩
          · dsimp only [mctpMsgCtxDrop, Mctp.withHist, Mctp.setCtx]
            rw [mctpRx_msgCtxs]
            dsimp only
            rw [Function.update_self, Function.update_idem]
          · rw [mctpMsgCtxDrop_handed, mctpRx_handed]
            rfl

theorem busRxMiddle_adds
    (hboth : ¬ hdrFlags (mctpPktbufHdr pkt) = mctpHdrFlagSom ||| mctpHdrFlagEom)
    (hsom : ¬ hdrFlags (mctpPktbufHdr pkt) = mctpHdrFlagSom)
    (heom : ¬ hdrFlags (mctpPktbufHdr pkt) = mctpHdrFlagEom)
    (hadds : busRxAdds env w pkt = some (j, ctx)) :
    (busRxMiddle w i pkt).msgCtxs = Function.update w.msgCtxs j (addedCtx pkt ctx) ∧
      (busRxMiddle w i pkt).hist.handed = w.hist.handed ++ (addedMsg pkt ctx).toList := by
  unfold busRxAdds at hadds
  dsimp only at hadds
  rw [if_neg hboth] at hadds
  unfold busRxMiddle
  dsimp only
  cases hlookup : mctpMsgCtxLookup w (mctpPktbufHdr pkt).src (mctpPktbufHdr pkt).dest
    (hdrTag (mctpPktbufHdr pkt)) with
  | none =>
      rw [hlookup] at hadds
      dsimp only at hadds
      rw [if_neg hsom] at hadds
      cases hadds
  | some j' =>
      rw [hlookup] at hadds
      dsimp only at hadds ⊢
      rw [if_neg hsom] at hadds
      split_ifs at hadds with hseq hsize
      obtain ⟨rfl, rfl⟩ := Prod.mk.inj (Option.some.inj hadds)
      rw [if_neg hseq, if_neg hsize]
      unfold addedCtx addedMsg
      cases mctpMsgCtxAddPkt (w.msgCtxs j') pkt with
      | none =>
          refine ⟨rfl, ?_⟩
          rw [mctpMsgCtxDrop_handed]
          exact (List.append_nil _).symm
      | some ctx' =>
          dsimp only
          rw [if_neg heom, if_neg heom]
          exact ⟨rfl, (List.append_nil _).symm⟩

/-! A packet that is added to nothing frees a context at most. -/

/-- The table is as it was, or one slot of it was freed or is still free. -/
def CtxFreed (w w' : Mctp δ) : Prop :=
  w'.msgCtxs = w.msgCtxs ∨ ∃ j ctx, ctx.buf = none ∧ w'.msgCtxs = Function.update w.msgCtxs j ctx

theorem busRxSom_freed (hsom : hdrFlags (mctpPktbufHdr pkt) = mctpHdrFlagSom)
    (hadds : busRxAdds env w pkt = none) :
    CtxFreed w (busRxSom env w i pkt) := by
  have hboth : ¬ hdrFlags (mctpPktbufHdr pkt) = mctpHdrFlagSom ||| mctpHdrFlagEom := by simp [hsom]
  unfold busRxAdds at hadds
  dsimp only at hadds
  rw [if_neg hboth] at hadds
  unfold busRxSom
  dsimp only
  cases hlookup : mctpMsgCtxLookup w (mctpPktbufHdr pkt).src (mctpPktbufHdr pkt).dest
    (hdrTag (mctpPktbufHdr pkt)) with
  | some j' =>
      rw [hlookup] at hadds
      dsimp only at hadds
      rw [if_pos hsom] at hadds
      cases hadds
  | none =>
      rw [hlookup] at hadds
      dsimp only at hadds ⊢
      rw [if_pos hsom] at hadds
      cases hcreate : mctpMsgCtxCreate env w (mctpPktbufHdr pkt).src (mctpPktbufHdr pkt).dest
        (hdrTag (mctpPktbufHdr pkt)) with
      | mk w₁ made =>
          rw [hcreate] at hadds
          cases made with
          | some j' => cases hadds
          | none =>
              obtain ⟨rfl, -⟩ | ⟨-, -, j', ctx', -, hctxs, hbuf⟩ :=
                mctpMsgCtxCreate_none env hcreate
              · exact .inl rfl
              · exact .inr ⟨j', ctx', hbuf, hctxs⟩

theorem ctxFreed_drop (w : Mctp δ) (i : Fin 2) (j : Fin 16) : CtxFreed w (mctpMsgCtxDrop w i j) :=
  .inr ⟨j, { w.msgCtxs j with buf := none }, rfl, rfl⟩

theorem busRxEom_freed (heom : hdrFlags (mctpPktbufHdr pkt) = mctpHdrFlagEom)
    (hadds : busRxAdds env w pkt = none) :
    CtxFreed w (busRxEom env w i pkt) := by
  have hboth : ¬ hdrFlags (mctpPktbufHdr pkt) = mctpHdrFlagSom ||| mctpHdrFlagEom := by simp [heom]
  have hsom : ¬ hdrFlags (mctpPktbufHdr pkt) = mctpHdrFlagSom := by simp [heom]
  unfold busRxAdds at hadds
  dsimp only at hadds
  rw [if_neg hboth] at hadds
  unfold busRxEom
  dsimp only
  cases hlookup : mctpMsgCtxLookup w (mctpPktbufHdr pkt).src (mctpPktbufHdr pkt).dest
    (hdrTag (mctpPktbufHdr pkt)) with
  | none => exact .inl rfl
  | some j' =>
      rw [hlookup] at hadds
      dsimp only at hadds ⊢
      rw [if_neg hsom] at hadds
      split
      · exact ctxFreed_drop w i j'
      · rename_i hseq
        rw [if_neg hseq, if_pos heom] at hadds
        split
        · exact ctxFreed_drop w i j'
        · rename_i hsize
          rw [if_neg hsize] at hadds
          cases hadds

theorem busRxMiddle_freed
    (hboth : ¬ hdrFlags (mctpPktbufHdr pkt) = mctpHdrFlagSom ||| mctpHdrFlagEom)
    (hsom : ¬ hdrFlags (mctpPktbufHdr pkt) = mctpHdrFlagSom)
    (heom : ¬ hdrFlags (mctpPktbufHdr pkt) = mctpHdrFlagEom) (hadds : busRxAdds env w pkt = none) :
    CtxFreed w (busRxMiddle w i pkt) := by
  unfold busRxAdds at hadds
  dsimp only at hadds
  rw [if_neg hboth] at hadds
  unfold busRxMiddle
  dsimp only
  cases hlookup : mctpMsgCtxLookup w (mctpPktbufHdr pkt).src (mctpPktbufHdr pkt).dest
    (hdrTag (mctpPktbufHdr pkt)) with
  | none => exact .inl rfl
  | some j' =>
      rw [hlookup] at hadds
      dsimp only at hadds ⊢
      rw [if_neg hsom] at hadds
      split
      · exact ctxFreed_drop w i j'
      · rename_i hseq
        rw [if_neg hseq, if_neg heom] at hadds
        split
        · exact ctxFreed_drop w i j'
        · rename_i hsize
          rw [if_neg hsize] at hadds
          cases hadds

end Cases

/-! ### All packets -/

section All

variable (env : Env δ) {w : Mctp δ} {b : Nat} {pkt : MctpPktbuf} {j : Fin 16} {ctx : MctpMsgCtx}

/-- The history does not matter to where a packet is added. -/
theorem busRxAdds_withHist (w : Mctp δ) (hist : History) (pkt : MctpPktbuf) :
    busRxAdds env (w.withHist hist) pkt = busRxAdds env w pkt := by
  unfold busRxAdds mctpMsgCtxCreate mctpMsgAlloc mctpMsgCtxLookup
  dsimp only [Mctp.withHist]
  cases Table.first (fun ctx : MctpMsgCtx => ctx.buf.isNone) w.msgCtxs with
  | none => rfl
  | some j =>
      cases env.msgAlloc w.nMsgAlloc with
      | true => rfl
      | false => rfl

theorem Mctp.size_of_accepts (hacc : w.accepts b pkt = true) :
    mctpHdrSize ≤ mctpPktbufSize pkt := by
  cases hbus : (w.bindings b).bus with
  | none => simp [Mctp.accepts, hbus] at hacc
  | some i => exact ((Mctp.accepts_iff hbus).mp hacc).1

theorem mctpBusRx_adds (hacc : w.accepts b pkt = true)
    (hadds : busRxAdds env w pkt = some (j, ctx)) :
    (mctpBusRx env w b pkt).msgCtxs = Function.update w.msgCtxs j (addedCtx pkt ctx) ∧
      (mctpBusRx env w b pkt).hist.handed = w.hist.handed ++ (addedMsg pkt ctx).toList := by
  cases hbus : (w.bindings b).bus with
  | none => simp [Mctp.accepts, hbus] at hacc
  | some i =>
      have hadds' : busRxAdds env (w.seen b pkt) pkt = some (j, ctx) :=
        (busRxAdds_withHist env w _ pkt).trans hadds
      rw [mctpBusRx_taken env hbus hacc, ← seen_handed w b pkt]
      unfold busRxSwitch
      dsimp only
      split
      · rename_i hboth
        unfold busRxAdds at hadds
        dsimp only at hadds
        rw [if_pos hboth] at hadds
        cases hadds
      · rename_i hboth
        split
        · rename_i hsom
          exact busRxSom_adds env hsom hadds'
        · rename_i hsom
          split
          · rename_i heom
            exact busRxEom_adds env heom hadds'
          · rename_i heom
            exact busRxMiddle_adds env hboth hsom heom hadds'

theorem mctpBusRx_freed (h : w.accepts b pkt = true → busRxAdds env w pkt = none) :
    CtxFreed w (mctpBusRx env w b pkt) := by
  obtain ⟨-, ⟨-, hrx⟩ | hrx | hrx⟩ | ⟨i, -, hacc, hrx⟩ := mctpBusRx_cases_sight env w b pkt <;>
    rw [hrx]
  · exact .inl rfl
  · exact .inl rfl
  · exact .inl rfl
  · have hadds : busRxAdds env (w.seen b pkt) pkt = none :=
      (busRxAdds_withHist env w _ pkt).trans (h hacc)
    have hfreed : ∀ {w'}, CtxFreed (w.seen b pkt) w' → CtxFreed w w' := fun h' => h'
    unfold busRxSwitch
    dsimp only
    split
    · exact .inl (busRxSingle_msgCtxs env i pkt (w.seen b pkt))
    · rename_i hboth
      split
      · rename_i hsom
        exact hfreed (busRxSom_freed env hsom hadds)
      · rename_i hsom
        split
        · rename_i heom
          exact hfreed (busRxEom_freed env heom hadds)
        · rename_i heom
          exact hfreed (busRxMiddle_freed env hboth hsom heom hadds)

end All

end LibMctp
