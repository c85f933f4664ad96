import Mathlib.Data.Fintype.EquivFin
import LibMctp.Lib.Run
import LibMctp.Proof.Instance.Linkage
import LibMctp.Proof.Receive.Anon
import LibMctp.Proof.Receive.Endpoint

/-!
# The early check of the destination

`mctp_bus_rx` drops a packet for another endpoint before reassembly, and `mctp_rx` would drop the
message anyway. Without the early check the packets for others take contexts as well, so the
contexts of the endpoint's own messages lie in other slots. While a context can be had for each
message that does not show: the endpoint is called and answers alike, and the contexts of its own
messages are the same.
-/

namespace LibMctp

open Fragment Reassembly

variable {δ : Type}

/-- `mctp_bus_rx` without the early check of the destination. -/
def mctpBusRxUnfiltered (env : Env δ) (w : Mctp δ) (b : Nat) (pkt : MctpPktbuf) : Mctp δ :=
  match (w.bindings b).bus with
  | none => w.withHist (w.hist.fault .nullBus)
  | some i =>
    if mctpPktbufSize pkt < mctpHdrSize then w
    else
      let w := w.withHist ((w.hist.deref (w.bindings b).mctp).capture w.capture pkt false)
      let hdr := mctpPktbufHdr pkt
      if hdr.src = mctpEidBroadcast then w
      else if hdrFlags hdr = mctpHdrFlagSom ||| mctpHdrFlagEom then busRxSingle env w i pkt
      else if hdrFlags hdr = mctpHdrFlagSom then busRxSom env w i pkt
      else if hdrFlags hdr = mctpHdrFlagEom then busRxEom env w i pkt
      else busRxMiddle w i pkt

def unfilteredRun (env : Env δ) (b : Nat) (w : Mctp δ) (pkts : List MctpPktbuf) : Mctp δ :=
  pkts.foldl (fun w pkt => mctpBusRxUnfiltered env w b pkt) w

/-- Without the early check, the packet is a first packet that finds all contexts in use. -/
def Mctp.Exhausts (w : Mctp δ) (pkt : MctpPktbuf) : Prop :=
  let hdr := mctpPktbufHdr pkt
  mctpHdrSize ≤ mctpPktbufSize pkt ∧ hdr.src ≠ mctpEidBroadcast ∧ hdrFlags hdr = mctpHdrFlagSom ∧
    mctpMsgCtxLookup w hdr.src hdr.dest (hdrTag hdr) = none ∧ w.Full

instance (w : Mctp δ) : Decidable w.Full :=
  inferInstanceAs (Decidable (∀ j, (w.msgCtxs j).buf.isSome = true))

instance (w : Mctp δ) (pkt : MctpPktbuf) : Decidable (w.Exhausts pkt) :=
  inferInstanceAs (Decidable (_ ∧ _ ∧ _ ∧ _ ∧ _))

/-! ### Contexts without their slots -/

/-- A context without the address of its buffer, and without what the buffer holds past the
message. -/
def MctpMsgCtx.contents (ctx : MctpMsgCtx) : MctpMsgCtx :=
  { ctx with buf := ctx.buf.map fun buf => ⟨0, 0, buf.bytes.take ctx.bufSize⟩ }

/-- The contexts in use. -/
def Mctp.contexts (w : Mctp δ) : List MctpMsgCtx :=
  (Table.entries MctpMsgCtx.key w.msgCtxs).map MctpMsgCtx.contents

theorem MctpMsgCtx.key_contents (ctx : MctpMsgCtx) : ctx.contents.key = ctx.key := by
  simp [MctpMsgCtx.contents, MctpMsgCtx.key]

/-- The contents of a context follow from its assembly. -/
theorem MctpMsgCtx.contents_eq {cap : Nat} {k : MsgKey} {ctx ctx' : MctpMsgCtx}
    (hkey : ctx.key = some k) (hkey' : ctx'.key = some k) (hok : ctx.Ok cap) (hok' : ctx'.Ok cap)
    (hasm : ctx.asm = ctx'.asm) : ctx.contents = ctx'.contents := by
  obtain ⟨⟨buf, hbuf⟩, hsrc, hdest, htag⟩ := MctpMsgCtx.buf_of_key hkey
  obtain ⟨⟨buf', hbuf'⟩, hsrc', hdest', htag'⟩ := MctpMsgCtx.buf_of_key hkey'
  have hdata : buf.bytes.take ctx.bufSize = buf'.bytes.take ctx'.bufSize := by
    have hdata := congrArg Partial.data hasm
    simp only [MctpMsgCtx.asm, hbuf, hbuf'] at hdata
    exact hdata
  have hsize : ctx.bufSize = ctx'.bufSize := by
    have hlen := congrArg List.length hdata
    rw [List.length_take, List.length_take, Nat.min_eq_left (hok.bytes buf hbuf),
      Nat.min_eq_left (hok'.bytes buf' hbuf')] at hlen
    exact hlen
  have hseq : ctx.lastSeq = ctx'.lastSeq := UInt8.toNat_inj.mp (congrArg Partial.seq hasm)
  have hfragment : ctx.fragmentSize = ctx'.fragmentSize := by
    have hsize := congrArg Partial.size hasm
    have hle := hok.fragment
    have hle' := hok'.fragment
    dsimp only [MctpMsgCtx.asm] at hsize
    omega
  have halloc : ctx.bufAllocSize = ctx'.bufAllocSize := hok.alloc.trans hok'.alloc.symm
  unfold MctpMsgCtx.contents
  rw [hbuf, hbuf', hsrc, hsrc', hdest, hdest', htag, htag', hseq, hfragment, halloc]
  simp only [Option.map_some]
  rw [hdata, hsize]

/-- The contents of the context of a key. -/
theorem RxInv.map_contents {cap : Nat} {w u : Mctp δ} {k : MsgKey} (hw : RxInv cap w)
    (hu : RxInv cap u) (h : w.asm k = u.asm k) :
    (Table.get MctpMsgCtx.key w.msgCtxs k).map MctpMsgCtx.contents
      = (Table.get MctpMsgCtx.key u.msgCtxs k).map MctpMsgCtx.contents := by
  unfold Mctp.asm Table.get at *
  cases hslot : Table.slot MctpMsgCtx.key w.msgCtxs k with
  | none =>
      rw [hslot] at h
      cases hslot' : Table.slot MctpMsgCtx.key u.msgCtxs k with
      | none => rfl
      | some j' =>
          rw [hslot'] at h
          cases h
  | some j =>
      rw [hslot] at h
      cases hslot' : Table.slot MctpMsgCtx.key u.msgCtxs k with
      | none =>
          rw [hslot'] at h
          cases h
      | some j' =>
          rw [hslot'] at h
          have hkey := Table.slot_some hslot
          have hkey' := Table.slot_some hslot'
          exact congrArg some (MctpMsgCtx.contents_eq hkey hkey' (hw.ok j k hkey) (hu.ok j' k hkey')
            (Option.some.inj h))

/-! ### The switch -/

section Switch

variable {env : Env δ} {cap : Nat} {w : Mctp δ} {i : Fin 2} {pkt : MctpPktbuf}

theorem mctpMsgCtxDrop_anon (w : Mctp δ) (i : Fin 2) (j : Fin 16) :
    (mctpMsgCtxDrop w i j).anon = w.anon := by
  unfold mctpMsgCtxDrop
  dsimp only
  split
  · exact Mctp.anon_withHist_eq w (History.anon_mctpMsgFree _ _ _)
  · exact Mctp.anon_withHist_eq w (History.anon_deref _ _)

theorem busRxStart_anon (w : Mctp δ) (i : Fin 2) (pkt : MctpPktbuf) (j : Fin 16) :
    (busRxStart w i pkt j).anon = w.anon := by
  unfold busRxStart
  dsimp only
  split
  · rw [mctpMsgCtxDrop_anon, Mctp.anon_setCtx]
  · exact Mctp.anon_setCtx w j _

theorem busRxMiddle_anon (w : Mctp δ) (i : Fin 2) (pkt : MctpPktbuf) :
    (busRxMiddle w i pkt).anon = w.anon := by
  unfold busRxMiddle
  dsimp only
  split
  · rfl
  · rename_i j _
    split
    · exact mctpMsgCtxDrop_anon w i j
    · split
      · exact mctpMsgCtxDrop_anon w i j
      · split
        · exact mctpMsgCtxDrop_anon w i j
        · exact Mctp.anon_setCtx w j _

variable (halloc : ∀ n, env.msgAlloc n = true)

include halloc

theorem mctpMsgCtxCreate_anon (w : Mctp δ) (src dest tag : UInt8) :
    (mctpMsgCtxCreate env w src dest tag).1.anon = w.anon := by
  unfold mctpMsgCtxCreate
  split
  · rfl
  · rename_i j _
    obtain ⟨w', buf, hbuf, hanon, -⟩ := mctpMsgAlloc_anon halloc w w.maxMessageSize.toNat (some ())
    dsimp only
    rw [hbuf]
    exact (Mctp.anon_setCtx w' j _).trans hanon

theorem busRxSom_anon (w : Mctp δ) (i : Fin 2) (pkt : MctpPktbuf) :
    (busRxSom env w i pkt).anon = w.anon := by
  unfold busRxSom
  dsimp only
  split
  · rw [busRxStart_anon, Mctp.anon_setCtx]
  · have hcreate := mctpMsgCtxCreate_anon halloc w (mctpPktbufHdr pkt).src (mctpPktbufHdr pkt).dest
      (hdrTag (mctpPktbufHdr pkt))
    split <;> rename_i hcase <;> rw [hcase] at hcreate
    · exact hcreate
    · rw [busRxStart_anon]
      exact hcreate

/-- Up to contexts and addresses, the packet did nothing, or what `mctp_rx` does. -/
def Hands (env : Env δ) (i : Fin 2) (w w' : Mctp δ) : Prop :=
  w'.hist.handed = w.hist.handed ∧ w'.anon = w.anon ∨
    ∃ w₁ msg, w'.hist.handed = w.hist.handed ++ [msg] ∧ w₁.anon = w.anon ∧
      w'.anon = (mctpRx env w₁ i msg).anon

theorem busRxSingle_hands (w : Mctp δ) (i : Fin 2) (pkt : MctpPktbuf) :
    Hands env i w (busRxSingle env w i pkt) := by
  have hdup := (mctpMsgDup_txOnly env w
    (mctpPktbufData pkt (subSize (subSize pkt.end_ pkt.mctpHdrOff) mctpHdrSize)) (some ())).handed
  unfold busRxSingle
  dsimp only
  unfold mctpMsgDup at hdup ⊢
  obtain ⟨w₁, buf, hbuf, hanon, -⟩ := mctpMsgAlloc_anon halloc w
    (mctpPktbufData pkt (subSize (subSize pkt.end_ pkt.mctpHdrOff) mctpHdrSize)).length (some ())
  rw [hbuf] at hdup ⊢
  refine .inr ⟨w₁, _, ?_, hanon, mctpMsgFree_anon _ _ _⟩
  rw [(mctpMsgFree_txOnly env _ _ _).handed, mctpRx_handed, hdup]

omit halloc in
theorem busRxEom_hands (w : Mctp δ) (i : Fin 2) (pkt : MctpPktbuf) :
    Hands env i w (busRxEom env w i pkt) := by
  have hdrop : ∀ j, Hands env i w (mctpMsgCtxDrop w i j) :=
    fun j => .inl ⟨mctpMsgCtxDrop_handed w i j, mctpMsgCtxDrop_anon w i j⟩
  unfold busRxEom
  dsimp only
  split
  · exact .inl ⟨rfl, rfl⟩
  · rename_i j _
    split
    · exact hdrop j
    · split
      · exact hdrop j
      · split
        · exact hdrop j
        · rename_i ctx _
          refine .inr ⟨w.setCtx j ctx, _, ?_, Mctp.anon_setCtx w j ctx, mctpMsgCtxDrop_anon _ i j⟩
          rw [mctpMsgCtxDrop_handed, mctpRx_handed]
          rfl

theorem busRxSwitch_hands (w : Mctp δ) (i : Fin 2) (pkt : MctpPktbuf) :
    Hands env i w (busRxSwitch env w i pkt) := by
  unfold busRxSwitch
  dsimp only
  split
  · exact busRxSingle_hands halloc w i pkt
  · split
    · exact .inl ⟨(busRxSom_passive env w i pkt).handed, busRxSom_anon halloc w i pkt⟩
    · split
      · exact busRxEom_hands w i pkt
      · exact .inl ⟨(busRxMiddle_passive env w i pkt).handed, busRxMiddle_anon w i pkt⟩

/-- What a packet does where a context can be had for it. -/
theorem busRxSwitch_endpoint (h : RxInv cap w) (hmax : w.maxMessageSize.toNat = cap)
    (hpolicy : w.routePolicy = .endpoint) (hsize : mctpHdrSize ≤ mctpPktbufSize pkt)
    (hroom : hdrFlags (mctpPktbufHdr pkt) = mctpHdrFlagSom → w.asm (pktLabel pkt).key = none →
      ¬ w.Full) :
    Assembles cap pkt w (busRxSwitch env w i pkt) ∧ (busRxSwitch env w i pkt).anon =
      match (rxStep cap w pkt).2 with
      | none => w.anon
      | some bytes => (mctpRx env w i ((pktLabel pkt).message bytes)).anon := by
  have hdone : Assembles cap pkt w (busRxSwitch env w i pkt) := by
    obtain hdone | ⟨-, hskips, hfail⟩ := busRxSwitch_spec env (i := i) h.on (fun _ _ => hmax) hsize
    · exact ⟨hdone.inv.rxInv, hdone.asm, hdone.handed⟩
    · exfalso
      obtain hnot | ⟨hfull, hlast⟩ := hfail
      · rw [halloc] at hnot
        cases hnot
      · have hsom : hdrFlags (mctpPktbufHdr pkt) = mctpHdrFlagSom := by
          have hfirst := hskips.1
          simp only [pktFrag, decide_eq_true_eq, decide_eq_false_iff_not, not_or] at hfirst hlast
          exact hfirst.resolve_left hlast.1
        refine hroom hsom (hskips.2.resolve_left ?_) hfull
        rw [hlast]
        exact Bool.false_ne_true
  refine ⟨hdone, ?_⟩
  have hhanded := hdone.handed
  obtain ⟨hsame, hanon⟩ | ⟨w₁, msg, hmsg, hw₁, hanon⟩ := busRxSwitch_hands halloc w i pkt
  · cases hstep : (rxStep cap w pkt).2 with
    | none => exact hanon
    | some bytes =>
        rw [hsame, hstep] at hhanded
        simp at hhanded
  · cases hstep : (rxStep cap w pkt).2 with
    | none =>
        rw [hmsg, hstep] at hhanded
        simp at hhanded
    | some bytes =>
        rw [hmsg, hstep] at hhanded
        have heq : msg = (pktLabel pkt).message bytes := by simpa using hhanded
        have hpolicy₁ : w₁.routePolicy = w.routePolicy :=
          Mctp.eq_of_anon Mctp.routePolicy (fun _ => rfl) hw₁
        rw [hanon, heq]
        exact mctpRx_alike halloc hw₁ i (hpolicy₁.trans hpolicy) _

end Switch

/-! ### With the check and without -/

/-- An endpoint whose contexts are all for messages to it. -/
structure OwnContexts (b : Nat) (eid : UInt8) (cap : Nat) (w : Mctp δ) : Prop where
  ready : RxReady b eid cap w
  inv : RxInv cap w
  own : ∀ j k, (w.msgCtxs j).key = some k → mctpRxDestIsLocal { eid := eid } k.dest = true

/-- `w` has what `u` has, the contexts for others apart. -/
structure Filters (b : Nat) (eid : UInt8) (cap : Nat) (w u : Mctp δ) : Prop where
  ready : RxReady b eid cap u
  alike : w.anon = u.anon
  left : RxInv cap w
  right : RxInv cap u
  asm : ∀ k, w.asm k = if mctpRxDestIsLocal { eid := eid } k.dest then u.asm k else none

theorem OwnContexts.filters {b : Nat} {eid : UInt8} {cap : Nat} {w : Mctp δ}
    (h : OwnContexts b eid cap w) : Filters b eid cap w w := by
  refine ⟨h.ready, rfl, h.inv, h.inv, fun k => ?_⟩
  cases hslot : Table.slot MctpMsgCtx.key w.msgCtxs k with
  | none => rw [asm_of_slot_none hslot, ite_self]
  | some j => rw [if_pos (h.own j k (Table.slot_some hslot))]

theorem FreshEndpoint.ownContexts {b : Nat} {eid : UInt8} {cap : Nat} {w : Mctp δ}
    (h : FreshEndpoint b eid cap w) :
    OwnContexts b eid cap w := by
  refine ⟨h.toRxReady, h.sim.inv, fun j k hk => ?_⟩
  rw [MctpMsgCtx.key_of_none (h.free j)] at hk
  cases hk

section Filters

variable {env : Env δ} {b : Nat} {eid : UInt8} {cap : Nat} {w u : Mctp δ} {pkt : MctpPktbuf}

theorem RxReady.of_anon (h : RxReady b eid cap u) (hanon : w.anon = u.anon) :
    RxReady b eid cap w := by
  have hbindings : w.bindings = u.bindings := Mctp.eq_of_anon Mctp.bindings (fun _ => rfl) hanon
  have hpolicy : w.routePolicy = u.routePolicy :=
    Mctp.eq_of_anon Mctp.routePolicy (fun _ => rfl) hanon
  have heid : (w.busses 0).eid = (u.busses 0).eid :=
    Mctp.eq_of_anon (fun w => (w.busses 0).eid) (fun _ => rfl) hanon
  have hmax : w.maxMessageSize = u.maxMessageSize :=
    Mctp.eq_of_anon Mctp.maxMessageSize (fun _ => rfl) hanon
  refine ⟨?_, hpolicy.trans h.endpoint, heid.trans h.eid, ?_⟩
  · rw [hbindings]
    exact h.bus
  · rw [hmax]
    exact h.max

/-- Each context of `w` is one of `u` in some slot, so where none of `w` is free none of `u` is. -/
theorem Filters.full (h : Filters b eid cap w u) (hfull : w.Full) : u.Full := by
  have hkey : ∀ j, ∃ j' k, (w.msgCtxs j).key = some k ∧ (u.msgCtxs j').key = some k := by
    intro j
    obtain ⟨buf, hbuf⟩ := Option.isSome_iff_exists.mp (hfull j)
    have hkey := MctpMsgCtx.key_of_buf hbuf
    have hasm := h.asm ⟨(w.msgCtxs j).src, (w.msgCtxs j).dest, (w.msgCtxs j).tag⟩
    rw [h.left.asm_of_slot hkey] at hasm
    split at hasm
    · cases hslot : Table.slot MctpMsgCtx.key u.msgCtxs
        ⟨(w.msgCtxs j).src, (w.msgCtxs j).dest, (w.msgCtxs j).tag⟩ with
      | none =>
          rw [asm_of_slot_none hslot] at hasm
          cases hasm
      | some j' => exact ⟨j', _, hkey, Table.slot_some hslot⟩
    · cases hasm
  choose place key hw hu using hkey
  have hinj : Function.Injective place := by
    intro i j hij
    have hi := hu i
    rw [hij, hu j] at hi
    refine h.left.distinct i j (key i) (hw i) ?_
    rw [hw j, Option.some.inj hi]
  intro j'
  obtain ⟨j, rfl⟩ := Finite.injective_iff_surjective.mp hinj j'
  obtain ⟨⟨buf, hbuf⟩, -⟩ := MctpMsgCtx.buf_of_key (hu j)
  rw [hbuf]
  rfl

/-- Neither changed its contexts. -/
theorem Filters.pass (h : Filters b eid cap w u) (pkt : MctpPktbuf) {w' u' : Mctp δ}
    (hanon : w'.anon = u'.anon) (hu : u'.anon = (u.seen b pkt).anon) (hw' : w'.msgCtxs = w.msgCtxs)
    (hu' : u'.msgCtxs = u.msgCtxs) : Filters b eid cap w' u' := by
  refine ⟨RxReady.of_anon (u := u.seen b pkt) ⟨h.ready.bus, h.ready.endpoint, h.ready.eid,
    h.ready.max⟩ hu, hanon, (h.left.on.congr hw').rxInv, (h.right.on.congr hu').rxInv, fun k => ?_⟩
  rw [asm_congr hw', asm_congr hu']
  exact h.asm k

theorem Filters.seen (h : Filters b eid cap w u) (pkt : MctpPktbuf) :
    Filters b eid cap (w.seen b pkt) (u.seen b pkt) := by
  refine h.pass pkt ?_ rfl rfl rfl
  have hcapture : w.capture = u.capture := Mctp.eq_of_anon Mctp.capture (fun _ => rfl) h.alike
  have hhist : w.hist.anon = u.hist.anon := congrArg Mctp.hist h.alike
  rw [Mctp.seen, Mctp.seen, Mctp.anon_withHist, Mctp.anon_withHist, History.anon_capture,
    History.anon_capture, History.anon_deref, History.anon_deref, h.alike, hcapture, hhist]

/-- A packet for the endpoint moves the assembly of its key on both sides, and both do alike with
the message it completes. -/
theorem Filters.switch (h : Filters b eid cap w u) (halloc : ∀ n, env.msgAlloc n = true)
    (hsize : mctpHdrSize ≤ mctpPktbufSize pkt)
    (hdest : mctpRxDestIsLocal { eid := eid } (mctpPktbufHdr pkt).dest = true)
    (hroom : hdrFlags (mctpPktbufHdr pkt) = mctpHdrFlagSom → u.asm (pktLabel pkt).key = none →
      ¬ u.Full)
    (heid : ((busRxSwitch env u 0 pkt).busses 0).eid = eid) :
    Filters b eid cap (busRxSwitch env w 0 pkt) (busRxSwitch env u 0 pkt) := by
  have hready := h.ready.of_anon h.alike
  have hkey : w.asm (pktLabel pkt).key = u.asm (pktLabel pkt).key := (h.asm _).trans (if_pos hdest)
  have hstep : rxStep cap w pkt = rxStep cap u pkt := by rw [rxStep, rxStep, hkey]
  obtain ⟨hw, hanon⟩ := busRxSwitch_endpoint halloc (i := 0) h.left hready.max hready.endpoint hsize
    fun hsom hnone hfull =>
    hroom hsom (hkey.symm.trans hnone) (h.full hfull)
  obtain ⟨hu, hanon'⟩ := busRxSwitch_endpoint halloc (i := 0) h.right h.ready.max
    h.ready.endpoint hsize hroom
  refine ⟨?_, ?_, hw.inv, hu.inv, fun k => ?_⟩
  · cases hout : (rxStep cap u pkt).2 with
    | none =>
        rw [hout] at hanon'
        exact h.ready.of_anon hanon'
    | some bytes =>
        rw [hout] at hanon'
        have hsame := Mctp.eq_of_anon (fun w => (w.busses 0).eid) (fun _ => rfl) hanon'
        refine RxReady.of_anon (h.ready.of_sameSetup (mctpRx_sameSetup env u 0 _) ?_) hanon'
        exact (hsame.symm.trans heid).trans h.ready.eid.symm
  · rw [hanon, hanon', hstep]
    cases (rxStep cap u pkt).2 with
    | none => exact h.alike
    | some bytes => exact mctpRx_alike halloc h.alike 0 hready.endpoint _
  · rw [hw.asm, hu.asm, hstep]
    by_cases hk : k = (pktLabel pkt).key
    · rw [hk, Function.update_self, Function.update_self]
      exact (if_pos hdest).symm
    · rw [Function.update_of_ne hk, Function.update_of_ne hk]
      exact h.asm k

/-- A packet for another endpoint shows in its contexts alone. -/
theorem Filters.foreign (h : Filters b eid cap w u) (halloc : ∀ n, env.msgAlloc n = true)
    (hsize : mctpHdrSize ≤ mctpPktbufSize pkt)
    (hdest : mctpRxDestIsLocal { eid := eid } (mctpPktbufHdr pkt).dest = false)
    (hroom : hdrFlags (mctpPktbufHdr pkt) = mctpHdrFlagSom → u.asm (pktLabel pkt).key = none →
      ¬ u.Full) :
    Filters b eid cap w (busRxSwitch env u 0 pkt) := by
  obtain ⟨hu, hanon⟩ := busRxSwitch_endpoint halloc (i := 0) h.right h.ready.max
    h.ready.endpoint hsize hroom
  have hsame : (busRxSwitch env u 0 pkt).anon = u.anon := by
    rw [hanon]
    cases (rxStep cap u pkt).2 with
    | none => rfl
    | some bytes =>
        refine mctpRx_foreign env h.ready.endpoint 0 ?_
        rw [← hdest, ← h.ready.eid]
        rfl
  refine ⟨h.ready.of_anon hsame, h.alike.trans hsame.symm, h.left, hu.inv, fun k => ?_⟩
  rw [hu.asm, h.asm]
  by_cases hk : k = (pktLabel pkt).key
  · have hnot : mctpRxDestIsLocal { eid := eid } k.dest = false := by rw [hk]; exact hdest
    rw [hnot, if_neg Bool.false_ne_true, if_neg Bool.false_ne_true]
  · rw [Function.update_of_ne hk]

/-- **One packet**, with the check and without. -/
theorem Filters.step (h : Filters b eid cap w u) (halloc : ∀ n, env.msgAlloc n = true)
    (hroom : ¬ u.Exhausts pkt) (heid : ((mctpBusRxUnfiltered env u b pkt).busses 0).eid = eid) :
    Filters b eid cap (mctpBusRx env w b pkt) (mctpBusRxUnfiltered env u b pkt) := by
  have hready := h.ready.of_anon h.alike
  have hseen := h.seen pkt
  have hlocal : mctpRxDestIsLocal ((w.seen b pkt).busses 0) (mctpPktbufHdr pkt).dest
      = mctpRxDestIsLocal { eid := eid } (mctpPktbufHdr pkt).dest := by
    rw [← hready.eid]
    rfl
  have hpolicy : (w.seen b pkt).routePolicy = .endpoint := hready.endpoint
  unfold mctpBusRxUnfiltered at heid ⊢
  unfold mctpBusRx
  rw [h.ready.bus] at heid ⊢
  rw [hready.bus]
  dsimp only at heid ⊢
  split
  · exact h
  · rename_i hsize
    split
    · exact hseen
    · rename_i hsrc
      have hroom' : hdrFlags (mctpPktbufHdr pkt) = mctpHdrFlagSom →
        (u.seen b pkt).asm (pktLabel pkt).key = none →
          ¬ (u.seen b pkt).Full := by
        intro hsom hnone hfull
        refine hroom ⟨Nat.le_of_not_lt hsize, hsrc, hsom, ?_, hfull⟩
        rw [Mctp.asm, Table.get, Option.map_map, Option.map_eq_none_iff] at hnone
        rw [lookup_pkt]
        exact hnone
      rw [if_neg hsize, if_neg hsrc] at heid
      rw [← Mctp.seen, hlocal, hpolicy]
      cases hdest : mctpRxDestIsLocal { eid := eid } (mctpPktbufHdr pkt).dest with
      | true =>
          rw [if_neg (by simp)]
          exact hseen.switch halloc (Nat.le_of_not_lt hsize) hdest hroom' heid
      | false =>
          rw [if_pos ⟨rfl, rfl⟩]
          exact hseen.foreign halloc (Nat.le_of_not_lt hsize) hdest hroom'

/-- **A run of packets**, with the check and without. -/
theorem Filters.run (h : Filters b eid cap w u) (halloc : ∀ n, env.msgAlloc n = true)
    (pkts : List MctpPktbuf)
    (hpkts : Run.Each (fun u pkt => mctpBusRxUnfiltered env u b pkt)
      (fun u pkt => ¬ u.Exhausts pkt ∧ ((mctpBusRxUnfiltered env u b pkt).busses 0).eid = eid)
      u pkts) :
    Filters b eid cap (rxRun env b w pkts) (unfilteredRun env b u pkts) := by
  induction pkts generalizing w u with
  | nil => exact h
  | cons pkt pkts ih =>
      obtain ⟨⟨hroom, heid⟩, hrest⟩ := hpkts
      exact ih (h.step halloc hroom heid) hrest

/-- The contexts of `w` are those of `u` for the endpoint. -/
theorem Filters.contexts (h : Filters b eid cap w u) :
    w.contexts.Perm (u.contexts.filter fun ctx => mctpRxDestIsLocal { eid := eid } ctx.dest) := by
  refine Table.entries_perm h.left.distinct h.right.distinct
    (fun k => mctpRxDestIsLocal { eid := eid } k.dest) ?_ ?_ ?_
  · intro ctx ctx' heq
    rw [← ctx.key_contents, heq, ctx'.key_contents]
  · intro ctx k hk
    obtain ⟨-, -, hdest, -⟩ := MctpMsgCtx.buf_of_key hk
    rw [← hdest]
    rfl
  · intro k
    have hasm := h.asm k
    split
    · rename_i hlocal
      rw [if_pos hlocal] at hasm
      exact h.left.map_contents h.right hasm
    · rename_i hforeign
      rw [if_neg hforeign, Mctp.asm, Option.map_eq_none_iff] at hasm
      rw [hasm]
      rfl

end Filters

/-- **The early check does not show.** An endpoint that keeps its id makes the same calls, sends the
same replies and leaves the same tags with the early check and without it, and has the same contexts
for messages to itself. -/
theorem rxRun_transparent {env : Env δ} {b : Nat} {eid : UInt8} {cap : Nat} {w : Mctp δ}
    (hstart : OwnContexts b eid cap w) (halloc : ∀ n, env.msgAlloc n = true)
    (pkts : List MctpPktbuf)
    (hpkts : Run.Each (fun u pkt => mctpBusRxUnfiltered env u b pkt)
      (fun u pkt => ¬ u.Exhausts pkt ∧ ((mctpBusRxUnfiltered env u b pkt).busses 0).eid = eid)
      w pkts) :
    (rxRun env b w pkts).hist.upcalls = (unfilteredRun env b w pkts).hist.upcalls ∧
      (rxRun env b w pkts).busLog = (unfilteredRun env b w pkts).busLog ∧
      (rxRun env b w pkts).dev = (unfilteredRun env b w pkts).dev ∧
      (rxRun env b w pkts).reqTags = (unfilteredRun env b w pkts).reqTags ∧
      (rxRun env b w pkts).contexts.Perm
        ((unfilteredRun env b w pkts).contexts.filter fun ctx =>
          mctpRxDestIsLocal (w.busses 0) ctx.dest) := by
  have h := hstart.filters.run halloc pkts hpkts
  refine ⟨Mctp.eq_of_anon (fun w => w.hist.upcalls) (fun _ => rfl) h.alike,
    Mctp.eq_of_anon Mctp.busLog (fun _ => rfl) h.alike,
    Mctp.eq_of_anon Mctp.dev (fun _ => rfl) h.alike, Mctp.eq_of_anon Mctp.reqTags
    (fun _ => rfl) h.alike, ?_⟩
  have hcontexts := h.contexts
  rw [← hstart.ready.eid] at hcontexts
  exact hcontexts

/-- One byte from EID 8 to any endpoint. -/
def oneByteTo (dest flagsSeqTag : UInt8) : MctpPktbuf :=
  ⟨0, 5, 68, 0, false, [1, dest, 8, flagsSeqTag, 7]⟩

/-- EID 9, whose upper layer takes messages. -/
def listening : Mctp Unit := mctpSetRxAll (mctpRegisterBus plainEnv plainInstance 0 9).1

/-- Messages of two packets to EID 10 and to EID 9, the first packet of one to the null EID and of
one to EID 11, and one to all. -/
def mixedPkts : List MctpPktbuf :=
  [oneByteTo 10 0x88, oneByteTo 9 0x88, oneByteTo 0 0x88, oneByteTo 0xff 0xc8, oneByteTo 10 0x58,
    oneByteTo 9 0x58, oneByteTo 11 0x88]

theorem rxRun_transparent_mixed :
    (rxRun plainEnv 0 listening mixedPkts).hist.upcalls
      = [.messageRx 8 true 0 [7], .messageRx 8 true 0 [7, 7]] ∧
      (rxRun plainEnv 0 listening mixedPkts).contexts.Perm
        ((unfilteredRun plainEnv 0 listening mixedPkts).contexts.filter fun ctx =>
          mctpRxDestIsLocal (listening.busses 0) ctx.dest) := by
  have hfresh : FreshEndpoint 0 9 mctpMaxMessageSize.toNat listening :=
    ⟨⟨rfl, rfl, rfl, rfl⟩, fun _ => rfl, rfl⟩
  have halloc : ∀ n, plainEnv.msgAlloc n = true := fun _ => rfl
  obtain ⟨hcalls, -, -, -, hcontexts⟩ := rxRun_transparent hfresh.ownContexts halloc mixedPkts
    (by decide +kernel)
  exact ⟨hcalls.trans (by decide +kernel), hcontexts⟩

end LibMctp
