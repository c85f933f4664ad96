import LibMctp.Lib.Ledger
import LibMctp.Proof.Instance.Start

/-!
# Message buffers

Every message buffer that was allocated or given to the stack is queued on a bus, held by a context,
or was freed once. The ledger of allocations and frees balances with the buffers that the instance
refers to, and every act of a call keeps it so. A bus that is removed while a message is queued on
it loses the buffer.
-/

namespace LibMctp

open Ledger

variable {δ : Type}

/-! ### The ledger -/

def HeapOp.entry : HeapOp → Option (Entry Nat)
  | .msgAlloc addr => some (.gain addr)
  | .msgFree addr => some (.lose addr)
  | .pktAlloc _ => none
  | .pktFree _ => none

/-- The message buffers gained and lost so far. -/
def Mctp.msgLedger (w : Mctp δ) : List (Entry Nat) := w.hist.heap.filterMap HeapOp.entry

def Mctp.txAddrs (w : Mctp δ) (i : Fin 2) : Option Nat := (w.busses i).txMsg.map MsgBuf.addr

def Mctp.ctxAddrs (w : Mctp δ) (j : Fin 16) : Option Nat := (w.msgCtxs j).buf.map MsgBuf.addr

/-- The buffers that busses and contexts hold. -/
def Mctp.owned (w : Mctp δ) : List Nat := slots w.txAddrs ++ slots w.ctxAddrs

/-- A call that holds the buffers `held` accounts for every buffer. -/
structure Owned (w : Mctp δ) (held : List Nat) : Prop where
  balanced : Balanced w.msgLedger (held ++ w.owned)
  known : ∀ addr ∈ held ++ w.owned, addr < w.nMsgAlloc

section Owned

variable {w w' : Mctp δ} {held held' : List Nat} {addr : Nat}

theorem msgLedger_append {ops : List HeapOp} (h : w'.hist.heap = w.hist.heap ++ ops) :
    w'.msgLedger = w.msgLedger ++ ops.filterMap HeapOp.entry := by
  rw [Mctp.msgLedger, h, List.filterMap_append]
  rfl

theorem txAddrs_update {i : Fin 2} {bus : MctpBus}
    (h : w'.busses = Function.update w.busses i bus) :
    w'.txAddrs = Function.update w.txAddrs i (bus.txMsg.map MsgBuf.addr) := by
  unfold Mctp.txAddrs
  rw [h]
  exact Function.comp_update (fun bus : MctpBus => bus.txMsg.map MsgBuf.addr) w.busses i bus

theorem ctxAddrs_update {j : Fin 16} {ctx : MctpMsgCtx}
    (h : w'.msgCtxs = Function.update w.msgCtxs j ctx) :
    w'.ctxAddrs = Function.update w.ctxAddrs j (ctx.buf.map MsgBuf.addr) := by
  unfold Mctp.ctxAddrs
  rw [h]
  exact Function.comp_update (fun ctx : MctpMsgCtx => ctx.buf.map MsgBuf.addr) w.msgCtxs j ctx

theorem txAddrs_congr (h : w'.busses = w.busses) : w'.txAddrs = w.txAddrs := by
  funext i
  rw [Mctp.txAddrs, Mctp.txAddrs, h]

theorem ctxAddrs_congr (h : w'.msgCtxs = w.msgCtxs) : w'.ctxAddrs = w.ctxAddrs := by
  funext j
  rw [Mctp.ctxAddrs, Mctp.ctxAddrs, h]

/-! What the instance owns after a bus or a context was written. -/

section Writes

variable {i : Fin 2} {j : Fin 16} {bus : MctpBus} {ctx : MctpMsgCtx} {msg : MsgBuf}

theorem owned_bus (hbusses : w'.busses = Function.update w.busses i bus)
    (hctxs : w'.msgCtxs = w.msgCtxs) (hmsg : bus.txMsg = (w.busses i).txMsg) :
    w'.owned = w.owned := by
  have htx : w'.txAddrs = w.txAddrs := by
    rw [txAddrs_update hbusses, hmsg]
    exact Function.update_eq_self i w.txAddrs
  rw [Mctp.owned, Mctp.owned, ctxAddrs_congr hctxs, htx]

theorem owned_take (hbusses : w'.busses = Function.update w.busses i bus)
    (hctxs : w'.msgCtxs = w.msgCtxs) (hidle : (w.busses i).txMsg = none)
    (hmsg : bus.txMsg = some msg) : w'.owned.Perm (msg.addr :: w.owned) := by
  have hfree : w.txAddrs i = none := congrArg (Option.map MsgBuf.addr) hidle
  rw [Mctp.owned, Mctp.owned, ctxAddrs_congr hctxs, txAddrs_update hbusses, hmsg]
  exact (slots_fill hfree msg.addr).append_right _

theorem owned_release (hbusses : w'.busses = Function.update w.busses i bus)
    (hctxs : w'.msgCtxs = w.msgCtxs) (hmsg : (w.busses i).txMsg = some msg)
    (hidle : bus.txMsg = none) : w.owned.Perm (msg.addr :: w'.owned) := by
  have hold : w.txAddrs i = some msg.addr := congrArg (Option.map MsgBuf.addr) hmsg
  rw [Mctp.owned, Mctp.owned, ctxAddrs_congr hctxs, txAddrs_update hbusses, hidle]
  exact (slots_clear hold).append_right _

theorem owned_ctx (hctxs : w'.msgCtxs = Function.update w.msgCtxs j ctx)
    (hbusses : w'.busses = w.busses)
    (hbuf : ctx.buf.map MsgBuf.addr = (w.msgCtxs j).buf.map MsgBuf.addr) : w'.owned = w.owned := by
  have hctx : w'.ctxAddrs = w.ctxAddrs := by
    rw [ctxAddrs_update hctxs, hbuf]
    exact Function.update_eq_self j w.ctxAddrs
  rw [Mctp.owned, Mctp.owned, txAddrs_congr hbusses, hctx]

theorem owned_store (hctxs : w'.msgCtxs = Function.update w.msgCtxs j ctx)
    (hbusses : w'.busses = w.busses) (hfree : (w.msgCtxs j).buf = none)
    (hbuf : ctx.buf = some msg) :
    w'.owned.Perm (msg.addr :: w.owned) := by
  have hnone : w.ctxAddrs j = none := congrArg (Option.map MsgBuf.addr) hfree
  rw [Mctp.owned, Mctp.owned, txAddrs_congr hbusses, ctxAddrs_update hctxs, hbuf]
  exact ((slots_fill hnone msg.addr).append_left _).trans List.perm_middle

theorem owned_unstore (hctxs : w'.msgCtxs = Function.update w.msgCtxs j ctx)
    (hbusses : w'.busses = w.busses) (hbuf : (w.msgCtxs j).buf = some msg)
    (hnone : ctx.buf = none) :
    w.owned.Perm (msg.addr :: w'.owned) := by
  have hold : w.ctxAddrs j = some msg.addr := congrArg (Option.map MsgBuf.addr) hbuf
  rw [Mctp.owned, Mctp.owned, txAddrs_congr hbusses, ctxAddrs_update hctxs, hnone]
  exact ((slots_clear hold).append_left _).trans List.perm_middle

end Writes

/-- No buffer is gained or lost, and those there are may change hands. -/
theorem Owned.moved (h : Owned w held) (hheap : w'.hist.heap = w.hist.heap)
    (hn : w'.nMsgAlloc = w.nMsgAlloc) (hperm : (held ++ w.owned).Perm (held' ++ w'.owned)) :
    Owned w' held' where
  balanced := by
    rw [Mctp.msgLedger, hheap]
    exact h.balanced.perm hperm
  known := by
    intro addr haddr
    rw [hn]
    exact h.known addr (hperm.mem_iff.mpr haddr)

/-- One buffer is freed. -/
theorem Owned.freed (h : Owned w held) (hheap : w'.hist.heap = w.hist.heap ++ [.msgFree addr])
    (hn : w'.nMsgAlloc = w.nMsgAlloc)
    (hperm : (held ++ w.owned).Perm (addr :: (held' ++ w'.owned))) :
    Owned w' held' where
  balanced := by
    rw [msgLedger_append hheap]
    exact (h.balanced.perm hperm).lose
  known := by
    intro addr' haddr
    rw [hn]
    exact h.known addr' (hperm.mem_iff.mpr (List.mem_cons_of_mem _ haddr))

/-- The buffers stay where they are. -/
theorem Owned.kept (h : Owned w held) (hheap : w'.hist.heap = w.hist.heap)
    (hn : w'.nMsgAlloc = w.nMsgAlloc) (howned : w'.owned = w.owned) : Owned w' held :=
  h.moved hheap hn (by rw [howned])

/-- The instance takes a buffer from the call. -/
theorem Owned.took (h : Owned w (addr :: held)) (hheap : w'.hist.heap = w.hist.heap)
    (hn : w'.nMsgAlloc = w.nMsgAlloc) (howned : w'.owned.Perm (addr :: w.owned)) : Owned w' held :=
  h.moved hheap hn (List.perm_middle.symm.trans (howned.symm.append_left held))

/-- The call takes a buffer from the instance. -/
theorem Owned.gave (h : Owned w held) (hheap : w'.hist.heap = w.hist.heap)
    (hn : w'.nMsgAlloc = w.nMsgAlloc) (howned : w.owned.Perm (addr :: w'.owned)) :
    Owned w' (addr :: held) :=
  h.moved hheap hn ((howned.append_left held).trans List.perm_middle)

/-- The instance frees a buffer of its own. -/
theorem Owned.released (h : Owned w held) (hheap : w'.hist.heap = w.hist.heap ++ [.msgFree addr])
    (hn : w'.nMsgAlloc = w.nMsgAlloc) (howned : w.owned.Perm (addr :: w'.owned)) : Owned w' held :=
  h.freed hheap hn ((howned.append_left held).trans List.perm_middle)

theorem Owned.io {i : Fin 2} {binding : MctpBinding} {s : BusIo δ} (h : Owned w held)
    (hio : IoAct binding (w.busIo i) s) :
    Owned (w.putBusIo i s) held := by
  cases hio with
  | deref => exact h.kept (History.heap_deref _ _) rfl (owned_bus rfl rfl rfl)
  | move _ _ hmsg _ _ _ hheap => exact h.kept hheap rfl (owned_bus rfl rfl hmsg)
  | release hmsg => exact h.released rfl rfl (owned_release rfl rfl hmsg rfl)
  | hang => exact h.kept rfl rfl (owned_bus rfl rfl rfl)

/-- **Every act keeps account of every buffer.** -/
theorem Act.owned {x y : Mctp δ × List Nat} (h : Act x y) (hx : Owned x.1 x.2) : Owned y.1 y.2 := by
  cases h with
  | note hheap => exact hx.kept hheap rfl rfl
  | deref => exact hx.kept (History.heap_deref _ _) rfl rfl
  | nullBus => exact hx.kept rfl rfl rfl
  | assertMtu => exact hx.kept (History.heap_assert _ _ _) rfl rfl
  | @alloc w held =>
      have hnew : w.nMsgAlloc ∉ held ++ w.owned := fun hmem => Nat.lt_irrefl _ (hx.known _ hmem)
      refine ⟨?_, ?_⟩
      · rw [msgLedger_append rfl]
        exact hx.balanced.gain hnew
      · intro addr haddr
        rcases List.mem_cons.mp haddr with rfl | hold
        · exact Nat.lt_succ_self _
        · exact Nat.lt_succ_of_lt (hx.known addr hold)
  | noAlloc => exact ⟨hx.balanced, fun addr haddr => Nat.lt_succ_of_lt (hx.known addr haddr)⟩
  | free => exact hx.freed rfl rfl (.refl _)
  | io _ hio => exact hx.io hio
  | take _ _ _ _ _ _ _ _ hidle => exact hx.took rfl rfl (owned_take rfl rfl hidle rfl)
  | state => exact hx.kept rfl rfl (owned_bus rfl rfl rfl)
  | eid => exact hx.kept rfl rfl (owned_bus rfl rfl rfl)
  | keep hbuf => exact hx.kept rfl rfl (owned_ctx rfl rfl hbuf)
  | store hfree hbuf => exact hx.took rfl rfl (owned_store rfl rfl hfree hbuf)
  | unstore hbuf => exact hx.gave rfl rfl (owned_unstore rfl rfl hbuf rfl)
  | tags => exact hx.kept rfl rfl rfl

end Owned

/-! ### Between the acts of a call -/

/-- Every buffer is accounted for, and a bus that is not in use has no message queued. -/
structure BufsSettled (w : Mctp δ) (held : List Nat) : Prop where
  owned : Owned w held
  nonneg : 0 ≤ w.nBusses
  idle : ∀ i : Fin 2, w.nBusses ≤ i.val → (w.busses i).txMsg = none

section BufsSettled

variable {w w' : Mctp δ} {held : List Nat}

theorem Mctp.Listed.lt {i : Fin 2} (h : w.Listed i) (hn : 0 ≤ w.nBusses) :
    (i.val : Int) < w.nBusses := by
  rcases h with ⟨rfl, hne⟩ | hlt
  · have hpos : 0 < w.nBusses := lt_of_le_of_ne hn (Ne.symm hne)
    exact hpos
  · exact hlt

theorem idle_update {i : Fin 2} {bus : MctpBus}
    (hidle : ∀ k : Fin 2, w.nBusses ≤ k.val → (w.busses k).txMsg = none)
    (hbusses : w'.busses = Function.update w.busses i bus) (hn : w'.nBusses = w.nBusses)
    (hbus : w.nBusses ≤ i.val → bus.txMsg = none) :
    ∀ k : Fin 2, w'.nBusses ≤ k.val → (w'.busses k).txMsg = none := by
  intro k hk
  rw [hn] at hk
  rw [hbusses]
  by_cases hki : k = i
  · rw [hki, Function.update_self]
    exact hbus (hki ▸ hk)
  · rw [Function.update_of_ne hki]
    exact hidle k hk

theorem IoAct.idle {binding : MctpBinding} {s s' : BusIo δ} (h : IoAct binding s s')
    (hs : s.bus.txMsg = none) :
    s'.bus.txMsg = none := by
  cases h with
  | deref => exact hs
  | move _ _ hmsg => exact hmsg.trans hs
  | release => rfl
  | hang => exact hs

theorem Act.settled {x y : Mctp δ × List Nat} (h : Act x y) (hx : BufsSettled x.1 x.2) :
    BufsSettled y.1 y.2 := by
  have hn := h.sameLinks.nBusses
  refine ⟨h.owned hx.owned, hn ▸ hx.nonneg, ?_⟩
  have hidle := hx.idle
  cases h with
  | io _ hio => exact idle_update hidle rfl rfl fun hk => hio.idle (hidle _ hk)
  | take _ _ _ _ _ _ hi =>
      refine idle_update hidle rfl rfl fun hk => ?_
      exact absurd (hi.lt hx.nonneg) (not_lt.mpr hk)
  | state => exact idle_update hidle rfl rfl fun hk => hidle _ hk
  | eid => exact idle_update hidle rfl rfl fun hk => hidle _ hk
  | _ => exact hidle

theorem Acts.settled {x y : Mctp δ × List Nat} (h : Acts x y) (hx : BufsSettled x.1 x.2) :
    BufsSettled y.1 y.2 :=
  h.invariant (P := fun z => BufsSettled z.1 z.2) Act.settled hx

theorem BufsSettled.requestChecked (h : BufsSettled w held) :
    BufsSettled w.requestChecked held := by
  unfold Mctp.requestChecked
  split
  · exact h
  · exact ⟨h.owned.kept (History.heap_assert _ _ _) rfl rfl, h.nonneg, h.idle⟩

end BufsSettled

/-! ### The buffers the instance refers to -/

/-- The buffers queued on a bus in use, and those of the contexts. -/
def Mctp.references (w : Mctp δ) : List Nat :=
  slots (fun i => if (i.val : Int) < w.nBusses then w.txAddrs i else none) ++ slots w.ctxAddrs

/-- No buffer was freed that was not live, the live buffers are those the instance refers to, each
once, and cleaning the instance up leaves none. -/
structure BufsAccounted (w : Mctp δ) : Prop where
  live : Balanced w.msgLedger w.references
  cleaned : Balanced (mctpCleanup w).msgLedger []

section Cleanup

variable {w : Mctp δ}

theorem BufsSettled.references_eq (h : BufsSettled w []) : w.references = w.owned := by
  have hslots : (fun i : Fin 2 => if (i.val : Int) < w.nBusses then w.txAddrs i else none)
      = w.txAddrs := by
    funext i
    split
    · rfl
    · rename_i hi
      rw [Mctp.txAddrs, h.idle i (not_lt.mp hi)]
      rfl
  rw [Mctp.references, hslots]
  rfl

theorem mctpMsgFree_ledger (w : Mctp δ) (ptr : MsgBuf) (p : Option Unit) :
    (mctpMsgFree w ptr p).msgLedger = w.msgLedger ++ [.lose ptr.addr] := by
  have hheap : (mctpMsgFree w ptr p).hist.heap = w.hist.heap ++ [.msgFree ptr.addr] := by
    cases p <;> rfl
  rw [msgLedger_append hheap]
  rfl

/-- Freeing the buffers of the contexts `js`. -/
theorem foldl_freeCtx_ledger {f : Mctp δ → Fin 16 → Mctp δ}
    (hnone : ∀ w j, (w.msgCtxs j).buf = none → f w j = w)
    (hsome : ∀ w j buf, (w.msgCtxs j).buf = some buf → f w j = mctpMsgFree w buf (some ()))
    (js : List (Fin 16)) (w : Mctp δ) :
    (js.foldl f w).msgLedger = w.msgLedger ++ (js.filterMap w.ctxAddrs).map .lose ∧
      (js.foldl f w).busses = w.busses ∧ (js.foldl f w).nBusses = w.nBusses := by
  induction js generalizing w with
  | nil => exact ⟨(List.append_nil _).symm, rfl, rfl⟩
  | cons j js ih =>
      rw [List.foldl_cons]
      cases hbuf : (w.msgCtxs j).buf with
      | none =>
          have haddr : w.ctxAddrs j = none := congrArg (Option.map MsgBuf.addr) hbuf
          rw [hnone w j hbuf, List.filterMap_cons_none haddr]
          exact ih w
      | some buf =>
          have haddr : w.ctxAddrs j = some buf.addr := congrArg (Option.map MsgBuf.addr) hbuf
          rw [hsome w j buf hbuf, List.filterMap_cons_some haddr, List.map_cons]
          obtain ⟨hledger, hbusses, hn⟩ := ih (mctpMsgFree w buf (some ()))
          refine ⟨?_, hbusses, hn⟩
          rw [hledger, mctpMsgFree_ledger, List.append_assoc]
          rfl

theorem mctpBusDestroy_txAddrs {i k : Fin 2} (hne : k ≠ i) :
    (mctpBusDestroy w i).txAddrs k = w.txAddrs k := by
  unfold mctpBusDestroy
  split
  · rfl
  · rw [Mctp.txAddrs, Mctp.txAddrs]
    dsimp only [mctpMsgFree, Mctp.withHist, Mctp.setBus]
    rw [Function.update_of_ne hne]

/-- Destroying the busses `is`. -/
theorem foldl_mctpBusDestroy_ledger (is : List (Fin 2)) (hnodup : is.Nodup) (w : Mctp δ) :
    (is.foldl mctpBusDestroy w).msgLedger = w.msgLedger ++ (is.filterMap w.txAddrs).map .lose := by
  induction is generalizing w with
  | nil => exact (List.append_nil _).symm
  | cons i is ih =>
      obtain ⟨hi, hrest⟩ := List.nodup_cons.mp hnodup
      have hothers : is.filterMap (mctpBusDestroy w i).txAddrs = is.filterMap w.txAddrs :=
        List.filterMap_congr fun k hk => mctpBusDestroy_txAddrs fun heq => hi (heq ▸ hk)
      rw [List.foldl_cons, ih hrest, hothers]
      cases hmsg : (w.busses i).txMsg with
      | none =>
          have haddr : w.txAddrs i = none := congrArg (Option.map MsgBuf.addr) hmsg
          rw [mctpBusDestroy, hmsg, List.filterMap_cons_none haddr]
      | some msg =>
          have haddr : w.txAddrs i = some msg.addr := congrArg (Option.map MsgBuf.addr) hmsg
          rw [mctpBusDestroy, hmsg, List.filterMap_cons_some haddr, List.map_cons]
          dsimp only
          rw [mctpMsgFree_ledger, List.append_assoc]
          rfl

/-- `mctp_cleanup` frees what the instance refers to. -/
theorem mctpCleanup_ledger (w : Mctp δ) :
    ∃ freed : List Nat, freed.Perm w.references ∧
      (mctpCleanup w).msgLedger = w.msgLedger ++ freed.map .lose := by
  obtain ⟨f, hnone, hsome, hcleanup⟩ : ∃ f : Mctp δ → Fin 16 →
    Mctp δ, (∀ w j, (w.msgCtxs j).buf = none → f w j = w) ∧
      (∀ w j buf, (w.msgCtxs j).buf = some buf → f w j = mctpMsgFree w buf (some ())) ∧
      mctpCleanup w
        = { (([1, 0] : List (Fin 2)).filter fun i =>
          (i.val : Int) < ((List.finRange 16).foldl f w).nBusses).foldl
        mctpBusDestroy ((List.finRange 16).foldl f w) with nBusses := -1 } := by
    refine ⟨?f, ?hnone, ?hsome, ?heq⟩
    case heq => exact rfl
    case hnone =>
      intro w j hbuf
      rw [hbuf]
    case hsome =>
      intro w j buf hbuf
      rw [hbuf]
  obtain ⟨hledger, hbusses, hn⟩ := foldl_freeCtx_ledger hnone hsome (List.finRange 16) w
  generalize (List.finRange 16).foldl f w = w' at hledger hbusses hn hcleanup
  have htx : w'.txAddrs = w.txAddrs := by
    funext i
    rw [Mctp.txAddrs, hbusses]
    rfl
  have hdestroy :=
    foldl_mctpBusDestroy_ledger (([1, 0] : List (Fin 2)).filter fun i => (i.val : Int) < w'.nBusses)
    ((by decide : ([1, 0] : List (Fin 2)).Nodup).filter _) w'
  refine ⟨slots w.ctxAddrs ++ (([1, 0] : List (Fin 2)).filter fun i =>
    (i.val : Int) < w'.nBusses).filterMap w.txAddrs, ?_, ?_⟩
  · refine List.perm_append_comm.trans (List.Perm.append_right _ ?_)
    have hboth : ([1, 0] : List (Fin 2)).Perm (List.finRange 2) := List.Perm.swap 0 1 []
    have hperm := (hboth.filter fun i => decide ((i.val : Int) < w.nBusses)).filterMap w.txAddrs
    rw [hn]
    refine hperm.trans (List.Perm.of_eq ?_)
    rw [slots, List.filterMap_filter]
    refine List.filterMap_congr fun i _ => ?_
    simp
  · rw [List.map_append, ← List.append_assoc, hcleanup]
    rw [hledger, htx] at hdestroy
    exact hdestroy

theorem accounted_of_live (h : Balanced w.msgLedger w.references) : BufsAccounted w := by
  refine ⟨h, ?_⟩
  obtain ⟨freed, hperm, hledger⟩ := mctpCleanup_ledger w
  have hall : Balanced w.msgLedger (freed ++ []) := by
    rw [List.append_nil]
    exact h.perm hperm.symm
  rw [hledger]
  exact hall.lose_all freed

theorem BufsSettled.accounted (h : BufsSettled w []) : BufsAccounted w := by
  refine accounted_of_live ?_
  rw [h.references_eq]
  exact h.owned.balanced

end Cleanup

/-! ### Runs -/

/-- The calls an application and a binding make on an endpoint. -/
inductive BufOp where
  | register (b : Nat) (eid : UInt8)
  | unregister (b : Nat)
  | messageTx (eid : UInt8) (tagOwner : Bool) (msgTag : UInt8) (msg : List UInt8)
  | messageTxAlloced (eid : UInt8) (tagOwner : Bool) (msgTag : UInt8) (msg : List UInt8)
  | messageTxRequest (eid : UInt8) (msg : List UInt8)
  | setTxEnabled (b : Nat) (enable : Bool)
  | busRx (b : Nat) (pkt : MctpPktbuf)

/-- The instance once the caller has a buffer to pass in. -/
def Mctp.lend (w : Mctp δ) : Mctp δ :=
  { w with
    nMsgAlloc := w.nMsgAlloc + 1
    hist := { w.hist with heap := w.hist.heap ++ [.msgAlloc w.nMsgAlloc] } }

/-- The buffer the caller passes in. -/
def Mctp.lent (w : Mctp δ) (msg : List UInt8) : MsgBuf := ⟨w.nMsgAlloc, msg.length, msg⟩

def bufStep (env : Env δ) (w : Mctp δ) : BufOp → Mctp δ
  | .register b eid => (mctpRegisterBus env w b eid).1
  | .unregister b => mctpUnregisterBus w b
  | .messageTx eid tagOwner msgTag msg => (mctpMessageTx env w eid tagOwner msgTag msg).1
  | .messageTxAlloced eid tagOwner msgTag msg =>
    (mctpMessageTxAlloced env w.lend eid tagOwner msgTag (w.lent msg) msg.length).1
  | .messageTxRequest eid msg => (mctpMessageTxRequest env w.lend eid (w.lent msg) msg.length).1
  | .setTxEnabled b enable => mctpBindingSetTxEnabled env w b enable
  | .busRx b pkt => mctpBusRx env w b pkt

/-- Registration asserts that there is no bus. -/
def BufOp.Permitted (w : Mctp δ) : BufOp → Prop
  | .register _ _ => w.nBusses = 0
  | _ => True

/-- No bus in use is removed while a message is queued on it. -/
def BufOp.Clean (w : Mctp δ) : BufOp → Prop
  | .unregister _ => ∀ i : Fin 2, (i.val : Int) < w.nBusses → (w.busses i).txMsg = none
  | _ => True

instance BufOp.decidablePermitted (w : Mctp δ) : (op : BufOp) → Decidable (op.Permitted w)
  | .register _ _ => inferInstanceAs (Decidable (w.nBusses = 0))
  | .unregister _ => inferInstanceAs (Decidable True)
  | .messageTx _ _ _ _ => inferInstanceAs (Decidable True)
  | .messageTxAlloced _ _ _ _ => inferInstanceAs (Decidable True)
  | .messageTxRequest _ _ => inferInstanceAs (Decidable True)
  | .setTxEnabled _ _ => inferInstanceAs (Decidable True)
  | .busRx _ _ => inferInstanceAs (Decidable True)

instance BufOp.decidableClean (w : Mctp δ) : (op : BufOp) → Decidable (op.Clean w)
  | .register _ _ => inferInstanceAs (Decidable True)
  | .unregister _ =>
      inferInstanceAs
        (Decidable (∀ i : Fin 2, (i.val : Int) < w.nBusses → (w.busses i).txMsg = none))
  | .messageTx _ _ _ _ => inferInstanceAs (Decidable True)
  | .messageTxAlloced _ _ _ _ => inferInstanceAs (Decidable True)
  | .messageTxRequest _ _ => inferInstanceAs (Decidable True)
  | .setTxEnabled _ _ => inferInstanceAs (Decidable True)
  | .busRx _ _ => inferInstanceAs (Decidable True)

section Run

variable {env : Env δ} {w : Mctp δ}

theorem initBus_settled (h : BufsSettled w []) (hn : w.nBusses = 0) (b : Nat) (eid : UInt8) :
    BufsSettled (w.initBus b eid) [] ∧ ∀ i, ((w.initBus b eid).busses i).txMsg = none := by
  have hall : ∀ i : Fin 2, (w.busses i).txMsg = none := fun i => h.idle i (by omega)
  have hbusses : (w.initBus b eid).busses
      = Function.update w.busses 0 { eid := eid, binding := some b, mctp := some () } := rfl
  have hnone : ∀ i, ((w.initBus b eid).busses i).txMsg = none := by
    intro i
    rw [hbusses]
    by_cases hi : i = 0
    · rw [hi, Function.update_self]
    · rw [Function.update_of_ne hi]
      exact hall i
  refine ⟨⟨h.owned.kept ?_ rfl ?_, ?_, fun i _ => hnone i⟩, hnone⟩
  · exact (History.heap_assert _ _ _).trans (History.heap_assert _ _ _)
  · exact owned_bus hbusses rfl (hall 0).symm
  · exact (by decide : (0 : Int) ≤ 1)

theorem mctpRegisterBus_settled (h : BufsSettled w []) (hn : w.nBusses = 0) (b : Nat)
    (eid : UInt8) :
    BufsSettled (mctpRegisterBus env w b eid).1 [] := by
  obtain ⟨hstart, hidle⟩ := initBus_settled h hn b eid
  have hstarted : BufsSettled (bindingStart env (w.initBus b eid) b).1 [] ∧
      ∀ i, ((bindingStart env (w.initBus b eid) b).1.busses i).txMsg = none := by
    refine bindingStart_invariant env
      (P := fun w => BufsSettled w [] ∧ ∀ i, (w.busses i).txMsg = none) (fun dev => ?_) ?_
    · exact ⟨⟨⟨hstart.owned.balanced, hstart.owned.known⟩, hstart.nonneg, hstart.idle⟩, hidle⟩
    · rintro w₁ enable ⟨hsettled, hidle₁⟩
      have hacts : Acts (w₁, []) (mctpBindingSetTxEnabled env w₁ b enable, []) :=
        mctpBindingSetTxEnabled_acts env []
      exact ⟨hacts.settled hsettled, (mctpBindingSetTxEnabled_idle env hidle₁ b enable).1⟩
  obtain ⟨hsettled, hidle'⟩ := hstarted
  unfold mctpRegisterBus
  dsimp only
  split
  · exact ⟨⟨hsettled.owned.balanced, hsettled.owned.known⟩, le_rfl, fun i _ => hidle' i⟩
  · exact hsettled

theorem mctpUnregisterBus_settled (h : BufsSettled w []) (b : Nat)
    (hclean : ∀ i : Fin 2, (i.val : Int) < w.nBusses → (w.busses i).txMsg = none) :
    BufsSettled (mctpUnregisterBus w b) [] := by
  refine ⟨⟨h.owned.balanced, h.owned.known⟩, le_rfl, fun i _ => ?_⟩
  rcases lt_or_ge (i.val : Int) w.nBusses with hlt | hge
  · exact hclean i hlt
  · exact h.idle i hge

/-- A bus removed with a message queued on it leaves a buffer that nothing refers to. -/
theorem mctpUnregisterBus_leaks (h : BufsSettled w []) (b : Nat)
    (hafter : BufsAccounted (mctpUnregisterBus w b)) (i : Fin 2) :
    (w.busses i).txMsg = none := by
  have hrefs : (mctpUnregisterBus w b).references = slots w.ctxAddrs := by
    have hnone : (fun i : Fin 2 => if (i.val : Int) < (mctpUnregisterBus w b).nBusses then
        (mctpUnregisterBus w b).txAddrs i else none) = fun _ => none := by
      funext k
      exact if_neg (not_lt.mpr (Int.natCast_nonneg _))
    rw [Mctp.references, hnone]
    rfl
  have hlive := hafter.live
  rw [hrefs] at hlive
  have hperm : w.owned.Perm (slots w.ctxAddrs) := Balanced.unique h.owned.balanced hlive
  have hlength := hperm.length_eq
  rw [Mctp.owned, List.length_append] at hlength
  have hempty : slots w.txAddrs = [] := List.eq_nil_of_length_eq_zero (by omega)
  have haddr := List.filterMap_eq_nil_iff.mp hempty i (List.mem_finRange i)
  exact Option.map_eq_none_iff.mp haddr

theorem bufStep_settled (op : BufOp) (hop : op.Permitted w) (h : BufsSettled w [])
    (hclean : op.Clean w) :
    BufsSettled (bufStep env w op) [] := by
  cases op with
  | register b eid => exact mctpRegisterBus_settled h hop b eid
  | unregister b => exact mctpUnregisterBus_settled h b hclean
  | messageTx eid tagOwner msgTag msg =>
      have hacts : Acts (w, []) (bufStep env w (.messageTx eid tagOwner msgTag msg), []) :=
        mctpMessageTx_acts env []
      exact hacts.settled h
  | messageTxAlloced eid tagOwner msgTag msg =>
      have hlend : Acts (w, []) (w.lend, [(w.lent msg).addr]) := Act.alloc.acts
      have hacts : Acts (w, []) (bufStep env w (.messageTxAlloced eid tagOwner msgTag msg), []) :=
        hlend.trans (mctpMessageTxAlloced_acts env [] (w.lent msg))
      exact hacts.settled h
  | messageTxRequest eid msg =>
      have hlend : Acts (w, []) (w.lend, [(w.lent msg).addr]) := Act.alloc.acts
      have hacts : Acts (w.lend.requestChecked, [(w.lent msg).addr])
          (bufStep env w (.messageTxRequest eid msg), []) :=
        mctpMessageTxRequest_acts env [] (w.lent msg)
      exact hacts.settled (hlend.settled h).requestChecked
  | setTxEnabled b enable =>
      have hacts : Acts (w, []) (bufStep env w (.setTxEnabled b enable), []) :=
        mctpBindingSetTxEnabled_acts env []
      exact hacts.settled h
  | busRx b pkt =>
      have hacts : Acts (w, []) (bufStep env w (.busRx b pkt), []) := mctpBusRx_acts env []
      exact hacts.settled h

end Run

/-- An instance that has no bus and no buffer yet. -/
structure NoBuffers (w : Mctp δ) : Prop where
  nBusses : w.nBusses = 0
  busses : ∀ i, (w.busses i).txMsg = none
  msgCtxs : ∀ j, (w.msgCtxs j).buf = none
  heap : w.hist.heap = []

theorem NoBuffers.settled {w : Mctp δ} (h : NoBuffers w) : BufsSettled w [] := by
  have howned : w.owned = [] := by
    have htx : w.txAddrs = fun _ => none := by
      funext i
      rw [Mctp.txAddrs, h.busses i]
      rfl
    have hctx : w.ctxAddrs = fun _ => none := by
      funext j
      rw [Mctp.ctxAddrs, h.msgCtxs j]
      rfl
    rw [Mctp.owned, htx, hctx]
    rfl
  refine ⟨⟨?_, ?_⟩, le_of_eq h.nBusses.symm, fun i _ => h.busses i⟩
  · rw [Mctp.msgLedger, h.heap, howned]
    exact balanced_nil
  · rw [howned]
    exact fun addr haddr => absurd haddr List.not_mem_nil

/-- **Every message buffer is accounted for, in every state of a run, exactly when no bus in use is
removed while a message is queued on it.** -/
theorem bufRun_accounted_iff (env : Env δ) {w : Mctp δ} (hw : NoBuffers w) (ops : List BufOp)
    (hops : Run.Each (bufStep env) (fun w op => op.Permitted w) w ops) :
    (∀ pre, pre <+: ops → BufsAccounted (pre.foldl (bufStep env) w)) ↔
      Run.Each (bufStep env) (fun w op => op.Clean w) w ops := by
  refine Run.forall_along_iff_each (R := fun w => BufsSettled w []) (fun _ h => h.accounted) ?_
    (fun _ op hop h hclean => bufStep_settled op hop h hclean) hops hw.settled
  intro w op _ h hafter
  cases op with
  | unregister b => exact fun i _ => mctpUnregisterBus_leaks h b hafter i
  | _ => trivial

/-- An instance whose binding takes every other packet. -/
def slowInstance : Mctp Nat := mctpSetup (fun _ => smallBinding) 0 0

theorem slowInstance_noBuffers : NoBuffers slowInstance := ⟨rfl, fun _ => rfl, fun _ => rfl, rfl⟩

/-- The queued message is sent before the bus is removed. -/
theorem bufRun_accounted_iff_drained :
    NoBuffers slowInstance ∧
    ∀ pre, pre <+: [BufOp.register 0 8, .messageTx 9 true 1 [7], .busRx 0 (oneByte 0x88),
      .messageTxRequest 9 [6],
        .setTxEnabled 0 false, .setTxEnabled 0 true, .unregister 0, .register 1 8] →
      BufsAccounted (pre.foldl (bufStep everyOther) slowInstance) :=
  ⟨slowInstance_noBuffers,
    (bufRun_accounted_iff everyOther slowInstance_noBuffers _ (by decide)).mpr (by decide)⟩

/-- The bus is removed while the message waits: the buffer stays live, and cleaning up does not free
it. -/
theorem bufRun_leaks :
    Run.Each (bufStep everyOther) (fun w op => op.Permitted w) slowInstance
        [.register 0 8, .messageTx 9 true 1 [7], .unregister 0] ∧
      replay (([BufOp.register 0 8, .messageTx 9 true 1 [7], .unregister 0].foldl
        (bufStep everyOther) slowInstance).msgLedger)
        = some [0] ∧
      replay (mctpCleanup
        ([BufOp.register 0 8, .messageTx 9 true 1 [7], .unregister 0].foldl (bufStep everyOther)
        slowInstance)).msgLedger = some [0] ∧
      ¬ ∀ pre, pre <+: [BufOp.register 0 8, .messageTx 9 true 1 [7], .unregister 0] →
        BufsAccounted (pre.foldl (bufStep everyOther) slowInstance) := by
  have hlive : replay
    (([BufOp.register 0 8, .messageTx 9 true 1 [7], .unregister 0].foldl (bufStep everyOther)
      slowInstance).msgLedger) = some [0] := by decide +kernel
  have hcleaned : replay
    (mctpCleanup ([BufOp.register 0 8, .messageTx 9 true 1 [7], .unregister 0].foldl
      (bufStep everyOther) slowInstance)).msgLedger = some [0] := by decide +kernel
  refine ⟨by decide, hlive, hcleaned, fun hall => ?_⟩
  obtain ⟨live, hreplay, hperm⟩ := (hall _ List.prefix_rfl).cleaned
  rw [hcleaned] at hreplay
  rw [← Option.some.inj hreplay] at hperm
  exact absurd hperm.length_eq (by decide)

end LibMctp
