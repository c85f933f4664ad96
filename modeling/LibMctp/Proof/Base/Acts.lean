import LibMctp.Model.Receive
import Mathlib.Logic.Relation

/-!
# What a call is made of

Every call that sends or receives is a sequence of small acts on the instance and on the message
buffers the call holds. An act says all that it can do to pointers, buffers and faults, so that what
holds of every message buffer, every pointer or every assertion is checked once for each act and
never again for each function.
-/

namespace LibMctp

variable {δ : Type}

/-! ### Acts on one bus -/

/-- One act of the transmit loop, with the binding of the bus. -/
inductive IoAct (binding : MctpBinding) : BusIo δ → BusIo δ → Prop
  | deref (s : BusIo δ) : IoAct binding s { s with hist := s.hist.deref binding.mctp }
  | move {s s' : BusIo δ} (hbinding : s'.bus.binding = s.bus.binding)
    (hmctp : s'.bus.mctp = s.bus.mctp)
      (hmsg : s'.bus.txMsg = s.bus.txMsg) (heid : s'.bus.eid = s.bus.eid)
      (hseq : s.bus.txSeq.toNat < 4 → s'.bus.txSeq.toNat < 4)
      (hstate : s'.bus.state = .constructed ↔ s.bus.state = .constructed)
      (hheap : s'.hist.heap = s.hist.heap) (hfaults : s'.hist.faults = s.hist.faults)
      (htxed : s'.log.txed = s.log.txed ∨ s.bus.state ≠ .constructed) : IoAct binding s s'
  | release {s : BusIo δ} {msg : MsgBuf} (hmsg : s.bus.txMsg = some msg) :
      IoAct binding s { s with
        bus := { s.bus with txMsg := none }
        hist := { s.hist with heap := s.hist.heap ++ [.msgFree msg.addr] } }
  | hang (s : BusIo δ) : IoAct binding s { s with hist := s.hist.fault .hang }

/-! ### Acts on the instance -/

/-- The bus is one a message can be sent on. -/
def Mctp.Listed (w : Mctp δ) (i : Fin 2) : Prop :=
  (i = 0 ∧ w.nBusses ≠ 0) ∨ (i.val : Int) < w.nBusses

/-- The bus is one the source looks at. -/
def Mctp.Used (w : Mctp δ) (i : Fin 2) : Prop := w.Listed i ∨ ∃ b, (w.bindings b).bus = some i

/-- A `struct mctp` pointer the source follows. -/
def Mctp.Pointer (w : Mctp δ) (p : Option Unit) : Prop :=
  p = some () ∨ (∃ i, w.Used i ∧ (p = (w.busses i).mctp ∨ p = (w.busBinding i).mctp)) ∨
    ∃ b, (w.bindings b).bus ≠ none ∧ p = (w.bindings b).mctp

/-- One act of a call. The second component is the addresses of the buffers the call holds. -/
inductive Act : Mctp δ × List Nat → Mctp δ × List Nat → Prop
  | note {w : Mctp δ} {held : List Nat} {hist : History} (hheap : hist.heap = w.hist.heap)
      (hfaults : hist.faults = w.hist.faults) : Act (w, held) (w.withHist hist, held)
  | deref {w : Mctp δ} {held : List Nat} {p : Option Unit} (hp : w.Pointer p) :
      Act (w, held) (w.withHist (w.hist.deref p), held)
  | nullBus {w : Mctp δ} {held : List Nat} {b : Nat} (hb : (w.bindings b).bus = none) :
      Act (w, held) (w.withHist (w.hist.fault .nullBus), held)
  | assertMtu {w : Mctp δ} {held : List Nat} {i : Fin 2} (hi : w.Used i)
    (hstate : (w.busses i).state ≠ .constructed) :
      Act (w, held)
        (w.withHist (w.hist.assert (decide (mctpBodySize (w.busBinding i).pktSize ≥ mctpBtu))
          .assertValidMtu), held)
  | alloc {w : Mctp δ} {held : List Nat} :
      Act (w, held) ({ w with
        nMsgAlloc := w.nMsgAlloc + 1
        hist := { w.hist with heap := w.hist.heap ++ [.msgAlloc w.nMsgAlloc] } },
          w.nMsgAlloc :: held)
  | noAlloc {w : Mctp δ} {held : List Nat} : Act (w, held)
    ({ w with nMsgAlloc := w.nMsgAlloc + 1 }, held)
  | free {w : Mctp δ} {held : List Nat} {addr : Nat} :
      Act (w, addr :: held)
        (w.withHist { w.hist with heap := w.hist.heap ++ [.msgFree addr] }, held)
  | io {w : Mctp δ} {held : List Nat} {i : Fin 2} {s : BusIo δ} (hi : w.Used i)
      (hio : IoAct (w.busBinding i) (w.busIo i) s) : Act (w, held) (w.putBusIo i s, held)
  | take {w : Mctp δ} {held : List Nat} {i : Fin 2} (src dest : UInt8) (tagOwner : Bool)
    (msgTag : UInt8) (msg : MsgBuf)
      (msgLen : Nat) (hi : w.Listed i) (hstate : (w.busses i).state ≠ .constructed)
      (hidle : (w.busses i).txMsg = none) :
      Act (w, msg.addr :: held) (w.take i src dest tagOwner msgTag msg msgLen, held)
  | state {w : Mctp δ} {held : List Nat} {i : Fin 2} {state : MctpBusState} (hi : w.Used i)
      (hmtu : (w.busses i).state = .constructed → ∃ b, (w.bindings b).bus = some i ∧
        mctpPacketSize mctpBtu ≤ (w.bindings b).pktSize) :
      Act (w, held) (w.setBus i { w.busses i with state := state }, held)
  | eid {w : Mctp δ} {held : List Nat} {i : Fin 2} {eid : UInt8} (heid : 8 ≤ eid) :
      Act (w, held) (w.setBus i { w.busses i with eid := eid }, held)
  | keep {w : Mctp δ} {held : List Nat} {j : Fin 16} {ctx : MctpMsgCtx}
      (hbuf : ctx.buf.map MsgBuf.addr = (w.msgCtxs j).buf.map MsgBuf.addr) : Act (w, held)
      (w.setCtx j ctx, held)
  | store {w : Mctp δ} {held : List Nat} {j : Fin 16} {ctx : MctpMsgCtx} {buf : MsgBuf}
    (hfree : (w.msgCtxs j).buf = none)
      (hbuf : ctx.buf = some buf) : Act (w, buf.addr :: held) (w.setCtx j ctx, held)
  | unstore {w : Mctp δ} {held : List Nat} {j : Fin 16} {buf : MsgBuf}
    (hbuf : (w.msgCtxs j).buf = some buf) :
      Act (w, held) (w.setCtx j { w.msgCtxs j with buf := none }, buf.addr :: held)
  | tags {w : Mctp δ} {held : List Nat} (reqTags : Fin 16 → MctpReqTag) (tagRoundRobin : UInt8) :
      Act (w, held) ({ w with reqTags := reqTags, tagRoundRobin := tagRoundRobin }, held)

/-- The acts of a whole call. -/
def Acts : Mctp δ × List Nat → Mctp δ × List Nat → Prop := Relation.ReflTransGen Act

theorem Act.acts {x y : Mctp δ × List Nat} (h : Act x y) : Acts x y := .single h

theorem Acts.refl (x : Mctp δ × List Nat) : Acts x x := Relation.ReflTransGen.refl

theorem Acts.trans {x y z : Mctp δ × List Nat} (h : Acts x y) (h' : Acts y z) :
    Acts x z := Relation.ReflTransGen.trans h h'

/-- What every act keeps, a call keeps. -/
theorem Acts.invariant {P : Mctp δ × List Nat → Prop} (hact : ∀ {x y}, Act x y → P x → P y)
    {x y : Mctp δ × List Nat} (h : Acts x y) (hx : P x) : P y := by
  induction h with
  | refl => exact hx
  | tail _ hstep ih => exact hact hstep ih

/-! ### What no act touches -/

/-- The busses and bindings refer to each other as before. -/
structure SameLinks (w w' : Mctp δ) : Prop where
  nBusses : w'.nBusses = w.nBusses
  bindings : w'.bindings = w.bindings
  binding : ∀ i, (w'.busses i).binding = (w.busses i).binding
  mctp : ∀ i, (w'.busses i).mctp = (w.busses i).mctp

theorem SameLinks.refl (w : Mctp δ) : SameLinks w w := ⟨rfl, rfl, fun _ => rfl, fun _ => rfl⟩

theorem SameLinks.trans {w w' w'' : Mctp δ} (h : SameLinks w w') (h' : SameLinks w' w'') :
    SameLinks w w'' :=
  ⟨h'.nBusses.trans h.nBusses, h'.bindings.trans h.bindings, fun i =>
    (h'.binding i).trans (h.binding i),
    fun i => (h'.mctp i).trans (h.mctp i)⟩

theorem sameLinks_of_update {w w' : Mctp δ} {i : Fin 2} {bus : MctpBus}
    (hn : w'.nBusses = w.nBusses) (hbindings : w'.bindings = w.bindings)
    (hbusses : w'.busses = Function.update w.busses i bus)
    (hbinding : bus.binding = (w.busses i).binding) (hmctp : bus.mctp = (w.busses i).mctp) :
    SameLinks w w' := by
  refine ⟨hn, hbindings, fun k => ?_, fun k => ?_⟩
  · rw [hbusses]
    by_cases hk : k = i
    · rw [hk, Function.update_self]
      exact hbinding
    · rw [Function.update_of_ne hk]
  · rw [hbusses]
    by_cases hk : k = i
    · rw [hk, Function.update_self]
      exact hmctp
    · rw [Function.update_of_ne hk]

theorem IoAct.links {binding : MctpBinding} {s s' : BusIo δ} (h : IoAct binding s s') :
    s'.bus.binding = s.bus.binding ∧ s'.bus.mctp = s.bus.mctp := by
  cases h with
  | deref => exact ⟨rfl, rfl⟩
  | move hbinding hmctp => exact ⟨hbinding, hmctp⟩
  | release => exact ⟨rfl, rfl⟩
  | hang => exact ⟨rfl, rfl⟩

theorem Act.sameLinks {x y : Mctp δ × List Nat} (h : Act x y) : SameLinks x.1 y.1 := by
  cases h with
  | note => exact ⟨rfl, rfl, fun _ => rfl, fun _ => rfl⟩
  | deref => exact ⟨rfl, rfl, fun _ => rfl, fun _ => rfl⟩
  | nullBus => exact ⟨rfl, rfl, fun _ => rfl, fun _ => rfl⟩
  | assertMtu => exact ⟨rfl, rfl, fun _ => rfl, fun _ => rfl⟩
  | alloc => exact ⟨rfl, rfl, fun _ => rfl, fun _ => rfl⟩
  | noAlloc => exact ⟨rfl, rfl, fun _ => rfl, fun _ => rfl⟩
  | free => exact ⟨rfl, rfl, fun _ => rfl, fun _ => rfl⟩
  | io hi hio =>
      obtain ⟨hbinding, hmctp⟩ := hio.links
      exact sameLinks_of_update rfl rfl rfl hbinding hmctp
  | take => exact sameLinks_of_update rfl rfl rfl rfl rfl
  | state => exact sameLinks_of_update rfl rfl rfl rfl rfl
  | eid => exact sameLinks_of_update rfl rfl rfl rfl rfl
  | keep => exact ⟨rfl, rfl, fun _ => rfl, fun _ => rfl⟩
  | store => exact ⟨rfl, rfl, fun _ => rfl, fun _ => rfl⟩
  | unstore => exact ⟨rfl, rfl, fun _ => rfl, fun _ => rfl⟩
  | tags => exact ⟨rfl, rfl, fun _ => rfl, fun _ => rfl⟩

theorem Acts.sameLinks {x y : Mctp δ × List Nat} (h : Acts x y) : SameLinks x.1 y.1 :=
  h.invariant (P := fun z => SameLinks x.1 z.1) (fun hact hx => hx.trans hact.sameLinks) (.refl x.1)

section Links

variable {w w' : Mctp δ} (h : SameLinks w w')

include h

theorem SameLinks.busBinding (i : Fin 2) : w'.busBinding i = w.busBinding i := by
  rw [Mctp.busBinding, Mctp.busBinding, h.binding i, h.bindings]

theorem SameLinks.listed {i : Fin 2} (hi : w.Listed i) : w'.Listed i := by
  rw [Mctp.Listed, h.nBusses]
  exact hi

theorem SameLinks.used {i : Fin 2} (hi : w.Used i) : w'.Used i := by
  rw [Mctp.Used, h.bindings]
  exact hi.imp_left h.listed

theorem SameLinks.pointer {p : Option Unit} (hp : w.Pointer p) : w'.Pointer p := by
  rcases hp with hp | ⟨i, hi, hp⟩ | ⟨b, hb, hp⟩
  · exact .inl hp
  · refine .inr (.inl ⟨i, h.used hi, ?_⟩)
    rw [h.mctp i, h.busBinding i]
    exact hp
  · refine .inr (.inr ⟨b, ?_⟩)
    rw [h.bindings]
    exact ⟨hb, hp⟩

end Links

/-! ### Transmitting -/

section Bus

variable (env : Env δ) (b : Nat) (binding : MctpBinding) (capture : Bool)

def IoActs : BusIo δ → BusIo δ → Prop := Relation.ReflTransGen (IoAct binding)

theorem MctpBus.txDisable_fields (bus : MctpBus) :
    bus.txDisable.binding = bus.binding ∧ bus.txDisable.mctp = bus.mctp ∧
      bus.txDisable.txMsg = bus.txMsg ∧
      bus.txDisable.eid = bus.eid ∧ bus.txDisable.txSeq = bus.txSeq ∧
      (bus.txDisable.state = .constructed ↔ bus.state = .constructed) := by
  unfold txDisable
  split <;> rename_i hstate
  · exact ⟨rfl, rfl, rfl, rfl, rfl, Iff.rfl⟩
  · rw [hstate]
    exact ⟨rfl, rfl, rfl, rfl, rfl,
      (by decide : MctpBusState.txDisabled = .constructed ↔ MctpBusState.txEnabled = .constructed)⟩
  · exact ⟨rfl, rfl, rfl, rfl, rfl, Iff.rfl⟩

theorem mctpPacketTx_acts (s : BusIo δ) (pkt : MctpPktbuf) :
    IoActs binding s (mctpPacketTx env b binding capture s pkt).1 := by
  unfold mctpPacketTx
  split
  · exact .refl
  · rename_i henabled
    have hstarted : s.bus.state ≠ .constructed := by
      rw [not_not.mp henabled]
      decide
    refine Relation.ReflTransGen.head (.deref s) (.single ?_)
    have hcapture : ∀ hist : History, (hist.capture capture pkt true).heap = hist.heap ∧
        (hist.capture capture pkt true).faults = hist.faults := by
      intro hist
      cases capture <;> exact ⟨rfl, rfl⟩
    obtain ⟨hheap, hfaults⟩ := hcapture (s.hist.deref binding.mctp)
    by_cases hdisables : (env.tx b s.dev pkt).2.disables
    · obtain ⟨hbinding, hmctp, hmsg, heid, hseq, hstate⟩ := s.bus.txDisable_fields
      dsimp only
      rw [if_pos hdisables]
      exact .move hbinding hmctp hmsg heid (fun h => hseq ▸ h) hstate hheap hfaults (.inr hstarted)
    · dsimp only
      rw [if_neg hdisables]
      exact .move rfl rfl rfl rfl id Iff.rfl hheap hfaults (.inr hstarted)

theorem txSeq_masked (seq : UInt8) : (seq &&& mctpHdrSeqMask).toNat < 4 := by
  have hmask : mctpHdrSeqMask.toNat = 2 ^ 2 - 1 := rfl
  rw [UInt8.toNat_and, hmask, Nat.and_two_pow_sub_one_eq_mod]
  exact Nat.mod_lt _ (by decide)

theorem mctpTxComplete_acts (s : BusIo δ) : IoActs binding s (mctpTxComplete binding s) := by
  unfold mctpTxComplete
  split <;> rename_i hmsg
  · exact .refl
  · have hseq : ((s.bus.txSeq + 1) &&& mctpHdrSeqMask).toNat < 4 := txSeq_masked _
    dsimp only
    split
    · refine Relation.ReflTransGen.head (.deref s)
        (Relation.ReflTransGen.head (.release hmsg) (.single ?_))
      exact .move rfl rfl rfl rfl (fun _ => hseq) Iff.rfl rfl rfl (.inl rfl)
    · exact .single (.move rfl rfl rfl rfl (fun _ => hseq) Iff.rfl rfl rfl (.inl rfl))

theorem mctpSendTxQueueLoop_acts (rounds : Nat) (s : BusIo δ) :
    IoActs binding s (mctpSendTxQueueLoop env b binding capture rounds s) := by
  induction rounds generalizing s with
  | zero =>
      rw [mctpSendTxQueueLoop]
      split
      · exact .single (.hang s)
      · exact .refl
  | succ rounds ih =>
      rw [mctpSendTxQueueLoop]
      split
      · exact .refl
      · split
        · exact .refl
        · rename_i pkt bus hnext
          have hpkt : IoActs binding s { s with bus := bus } := by
            unfold mctpNextTxPkt at hnext
            split at hnext
            · cases hnext
            · injection hnext with hnext
              rw [← (Prod.mk.inj hnext).2]
              exact .single (.move rfl rfl rfl rfl id Iff.rfl rfl rfl (.inl rfl))
          have htx := hpkt.trans (mctpPacketTx_acts env b binding capture { s with bus := bus } pkt)
          have hdone := htx.trans (mctpTxComplete_acts binding _)
          dsimp only
          split
          · exact hdone.trans (ih _)
          · split
            · exact htx
            · exact hdone

end Bus

theorem Mctp.putBusIo_busIo (w : Mctp δ) (i : Fin 2) : w.putBusIo i (w.busIo i) = w := by
  unfold putBusIo busIo
  rw [Function.update_eq_self, Function.update_eq_self]

theorem Mctp.busIo_putBusIo (w : Mctp δ) (i : Fin 2) (s : BusIo δ) :
    (w.putBusIo i s).busIo i = s := by
  unfold putBusIo busIo
  dsimp only
  rw [Function.update_self, Function.update_self]

theorem Mctp.putBusIo_putBusIo (w : Mctp δ) (i : Fin 2) (s s' : BusIo δ) :
    (w.putBusIo i s).putBusIo i s' = w.putBusIo i s' := by
  unfold putBusIo
  rw [Function.update_idem, Function.update_idem]

/-- The acts of the transmit loop are acts of the instance. -/
theorem IoActs.acts {w : Mctp δ} {i : Fin 2} {s : BusIo δ}
    (h : IoActs (w.busBinding i) (w.busIo i) s) (hi : w.Used i) (held : List Nat) :
    Acts (w, held) (w.putBusIo i s, held) := by
  induction h with
  | refl =>
      rw [w.putBusIo_busIo]
      exact .refl _
  | tail _ hact ih =>
      rename_i s₁ s₂ _
      have hlinks := ih.sameLinks
      have hbinding := hlinks.busBinding i
      dsimp only at hlinks hbinding
      have hnext : Act (w.putBusIo i s₁, held) ((w.putBusIo i s₁).putBusIo i s₂, held) := by
        refine .io (hlinks.used hi) ?_
        rw [hbinding, w.busIo_putBusIo]
        exact hact
      rw [w.putBusIo_putBusIo] at hnext
      exact ih.trans hnext.acts

section Transmit

variable (env : Env δ) {w : Mctp δ} {i : Fin 2} (held : List Nat)

theorem mctpSendTxQueue_acts (hi : w.Used i) : Acts (w, held) (mctpSendTxQueue env w i, held) :=
  (mctpSendTxQueueLoop_acts env _ _ _ _ _).acts hi held

theorem mctpMsgFree_acts {ptr : MsgBuf} {p : Option Unit} (hp : w.Pointer p) :
    Acts (w, ptr.addr :: held) (mctpMsgFree w ptr p, held) :=
  (Act.deref hp).acts.trans Act.free.acts

/-- The buffer an allocation gave is held. -/
theorem mctpMsgAlloc_acts (size : Nat) {p : Option Unit} (hp : w.Pointer p) :
    Acts (w, held)
      ((mctpMsgAlloc env w size p).1,
        ((mctpMsgAlloc env w size p).2.map MsgBuf.addr).toList ++ held) := by
  unfold mctpMsgAlloc
  dsimp only
  split
  · exact (Act.deref hp).acts.trans Act.alloc.acts
  · exact (Act.deref hp).acts.trans Act.noAlloc.acts

theorem mctpMsgDup_acts (msg : List UInt8) {p : Option Unit} (hp : w.Pointer p) :
    Acts (w, held)
      ((mctpMsgDup env w msg p).1,
        ((mctpMsgDup env w msg p).2.map MsgBuf.addr).toList ++ held) := by
  have halloc := mctpMsgAlloc_acts env held msg.length hp
  unfold mctpMsgDup
  cases hcase : mctpMsgAlloc env w msg.length p with
  | mk w' buf =>
      rw [hcase] at halloc
      cases buf with
      | none => exact halloc
      | some buf => exact halloc

theorem mctpMessageTxErr_acts {msg : MsgBuf} {rc : Int} (hi : w.Used i) :
    Acts (w, msg.addr :: held) ((mctpMessageTxErr w i msg rc).1, held) :=
  mctpMsgFree_acts held (.inr (.inl ⟨i, hi, .inr rfl⟩))

/-- A message given to a bus is sent, queued or freed. -/
theorem mctpMessageTxOnBus_acts {src dest : UInt8} {tagOwner : Bool} {msgTag : UInt8} {msg : MsgBuf}
    {msgLen : Nat} (hlisted : w.Listed i) :
    Acts (w, msg.addr :: held)
      ((mctpMessageTxOnBus env w i src dest tagOwner msgTag msg msgLen).1, held) := by
  have hi : w.Used i := .inl hlisted
  unfold mctpMessageTxOnBus
  dsimp only
  split
  · exact mctpMessageTxErr_acts held hi
  · rename_i hstate
    split
    · exact mctpMessageTxErr_acts held hi
    · have hassert : Acts (w, msg.addr :: held) (_, msg.addr :: held) :=
        (Act.assertMtu hi hstate).acts
      have hlinks := hassert.sameLinks
      split
      · exact hassert.trans (mctpMessageTxErr_acts held (hlinks.used hi))
      · split
        · exact hassert.trans (mctpMessageTxErr_acts held (hlinks.used hi))
        · rename_i hidle
          have hnone : (w.busses i).txMsg = none := by simpa using hidle
          have htake :=
            hassert.trans
            (Act.take src dest tagOwner msgTag msg msgLen (hlinks.listed hlisted) hstate hnone).acts
          exact htake.trans (mctpSendTxQueue_acts env held (htake.sameLinks.used hi))

theorem listed_of_findBusForEid {eid : UInt8} (h : findBusForEid w eid = some i) : w.Listed i := by
  unfold findBusForEid at h
  split at h
  · cases h
  · rename_i hn
    injection h with h
    exact .inl ⟨h.symm, hn⟩

theorem mctpMessageTxAlloced_acts (msg : MsgBuf) {eid : UInt8} {tagOwner : Bool} {msgTag : UInt8}
    {msgLen : Nat} :
    Acts (w, msg.addr :: held)
      ((mctpMessageTxAlloced env w eid tagOwner msgTag msg msgLen).1, held) := by
  unfold mctpMessageTxAlloced
  split
  · exact mctpMsgFree_acts held (.inl rfl)
  · split <;> rename_i hbus
    · exact mctpMsgFree_acts held (.inl rfl)
    · exact mctpMessageTxOnBus_acts env held (listed_of_findBusForEid hbus)

theorem mctpMessageTx_acts {eid : UInt8} {tagOwner : Bool} {msgTag : UInt8} {msg : List UInt8} :
    Acts (w, held) ((mctpMessageTx env w eid tagOwner msgTag msg).1, held) := by
  have hdup := mctpMsgDup_acts env held msg (w := w) (p := some ()) (.inl rfl)
  unfold mctpMessageTx
  cases hcase : mctpMsgDup env w msg (some ()) with
  | mk w' copy =>
      rw [hcase] at hdup
      cases copy with
      | none => exact hdup
      | some copy => exact hdup.trans (mctpMessageTxAlloced_acts env held copy)

theorem mctpBindingSetTxEnabled_acts {b : Nat} {enable : Bool} :
    Acts (w, held) (mctpBindingSetTxEnabled env w b enable, held) := by
  unfold mctpBindingSetTxEnabled
  split <;> rename_i hb
  · exact (Act.nullBus hb).acts
  · rename_i i
    have hi : w.Used i := .inr ⟨b, hb⟩
    dsimp only
    split <;> rename_i hstate
    · split
      · exact .refl _
      · split
        · exact .refl _
        · rename_i hsize
          exact (Act.state hi fun _ => ⟨b, hb, Nat.le_of_not_lt hsize⟩).acts
    · split
      · exact .refl _
      · exact (Act.state hi fun hcon => by simp [hstate] at hcon).acts
    · split
      · exact .refl _
      · have henable : Acts (w, held) (w.setBus i { w.busses i with state := .txEnabled }, held) :=
          (Act.state hi fun hcon => by simp [hstate] at hcon).acts
        exact henable.trans (mctpSendTxQueue_acts env held (henable.sameLinks.used hi))

end Transmit

/-! ### Receiving -/

section Receive

variable (env : Env δ) {w : Mctp δ} {i : Fin 2} (held : List Nat)

theorem note_acts {hist : History} (hheap : hist.heap = w.hist.heap)
    (hfaults : hist.faults = w.hist.faults) :
    Acts (w, held) (w.withHist hist, held) := (Act.note hheap hfaults).acts

theorem upcall_acts (call : Upcall) : Acts (w, held) (w.upcall call, held) := note_acts held rfl rfl

theorem handUp_acts (msg : Message) : Acts (w, held) (w.handUp msg, held) := note_acts held rfl rfl

theorem pointer_of_used (hi : w.Used i) :
    w.Pointer (w.busses i).mctp := .inr (.inl ⟨i, hi, .inl rfl⟩)

theorem sendResp_acts {p : Option Unit} (hp : w.Pointer p) {srcEid msgTag : UInt8}
    {resp : List UInt8} :
    Acts (w, held) ((sendResp env w p srcEid msgTag resp).1, held) := by
  have halloc := mctpMsgAlloc_acts env held resp.length hp
  unfold sendResp
  cases hcase : mctpMsgAlloc env w resp.length p with
  | mk w' buf =>
      rw [hcase] at halloc
      cases buf with
      | none => exact halloc
      | some buf =>
          exact halloc.trans (mctpMessageTxAlloced_acts env held { buf with bytes := resp })

theorem mctpBusSetEid_acts {b : Nat} {eid : UInt8} :
    Acts (w, held) ((mctpBusSetEid w b eid).1, held) := by
  unfold mctpBusSetEid
  split
  · exact .refl _
  · rename_i hbad
    split <;> rename_i hb
    · exact (Act.nullBus hb).acts
    · refine (Act.eid ?_).acts
      rw [not_or, UInt8.not_lt] at hbad
      exact hbad.1

theorem mctpCtrlSetEndpointId_acts (hi : w.Used i) {srcEid msgTag : UInt8} {data : List UInt8} :
    Acts (w, held) ((mctpCtrlSetEndpointId env w i srcEid msgTag data).1, held) := by
  unfold mctpCtrlSetEndpointId
  split
  · exact .refl _
  · dsimp only
    split
    · exact .refl _
    · have hset : Acts (w, held)
          ((mctpBusSetEid w ((w.busses i).binding.getD 0) (data.getD 4 0)).1, held) :=
        mctpBusSetEid_acts held
      split
      · exact hset
      · exact hset.trans (sendResp_acts env held (pointer_of_used (hset.sameLinks.used hi)))

theorem ctrlDispatch_acts (hi : w.Used i) {srcEid msgTag : UInt8} {data : List UInt8} :
    Acts (w, held) ((ctrlDispatch env w i srcEid msgTag data).1, held) := by
  have hpointer := pointer_of_used hi
  unfold ctrlDispatch
  dsimp only
  split
  · exact mctpCtrlSetEndpointId_acts env held hi
  · split
    · unfold mctpCtrlGetEndpointId
      split
      · exact .refl _
      · exact sendResp_acts env held hpointer
    · split
      · unfold mctpCtrlGetVersion
        split
        · exact .refl _
        · split
          · exact .refl _
          · exact sendResp_acts env held hpointer
      · split
        · unfold mctpCtrlGetTypes
          split
          · exact .refl _
          · exact sendResp_acts env held hpointer
        · exact .refl _

theorem mctpControlHandler_acts (hi : w.Used i) {srcEid : UInt8} {tagOwner : Bool} {msgTag : UInt8}
    {data : List UInt8} :
    Acts (w, held) ((mctpControlHandler env w i srcEid tagOwner msgTag data).1, held) := by
  unfold mctpControlHandler replyError
  dsimp only
  split_ifs
  · exact .refl _
  · exact .refl _
  · exact .refl _
  · exact .refl _
  · exact .refl _
  all_goals
    have hdispatch : Acts (w, held) ((ctrlDispatch env w i srcEid msgTag data).1, held) :=
      ctrlDispatch_acts env held hi
  · exact hdispatch.trans (sendResp_acts env held (pointer_of_used (hdispatch.sameLinks.used hi)))
  · exact hdispatch

theorem mctpRxControl_acts (hi : w.Used i) (msg : Message) :
    Acts (w, held) ((mctpRxControl env w i msg).1, held) := by
  unfold mctpRxControl
  split
  · unfold mctpCtrlHandleMsg
    split
    · split
      · exact upcall_acts held _
      · exact .refl _
    · exact mctpControlHandler_acts env held hi
  · exact .refl _

theorem mctpDeallocTag_acts (hi : w.Used i) {localEid remote tag : UInt8} :
    Acts (w, held) (mctpDeallocTag w i localEid remote tag, held) := by
  have hderef : Acts (w, held) (w.withHist (w.hist.deref (w.busBinding i).mctp), held) :=
    (Act.deref (.inr (.inl ⟨i, hi, .inr rfl⟩))).acts
  unfold mctpDeallocTag
  dsimp only
  split
  · exact hderef
  · split
    · exact hderef
    · exact hderef.trans (Act.tags _ _).acts

theorem mctpRxEndpoint_acts (hi : w.Used i) {msg : Message} :
    Acts (w, held) (mctpRxEndpoint env w i msg, held) := by
  have hfreed : Acts (w, held)
      (if !msg.tagOwner then mctpDeallocTag w i msg.dest msg.src msg.tag else w, held) := by
    split
    · exact mctpDeallocTag_acts held hi
    · exact .refl _
  have hcontrol := hfreed.trans (mctpRxControl_acts env held (hfreed.sameLinks.used hi) msg)
  unfold mctpRxEndpoint
  dsimp only
  split <;> rename_i hcase <;> rw [hcase] at hcontrol
  · exact hcontrol
  · split
    · exact hcontrol.trans (upcall_acts held _)
    · exact hcontrol

theorem mctpRxBridge_acts (i : Fin 2) (msg : Message) (ks : List (Fin 2)) (w : Mctp δ) :
    Acts (w, held) (mctpRxBridge env i msg ks w, held) := by
  induction ks generalizing w with
  | nil => exact .refl _
  | cons k ks ih =>
      rw [mctpRxBridge]
      split
      · exact .refl _
      · rename_i hk
        split
        · exact ih w
        · have hdup := mctpMsgDup_acts env held msg.bytes (w := w) (p := some ()) (.inl rfl)
          cases hcase : mctpMsgDup env w msg.bytes (some ()) with
          | mk w' copy =>
              rw [hcase] at hdup
              cases copy with
              | none => exact hdup
              | some copy =>
                  have hused : w'.Listed k := hdup.sameLinks.listed (.inr (not_not.mp hk))
                  exact (hdup.trans (mctpMessageTxOnBus_acts env held hused)).trans (ih _)

theorem mctpRx_acts (hi : w.Used i) {msg : Message} :
    Acts (w, held) (mctpRx env w i msg, held) := by
  have hhanded : Acts (w, held) (w.handUp msg, held) := handUp_acts held msg
  unfold mctpRx
  dsimp only
  split
  · split
    · exact hhanded.trans (mctpRxEndpoint_acts env held (hhanded.sameLinks.used hi))
    · exact hhanded
  · exact hhanded.trans (mctpRxBridge_acts env held i msg _ _)

/-- A context drop takes the buffer out and frees it. -/
theorem mctpMsgCtxDrop_acts (hi : w.Used i) (j : Fin 16) :
    Acts (w, held) (mctpMsgCtxDrop w i j, held) := by
  have hp := pointer_of_used hi
  cases hbuf : (w.msgCtxs j).buf with
  | none =>
      have hkeep : Acts (w, held) (w.setCtx j { w.msgCtxs j with buf := none }, held) :=
        (Act.keep (by rw [hbuf])).acts
      unfold mctpMsgCtxDrop
      dsimp only
      rw [hbuf]
      exact hkeep.trans (Act.deref (hkeep.sameLinks.pointer hp)).acts
  | some buf =>
      have hdrop : Acts (w, held) (w.setCtx j { w.msgCtxs j with buf := none }, buf.addr :: held) :=
        (Act.unstore hbuf).acts
      unfold mctpMsgCtxDrop
      dsimp only
      rw [hbuf]
      exact hdrop.trans (mctpMsgFree_acts held (hdrop.sameLinks.pointer hp))

theorem mctpRx_free_acts (hi : w.Used i) {msg : Message} {p : MsgBuf} :
    Acts (w, p.addr :: held) (mctpMsgFree (mctpRx env w i msg) p (some ()), held) :=
  (mctpRx_acts env (p.addr :: held) hi).trans (mctpMsgFree_acts held (.inl rfl))

theorem mctpRx_drop_acts (hi : w.Used i) {msg : Message} {j : Fin 16} :
    Acts (w, held) (mctpMsgCtxDrop (mctpRx env w i msg) i j, held) := by
  have hrx : Acts (w, held) (mctpRx env w i msg, held) := mctpRx_acts env held hi
  exact hrx.trans (mctpMsgCtxDrop_acts held (hrx.sameLinks.used hi) j)

theorem mctpMsgCtxCreate_acts {src dest tag : UInt8} :
    Acts (w, held) ((mctpMsgCtxCreate env w src dest tag).1, held) := by
  unfold mctpMsgCtxCreate
  split <;> rename_i hfirst
  · exact .refl _
  · rename_i j
    have hnone : (w.msgCtxs j).buf = none := by simpa using (Table.first_some hfirst)
    have halloc := mctpMsgAlloc_acts env held w.maxMessageSize.toNat (w := w)
      (p := some ()) (.inl rfl)
    have hctxs : (mctpMsgAlloc env w w.maxMessageSize.toNat (some ())).1.msgCtxs = w.msgCtxs := by
      unfold mctpMsgAlloc
      dsimp only
      split <;> rfl
    dsimp only
    cases hcase : mctpMsgAlloc env w w.maxMessageSize.toNat (some ()) with
    | mk w' buf =>
        rw [hcase] at halloc hctxs
        dsimp only at hctxs
        have hnone' : (w'.msgCtxs j).buf = none := by rw [hctxs, hnone]
        cases buf with
        | none => exact halloc.trans (Act.keep (by rw [hnone', hnone])).acts
        | some buf => exact halloc.trans (Act.store hnone' rfl).acts

theorem mctpMsgCtxAddPkt_addr {ctx ctx' : MctpMsgCtx} {pkt : MctpPktbuf}
    (h : mctpMsgCtxAddPkt ctx pkt = some ctx') :
    ctx'.buf.map MsgBuf.addr = ctx.buf.map MsgBuf.addr := by
  unfold mctpMsgCtxAddPkt at h
  dsimp only at h
  split at h
  · cases h
  · split at h
    · cases h
    · injection h with h
      rw [← h, Option.map_map]
      rfl

theorem busRxStart_acts (hi : w.Used i) {pkt : MctpPktbuf} {j : Fin 16} :
    Acts (w, held) (busRxStart w i pkt j, held) := by
  have hkeep : Acts (w, held) (w.setCtx j { w.msgCtxs j with fragmentSize := mctpPktbufSize pkt },
      held) := (Act.keep (by rfl)).acts
  unfold busRxStart
  dsimp only
  cases hadd : mctpMsgCtxAddPkt { w.msgCtxs j with fragmentSize := mctpPktbufSize pkt } pkt with
  | none => exact hkeep.trans (mctpMsgCtxDrop_acts held (hkeep.sameLinks.used hi) j)
  | some ctx =>
      have haddr := mctpMsgCtxAddPkt_addr hadd
      refine (Act.keep ?_).acts
      exact haddr

theorem busRxSingle_acts (hi : w.Used i) {pkt : MctpPktbuf} :
    Acts (w, held) (busRxSingle env w i pkt, held) := by
  unfold busRxSingle
  dsimp only
  have hdup := mctpMsgDup_acts env held
    (mctpPktbufData pkt (subSize (subSize pkt.end_ pkt.mctpHdrOff) mctpHdrSize)) (w := w)
    (p := some ()) (.inl rfl)
  cases hcase : mctpMsgDup env w
    (mctpPktbufData pkt (subSize (subSize pkt.end_ pkt.mctpHdrOff) mctpHdrSize)) (some ()) with
  | mk w' p =>
      rw [hcase] at hdup
      cases p with
      | none => exact hdup
      | some p =>
          exact hdup.trans (mctpRx_free_acts env held (hdup.sameLinks.used hi))

theorem busRxSom_acts (hi : w.Used i) {pkt : MctpPktbuf} :
    Acts (w, held) (busRxSom env w i pkt, held) := by
  unfold busRxSom
  dsimp only
  split
  · rename_i j _
    have hreset : Acts (w, held) (w.setCtx j (mctpMsgCtxReset (w.msgCtxs j)), held) :=
      (Act.keep (by rfl)).acts
    exact hreset.trans (busRxStart_acts held (hreset.sameLinks.used hi))
  · have hcreate : Acts (w, held)
      ((mctpMsgCtxCreate env w (mctpPktbufHdr pkt).src (mctpPktbufHdr pkt).dest
        (hdrTag (mctpPktbufHdr pkt))).1, held) := mctpMsgCtxCreate_acts env held
    split <;> rename_i hcase <;> rw [hcase] at hcreate
    · exact hcreate
    · exact hcreate.trans (busRxStart_acts held (hcreate.sameLinks.used hi))

theorem busRxEom_acts (hi : w.Used i) {pkt : MctpPktbuf} :
    Acts (w, held) (busRxEom env w i pkt, held) := by
  unfold busRxEom
  dsimp only
  split
  · exact .refl _
  · rename_i j _
    have hdrop : Acts (w, held) (mctpMsgCtxDrop w i j, held) := mctpMsgCtxDrop_acts held hi j
    split
    · exact hdrop
    · split
      · exact hdrop
      · cases hadd : mctpMsgCtxAddPkt (w.msgCtxs j) pkt with
        | none => exact hdrop
        | some ctx =>
            have hkeep : Acts (w, held) (w.setCtx j ctx, held) :=
              (Act.keep (mctpMsgCtxAddPkt_addr hadd)).acts
            exact hkeep.trans (mctpRx_drop_acts env held (hkeep.sameLinks.used hi))

theorem busRxMiddle_acts (hi : w.Used i) {pkt : MctpPktbuf} :
    Acts (w, held) (busRxMiddle w i pkt, held) := by
  unfold busRxMiddle
  dsimp only
  split
  · exact .refl _
  · rename_i j _
    have hdrop : Acts (w, held) (mctpMsgCtxDrop w i j, held) := mctpMsgCtxDrop_acts held hi j
    split
    · exact hdrop
    · split
      · exact hdrop
      · cases hadd : mctpMsgCtxAddPkt (w.msgCtxs j) pkt with
        | none => exact hdrop
        | some ctx =>
            have haddr := mctpMsgCtxAddPkt_addr hadd
            refine (Act.keep ?_).acts
            exact haddr

/-- **Receiving a packet is a sequence of acts, and leaves the call with no buffer.** -/
theorem mctpBusRx_acts {b : Nat} {pkt : MctpPktbuf} :
    Acts (w, held) (mctpBusRx env w b pkt, held) := by
  unfold mctpBusRx
  split <;> rename_i hb
  · exact (Act.nullBus hb).acts
  · rename_i i
    have hi : w.Used i := .inr ⟨b, hb⟩
    have hseen : Acts (w, held)
        (w.withHist ((w.hist.deref (w.bindings b).mctp).capture w.capture pkt false), held) := by
      refine (Act.deref (.inr (.inr ⟨b, by rw [hb]; exact Option.some_ne_none i, rfl⟩))).acts.trans
        (note_acts held ?_ ?_)
      · cases w.capture <;> rfl
      · cases w.capture <;> rfl
    have hused := hseen.sameLinks.used hi
    dsimp only
    split_ifs
    · exact .refl _
    · exact hseen
    · exact hseen
    · exact hseen.trans (busRxSingle_acts env held hused)
    · exact hseen.trans (busRxSom_acts env held hused)
    · exact hseen.trans (busRxEom_acts env held hused)
    · exact hseen.trans (busRxMiddle_acts held hused)

/-- The instance after `mctp_alloc_tag` checked its assertion. -/
def Mctp.allocChecked (w : Mctp δ) (localEid : UInt8) : Mctp δ :=
  w.withHist (w.hist.assert (decide (localEid ≠ 0)) .assertLocal)

theorem mctpAllocTag_acts {localEid remote : UInt8} :
    Acts (w.allocChecked localEid, held) ((mctpAllocTag w localEid remote).1, held) := by
  unfold mctpAllocTag
  dsimp only
  split
  · exact .refl _
  · split
    · exact .refl _
    · exact (Act.tags _ _).acts

/-- The instance once a request has come past the assertion, if there is a bus to send it on. -/
def Mctp.requestChecked (w : Mctp δ) : Mctp δ :=
  if w.nBusses = 0 then w else w.allocChecked (w.busses 0).eid

/-- What a request does beside its assertion, the one that no other call makes. -/
theorem mctpMessageTxRequest_acts (msg : MsgBuf) {eid : UInt8} {msgLen : Nat} :
    Acts (w.requestChecked, msg.addr :: held)
      ((mctpMessageTxRequest env w eid msg msgLen).1, held) := by
  unfold mctpMessageTxRequest Mctp.requestChecked findBusForEid
  by_cases hn : w.nBusses = 0
  · rw [if_pos hn, if_pos hn]
    exact mctpMsgFree_acts held (.inl rfl)
  · rw [if_neg hn, if_neg hn]
    dsimp only
    have halloc : Acts (w.allocChecked (w.busses 0).eid, msg.addr :: held)
        ((mctpAllocTag w (w.busses 0).eid eid).1, msg.addr :: held) :=
        mctpAllocTag_acts (msg.addr :: held)
    split <;> rename_i hcase <;> rw [hcase] at halloc
    · exact halloc.trans (mctpMsgFree_acts held (.inl rfl))
    · exact halloc.trans (mctpMessageTxAlloced_acts env held msg)

end Receive

end LibMctp
