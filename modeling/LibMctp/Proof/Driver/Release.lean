import LibMctp.Lib.Ledger
import LibMctp.Lib.Run
import LibMctp.Proof.Base.Acts
import LibMctp.Proof.Driver.Region

/-!
# The release of received packets

`mctp_bus_rx` is said to free the packet it is given, and an MMBI binding leaves that to it. No path
of `mctp_bus_rx` frees a packet, so each packet that a binding comes to hand over stays allocated
for good.
-/

namespace LibMctp

open Ledger

variable {δ : Type}

/-! ### The packet buffers of an instance -/

def HeapOp.pktEntry : HeapOp → Option (Entry Nat)
  | .pktAlloc addr => some (.gain addr)
  | .pktFree addr => some (.lose addr)
  | _ => none

/-- The packet buffers allocated and freed so far. -/
def Mctp.pktLedger (w : Mctp δ) : List (Entry Nat) := w.hist.heap.filterMap HeapOp.pktEntry

/-- Every packet buffer that a call allocates is freed in it, and none is freed twice. -/
def Released (w w' : Mctp δ) : Prop :=
  ∃ entries, w'.pktLedger = w.pktLedger ++ entries ∧ Balanced entries []

section Released

variable {w w' : Mctp δ} {addr : Nat}

theorem released_of_eq (h : w'.pktLedger = w.pktLedger) : Released w w' :=
  ⟨[], by rw [h, List.append_nil], balanced_nil⟩

theorem balanced_gain (addr : Nat) : Balanced [.gain addr] [addr] :=
  balanced_nil.gain (a := addr) List.not_mem_nil

theorem released_of_freed (addr : Nat)
    (h : w'.pktLedger = w.pktLedger ++ [.gain addr, .lose addr]) :
    Released w w' :=
  ⟨_, h, (balanced_gain addr).lose⟩

theorem not_released_of_gain (addr : Nat) (h : w'.pktLedger = w.pktLedger ++ [.gain addr]) :
    ¬ Released w w' := by
  rintro ⟨entries, hentries, hbalanced⟩
  have hsame : entries = [.gain addr] := List.append_cancel_left (hentries.symm.trans h)
  rw [hsame] at hbalanced
  exact absurd (hbalanced.unique (balanced_gain addr)).length_eq (by simp)

theorem pktLedger_append (ops : List HeapOp) (h : w'.hist.heap = w.hist.heap ++ ops) :
    w'.pktLedger = w.pktLedger ++ ops.filterMap HeapOp.pktEntry := by
  rw [Mctp.pktLedger, h, List.filterMap_append]
  rfl

theorem pktLedger_of_append {ops : List HeapOp} (h : w'.hist.heap = w.hist.heap ++ ops)
    (hops : ops.filterMap HeapOp.pktEntry = []) : w'.pktLedger = w.pktLedger := by
  rw [pktLedger_append ops h, hops, List.append_nil]

theorem pktLedger_congr (h : w'.hist.heap = w.hist.heap) : w'.pktLedger = w.pktLedger := by
  rw [Mctp.pktLedger, h]
  rfl

end Released

/-! ### What the core does to packet buffers -/

section Core

theorem IoAct.pktEntries {binding : MctpBinding} {s s' : BusIo δ} (h : IoAct binding s s') :
    s'.hist.heap.filterMap HeapOp.pktEntry = s.hist.heap.filterMap HeapOp.pktEntry := by
  cases h with
  | deref => rw [History.heap_deref]
  | move _ _ _ _ _ _ hheap => rw [hheap]
  | release hmsg =>
      dsimp only
      rw [List.filterMap_append]
      exact List.append_nil _
  | hang => rfl

theorem Act.pktLedger {x y : Mctp δ × List Nat} (h : Act x y) : y.1.pktLedger = x.1.pktLedger := by
  cases h with
  | note hheap => exact pktLedger_congr hheap
  | deref => exact pktLedger_congr (History.heap_deref _ _)
  | assertMtu => exact pktLedger_congr (History.heap_assert _ _ _)
  | alloc => exact pktLedger_of_append rfl rfl
  | free => exact pktLedger_of_append rfl rfl
  | io _ hio => exact hio.pktEntries
  | _ => exact pktLedger_congr rfl

/-- `mctp_bus_rx` allocates and frees no packet buffer, on any of its paths. -/
theorem mctpBusRx_pktLedger (env : Env δ) (w : Mctp δ) (b : Nat) (pkt : MctpPktbuf) :
    (mctpBusRx env w b pkt).pktLedger = w.pktLedger :=
  (mctpBusRx_acts env []).invariant (P := fun x => x.1.pktLedger = w.pktLedger)
    (fun hact hx => hact.pktLedger.trans hx) rfl

end Core

/-! ### Receiving on a binding -/

/-- A call that receives. Before `mctp_mmbi_rx` the other side has put its bytes into the region, if
there is one. -/
inductive ReceiveOp where
  | rx (bytes : List UInt8) (len : Nat)
  | poll

def Mctp.putRegion (w : Mctp (MctpBindingMmbi × δ)) (bytes : List UInt8) :
    Mctp (MctpBindingMmbi × δ) :=
  { w with dev := ({ w.dev.1 with rxStorage := w.dev.1.rxStorage.map fun _ => bytes }, w.dev.2) }

section Receive

variable (env : Env (MctpBindingMmbi × δ)) (port : MmbiPort δ) (b : Nat)

def receiveStep (w : Mctp (MctpBindingMmbi × δ)) : ReceiveOp → Mctp (MctpBindingMmbi × δ)
  | .rx bytes len => (mctpMmbiRx env (w.putRegion bytes) b len).1
  | .poll => (mctpMmbiPoll env port w b).1

/-- The device has bytes that make a packet. -/
def MmbiPort.Delivers (dev : δ) (pktSize : Nat) : Prop :=
  (port.peekNamedPipe dev).getD 1 ≠ 0 ∧
    ∃ d bytes, port.readFile dev (maxToRead pktSize) = (d, .ok bytes) ∧ 0 < bytes.length ∧
      bytes.length ≤ pktSize

/-- The call comes to hand a packet to `mctp_bus_rx`: there is a region or a handle with a packet in
it, whose buffer can be allocated, and whose bytes fit twice where they are pushed. -/
def ReceiveOp.HandsOver (w : Mctp (MctpBindingMmbi × δ)) : ReceiveOp → Prop
  | .rx _ len =>
    (w.dev.1.rxStorage ≠ none ∧ len ≤ w.dev.1.memorySize ∧ 2 * len ≤ (w.bindings b).pktSize) ∧
      env.pktAlloc w.nPktAlloc = true
  | .poll =>
      (w.dev.1.deviceHandle = true ∧ port.Delivers w.dev.2 (w.bindings b).pktSize) ∧
        env.pktAlloc w.nPktAlloc = true

variable {env port b} {w : Mctp (MctpBindingMmbi × δ)}

theorem storageSize_of_bare {binding : MctpBinding} (hbare : binding.Bare) :
    binding.storageSize = binding.pktSize := by
  rw [MctpBinding.storageSize, hbare.header, hbare.trailer]
  rfl

theorem pktbufAlloc_none {env : Env δ} {w : Mctp δ} {len : Nat} (hbare : (w.bindings b).Bare)
    (h : ¬ (len ≤ (w.bindings b).pktSize ∧ env.pktAlloc w.nPktAlloc = true)) :
    ∃ n, w.pktbufAlloc env b len = ({ w with nPktAlloc := n }, none) := by
  have hnone : mctpPktbufAlloc (w.bindings b) (env.pktAlloc w.nPktAlloc) len = none := by
    rw [mctpPktbufAlloc, storageSize_of_bare hbare]
    split
    · rfl
    · rename_i hlen
      rw [if_neg fun halloc => h ⟨Nat.le_of_not_lt hlen, halloc⟩]
  unfold Mctp.pktbufAlloc
  dsimp only
  rw [hnone]
  exact ⟨_, rfl⟩

theorem pktAlloced_pktLedger (w : Mctp δ) :
    w.pktAlloced.pktLedger = w.pktLedger ++ [.gain w.nPktAlloc] :=
  pktLedger_append [.pktAlloc w.nPktAlloc] rfl

/-! #### The memory region -/

theorem mctpMmbiRx_not_released {len : Nat} {region : List UInt8} (hbare : (w.bindings b).Bare)
    (hregion : w.dev.1.rxStorage = some region) (hmem : len ≤ w.dev.1.memorySize)
    (hfits : 2 * len ≤ (w.bindings b).pktSize) (halloc : env.pktAlloc w.nPktAlloc = true) :
    ¬ Released w (mctpMmbiRx env w b len).1 := by
  apply not_released_of_gain w.nPktAlloc
  rw [mctpMmbiRx_eq env hbare hregion hmem (by omega) halloc, if_pos hfits]
  dsimp only
  rw [mctpBusRx_pktLedger, pktAlloced_pktLedger]

theorem mctpMmbiRx_released {len : Nat} (hbare : (w.bindings b).Bare)
    (h : ¬ ((w.dev.1.rxStorage ≠ none ∧ len ≤ w.dev.1.memorySize ∧
      2 * len ≤ (w.bindings b).pktSize) ∧ env.pktAlloc w.nPktAlloc = true)) :
    Released w (mctpMmbiRx env w b len).1 := by
  cases hregion : w.dev.1.rxStorage with
  | none =>
      apply released_of_eq
      unfold mctpMmbiRx
      rw [hregion]
  | some region =>
      by_cases hmem : len ≤ w.dev.1.memorySize
      · by_cases hbuf : len ≤ (w.bindings b).pktSize ∧ env.pktAlloc w.nPktAlloc = true
        · -- the push fails, and this one failure is where the buffer is freed
          have hlong : ¬ 2 * len ≤ (w.bindings b).pktSize := by
            intro hfits
            refine h ⟨⟨?_, hmem, hfits⟩, hbuf.2⟩
            rw [hregion]
            exact Option.some_ne_none region
          apply released_of_freed w.nPktAlloc
          rw [mctpMmbiRx_eq env hbare hregion hmem hbuf.1 hbuf.2, if_neg hlong]
          exact pktLedger_append [.pktAlloc w.nPktAlloc, .pktFree w.nPktAlloc]
            (List.append_assoc _ _ _)
        · obtain ⟨n, hnone⟩ := pktbufAlloc_none hbare hbuf
          apply released_of_eq
          unfold mctpMmbiRx
          rw [hregion]
          dsimp only
          rw [if_neg (by omega), hnone]
          rfl
      · apply released_of_eq
        unfold mctpMmbiRx
        rw [hregion]
        dsimp only
        rw [if_pos (Nat.lt_of_not_le hmem)]

/-! #### The device -/

theorem mctpMmbiPoll_not_released (hbare : (w.bindings b).Bare)
    (hhandle : w.dev.1.deviceHandle = true)
    (hdelivers : port.Delivers w.dev.2 (w.bindings b).pktSize)
    (halloc : env.pktAlloc w.nPktAlloc = true) :
    ¬ Released w (mctpMmbiPoll env port w b).1 := by
  obtain ⟨hpeek, d, bytes, hread, hpos, hlen⟩ := hdelivers
  apply not_released_of_gain w.nPktAlloc
  rw [mctpMmbiPoll_eq env hbare hhandle hpeek hread hpos hlen halloc]
  dsimp only
  rw [mctpBusRx_pktLedger, pktAlloced_pktLedger]
  rfl

theorem mmbiPollPacket_idle (hbare : (w.bindings b).Bare)
    (h : ¬ ((w.dev.1.deviceHandle = true ∧ port.Delivers w.dev.2 (w.bindings b).pktSize) ∧
      env.pktAlloc w.nPktAlloc = true)) :
    (mmbiPollPacket env port w b).1.pktLedger = w.pktLedger ∧
      ∀ pkt, (mmbiPollPacket env port w b).2 ≠ .packet pkt := by
  unfold mmbiPollPacket
  dsimp only
  split
  · exact ⟨rfl, fun pkt => MmbiPoll.noConfusion⟩
  · rename_i hhandle
    split
    · exact ⟨rfl, fun pkt => MmbiPoll.noConfusion⟩
    · rename_i hpeek
      split
      · exact ⟨rfl, fun pkt => MmbiPoll.noConfusion⟩
      · rename_i d bytes hread
        unfold mmbiFill
        split
        · rename_i hpos
          have hbuf : ¬ (bytes.length ≤ (w.bindings b).pktSize ∧
              env.pktAlloc w.nPktAlloc = true) := by
            rintro ⟨hlen, halloc⟩
            exact h ⟨⟨by simpa using hhandle, hpeek, d, bytes, hread, hpos, hlen⟩, halloc⟩
          obtain ⟨n, hnone⟩ := pktbufAlloc_none (w := { w with dev := (w.dev.1, d) }) hbare hbuf
          rw [hnone]
          exact ⟨rfl, fun pkt => MmbiPoll.noConfusion⟩
        · exact ⟨rfl, fun pkt => MmbiPoll.noConfusion⟩

theorem mctpMmbiPoll_released (hbare : (w.bindings b).Bare)
    (h : ¬ ((w.dev.1.deviceHandle = true ∧ port.Delivers w.dev.2 (w.bindings b).pktSize) ∧
      env.pktAlloc w.nPktAlloc = true)) :
    Released w (mctpMmbiPoll env port w b).1 := by
  obtain ⟨hledger, hno⟩ := mmbiPollPacket_idle hbare h
  apply released_of_eq
  unfold mctpMmbiPoll
  cases hpoll : mmbiPollPacket env port w b with
  | mk w₁ result =>
      rw [hpoll] at hledger hno
      cases result with
      | idle rc => exact hledger
      | noBuffer bytes => exact hledger
      | packet pkt => exact absurd rfl (hno pkt)

/-! #### Runs -/

theorem putRegion_isSome (w : Mctp (MctpBindingMmbi × δ)) (bytes : List UInt8) :
    (w.putRegion bytes).dev.1.rxStorage ≠ none ↔ w.dev.1.rxStorage ≠ none := by
  simp [Mctp.putRegion]

theorem released_step_iff (hbare : (w.bindings b).Bare) (op : ReceiveOp) :
    Released w (receiveStep env port b w op) ↔ ¬ op.HandsOver env port b w := by
  cases op with
  | rx bytes len =>
      constructor
      · rintro hreleased ⟨⟨hregion, hmem, hfits⟩, halloc⟩
        obtain ⟨region, hregion⟩ :=
          Option.ne_none_iff_exists'.mp ((putRegion_isSome w bytes).mpr hregion)
        exact mctpMmbiRx_not_released (w := w.putRegion bytes) hbare hregion
          hmem hfits halloc hreleased
      · intro h
        refine mctpMmbiRx_released (w := w.putRegion bytes) hbare fun hover => h ?_
        exact ⟨⟨(putRegion_isSome w bytes).mp hover.1.1, hover.1.2⟩, hover.2⟩
  | poll =>
      constructor
      · rintro hreleased ⟨⟨hhandle, hdelivers⟩, halloc⟩
        exact mctpMmbiPoll_not_released hbare hhandle hdelivers halloc hreleased
      · exact mctpMmbiPoll_released hbare

theorem pktbufAlloc_bindings (env : Env δ) (w : Mctp δ) (b len : Nat) :
    (w.pktbufAlloc env b len).1.bindings = w.bindings := by
  unfold Mctp.pktbufAlloc
  dsimp only
  split
  · rfl
  · rfl

theorem mctpMmbiRx_bindings (w : Mctp (MctpBindingMmbi × δ)) (len : Nat) :
    (mctpMmbiRx env w b len).1.bindings = w.bindings := by
  have halloc := pktbufAlloc_bindings env w b len
  unfold mctpMmbiRx
  split
  · rfl
  · split
    · rfl
    · dsimp only
      cases hbuf : w.pktbufAlloc env b len with
      | mk w₁ buf =>
          rw [hbuf] at halloc
          cases buf with
          | none => exact halloc
          | some pkt =>
              dsimp only
              split
              · exact halloc
              · exact (mctpBusRx_sameSetup env _ b _).bindings.trans halloc

theorem mmbiPollPacket_bindings (w : Mctp (MctpBindingMmbi × δ)) :
    (mmbiPollPacket env port w b).1.bindings = w.bindings := by
  unfold mmbiPollPacket
  dsimp only
  split
  · rfl
  · split
    · rfl
    · split
      · rfl
      · rename_i d bytes hread
        have halloc := pktbufAlloc_bindings env { w with dev := (w.dev.1, d) } b bytes.length
        unfold mmbiFill
        split
        · cases hbuf : Mctp.pktbufAlloc env { w with dev := (w.dev.1, d) } b bytes.length with
          | mk w₁ buf =>
              rw [hbuf] at halloc
              cases buf with
              | none => exact halloc
              | some pkt => exact halloc
        · rfl

theorem receiveStep_bindings (w : Mctp (MctpBindingMmbi × δ)) (op : ReceiveOp) :
    (receiveStep env port b w op).bindings = w.bindings := by
  cases op with
  | rx bytes len => exact mctpMmbiRx_bindings (w.putRegion bytes) len
  | poll =>
      have hpacket : (mmbiPollPacket env port w b).1.bindings = w.bindings :=
        mmbiPollPacket_bindings w
      change (mctpMmbiPoll env port w b).1.bindings = w.bindings
      unfold mctpMmbiPoll
      cases hpoll : mmbiPollPacket env port w b with
      | mk w₁ result =>
          rw [hpoll] at hpacket
          cases result with
          | idle rc => exact hpacket
          | noBuffer bytes => exact hpacket
          | packet pkt => exact (mctpBusRx_sameSetup env w₁ b pkt).bindings.trans hpacket

/-- **Received packets are released exactly in the runs in which none is handed to
`mctp_bus_rx`.** -/
theorem receiveRun_released_iff (env : Env (MctpBindingMmbi × δ)) (port : MmbiPort δ) (b : Nat)
    (w : Mctp (MctpBindingMmbi × δ)) (hbare : (w.bindings b).Bare) (ops : List ReceiveOp) :
    Run.Each (receiveStep env port b) (fun w op => Released w (receiveStep env port b w op)) w ops ↔
      Run.Each (receiveStep env port b) (fun w op => ¬ op.HandsOver env port b w) w ops := by
  apply Run.each_iff_each (A := fun _ _ => True) (R := fun w => (w.bindings b).Bare)
  · exact fun w op _ hw => released_step_iff hw op
  · intro w op _ hw _
    rw [receiveStep_bindings]
    exact hw
  · exact Run.Each.of_forall (fun _ _ => trivial) w ops
  · exact hbare

end Receive

/-- Bytes that do not fit twice, a read of no bytes, and bytes that are longer than the region. -/
def quietOps : List ReceiveOp := [.rx [1, 2, 3] 40000, .poll, .rx [] 70000]

theorem receiveRun_released_iff_quiet :
    ((regionEndpoint []).bindings 0).Bare ∧
      Run.Each (receiveStep (regionEnv []) (fixedPort []) 0)
        (fun w op => Released w (receiveStep (regionEnv []) (fixedPort []) 0 w op))
        (regionEndpoint []) quietOps := by
  have hbare : ((regionEndpoint []).bindings 0).Bare := ⟨rfl, rfl, by decide⟩
  refine ⟨hbare,
    (receiveRun_released_iff (regionEnv []) (fixedPort []) 0 (regionEndpoint []) hbare quietOps).mpr
    ⟨?_, ?_, ?_, trivial⟩⟩
  · rintro ⟨⟨-, -, hfits⟩, -⟩
    exact absurd hfits (by decide)
  · rintro ⟨⟨-, -, d, bytes, hread, hpos, -⟩, -⟩
    have hbytes : ([] : List UInt8) = bytes := Except.ok.inj (congrArg Prod.snd hread)
    rw [← hbytes] at hpos
    exact absurd hpos (by decide)
  · rintro ⟨⟨-, -, hfits⟩, -⟩
    rw [receiveStep_bindings, receiveStep_bindings] at hfits
    exact absurd hfits (by decide)

/-- A packet from the device and one from the region, to a registered binding. -/
theorem receiveRun_not_released :
    ((regionEndpoint (fourBytes 8)).bindings 0).bus = some 0 ∧
      ¬ Released (regionEndpoint (fourBytes 8))
        (receiveStep (regionEnv (fourBytes 8)) (fixedPort (fourBytes 8)) 0
          (regionEndpoint (fourBytes 8)) .poll) ∧
      ¬ Released (regionEndpoint (fourBytes 8))
        (receiveStep (regionEnv (fourBytes 8)) (fixedPort (fourBytes 8)) 0
          (regionEndpoint (fourBytes 8)) (.rx (fourBytes 8) 8)) := by
  have hbare : ((regionEndpoint (fourBytes 8)).bindings 0).Bare := ⟨rfl, rfl, by decide⟩
  refine ⟨rfl, ?_, ?_⟩
  · rw [released_step_iff hbare, not_not]
    exact ⟨⟨rfl, by decide, (), fourBytes 8, rfl, by decide, by decide⟩, rfl⟩
  · rw [released_step_iff hbare, not_not]
    exact ⟨⟨by decide, by decide, by decide⟩, rfl⟩

end LibMctp
