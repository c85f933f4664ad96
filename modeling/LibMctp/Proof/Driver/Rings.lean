import LibMctp.Lib.Run
import LibMctp.Model.Driver
import Mathlib.Algebra.Order.Ring.Nat
import Mathlib.Data.Fintype.Basic
import Mathlib.Tactic.FinCases

/-!
# The rings are bounded byte queues

What a ring holds is the window of `DataAvailable` bytes from `ReadIdx` on. A write appends to it
what fits and a read takes bytes off its front, however the transfer falls on the end of the
storage, so the two rings of the driver are two queues of bytes that never mix.
-/

namespace LibMctp

variable {size : Nat}

/-- The bytes a ring holds, oldest first. -/
def MmbiRingBuffer.content [NeZero size] (ring : MmbiRingBuffer size) : List UInt8 :=
  Ring.window ring.buffer ring.readIdx ring.dataAvailable

structure MmbiRingBuffer.Ok (ring : MmbiRingBuffer size) : Prop where
  readIdx_lt : ring.readIdx < size
  writeIdx_lt : ring.writeIdx < size
  dataAvailable_le : ring.dataAvailable ≤ size
  writeIdx_eq : ring.writeIdx = (ring.readIdx + ring.dataAvailable) % size

theorem subUlong_of_le {a b : Nat} (hb : b ≤ a) (ha : a < 2 ^ 32) : subUlong a b = a - b := by
  unfold subUlong
  omega

theorem addUlong_of_lt {a b : Nat} (h : a + b < 2 ^ 32) : addUlong a b = a + b := Nat.mod_eq_of_lt h

theorem ite_gt_eq_min (a b : Nat) : (if a > b then b else a) = min a b := by
  split <;> omega

theorem rtlCopyIn_of_le {buffer : Fin size → UInt8} {off : Nat} {bytes : List UInt8}
    (h : off + bytes.length ≤ size) :
    rtlCopyIn buffer off bytes = some (Ring.store buffer off bytes) := by
  rw [rtlCopyIn, if_pos h]

theorem rtlCopyOut_of_le [NeZero size] {buffer : Fin size → UInt8} {off len : Nat}
    (h : off + len ≤ size) :
    rtlCopyOut buffer off len = some (Ring.window buffer off len) := by
  rw [rtlCopyOut, dif_pos h, Ring.load_eq_window]

section Ring

variable {ring : MmbiRingBuffer size} (hsize : 2 * size < 2 ^ 32) (hok : ring.Ok)

include hsize hok

/-- The copies of a write, in one piece or in two, store the bytes behind the content. -/
theorem ringBufferStore_spec (data : List UInt8) {n : Nat} (hlen : n ≤ data.length)
    (hfit : ring.dataAvailable + n ≤ size) :
    ringBufferStore ring data n
      = some (Ring.put ring.buffer (ring.readIdx + ring.dataAvailable) (data.take n),
          (ring.readIdx + (ring.dataAvailable + n)) % size) := by
  have hwrite := hok.writeIdx_lt
  have htaken : (data.take n).length = n := by
    rw [List.length_take]
    omega
  have hfirst : subUlong size ring.writeIdx = size - ring.writeIdx :=
    subUlong_of_le (by omega) (by omega)
  have hput : Ring.put ring.buffer ring.writeIdx (data.take n)
      = Ring.put ring.buffer (ring.readIdx + ring.dataAvailable) (data.take n) := by
    rw [hok.writeIdx_eq, Ring.put_mod]
  have hindex : (ring.writeIdx + n) % size = (ring.readIdx + (ring.dataAvailable + n)) % size := by
    rw [hok.writeIdx_eq, Nat.mod_add_mod, Nat.add_assoc]
  rw [ringBufferStore, hfirst]
  by_cases hone : n ≤ size - ring.writeIdx
  · rw [if_pos hone, rtlCopyIn_of_le (by omega), addUlong_of_lt (by omega),
      Ring.store_eq_put ring.buffer (data.take n) hwrite (by omega), hput, hindex]
    rfl
  · have hsub : subUlong n (size - ring.writeIdx) = n - (size - ring.writeIdx) :=
      subUlong_of_le (by omega) (by omega)
    have hwrap : (ring.writeIdx + n) % size = n - (size - ring.writeIdx) := by
      rw [Nat.mod_eq_sub_mod (by omega), Nat.mod_eq_of_lt (by omega)]
      omega
    have hhead : data.take (size - ring.writeIdx) = (data.take n).take (size - ring.writeIdx) := by
      rw [List.take_take, Nat.min_eq_left (by omega)]
    have htail : (data.drop (size - ring.writeIdx)).take (n - (size - ring.writeIdx))
        = (data.take n).drop (size - ring.writeIdx) := List.drop_take.symm
    rw [if_neg hone, hsub]
    dsimp only
    rw [hhead, htail, rtlCopyIn_of_le (by rw [List.length_take]; omega), Option.bind_some,
      rtlCopyIn_of_le (by rw [List.length_drop]; omega), Option.map_some,
      Ring.store_store_eq_put ring.buffer (data.take n) hwrite rfl (by omega) (by omega),
      hput, ← hwrap, hindex]

variable [NeZero size]

theorem ringBufferWrite_spec (data : List UInt8) :
    ∃ ring', ringBufferWrite ring data data.length
        = some (ring', min data.length (size - ring.dataAvailable)) ∧
      ring'.Ok ∧
      ring'.content = ring.content ++ data.take (min data.length (size - ring.dataAvailable)) := by
  have havail := hok.dataAvailable_le
  have hfree : subUlong size ring.dataAvailable = size - ring.dataAvailable :=
    subUlong_of_le havail (by omega)
  obtain ⟨n, hn⟩ : ∃ n, n = min data.length (size - ring.dataAvailable) := ⟨_, rfl⟩
  rw [ringBufferWrite, hfree, ite_gt_eq_min, ← hn]
  by_cases hzero : n = 0
  · rw [if_pos hzero]
    exact ⟨ring, by rw [hzero], hok, by rw [hzero, List.take_zero, List.append_nil]⟩
  · have hstore := ringBufferStore_spec hsize hok data (n := n) (by omega) (by omega)
    have htaken : (data.take n).length = n := by
      rw [List.length_take]
      omega
    have hwindow := Ring.window_put ring.buffer ring.readIdx ring.dataAvailable
      (data.take n) (by omega)
    rw [htaken] at hwindow
    rw [if_neg hzero, hstore, addUlong_of_lt (by omega)]
    refine ⟨_, rfl, ⟨hok.readIdx_lt, Nat.mod_lt _ (by omega), ?_, rfl⟩, hwindow⟩
    dsimp only
    omega

theorem ringBufferLoad_spec {n : Nat} (hfit : n ≤ ring.dataAvailable) :
    ringBufferLoad ring n = some (Ring.window ring.buffer ring.readIdx n,
      (ring.readIdx + n) % size) := by
  have hread := hok.readIdx_lt
  have havail := hok.dataAvailable_le
  have hfirst : subUlong size ring.readIdx = size - ring.readIdx :=
    subUlong_of_le (by omega) (by omega)
  rw [ringBufferLoad, hfirst]
  by_cases hone : n ≤ size - ring.readIdx
  · rw [if_pos hone, rtlCopyOut_of_le (by omega), addUlong_of_lt (by omega)]
    rfl
  · have hsub : subUlong n (size - ring.readIdx) = n - (size - ring.readIdx) :=
      subUlong_of_le (by omega) (by omega)
    have hwrap : (ring.readIdx + n) % size = n - (size - ring.readIdx) := by
      rw [Nat.mod_eq_sub_mod (by omega), Nat.mod_eq_of_lt (by omega)]
      omega
    have hsplit : Ring.window ring.buffer ring.readIdx n
        = Ring.window ring.buffer ring.readIdx (size - ring.readIdx)
          ++ Ring.window ring.buffer 0 (n - (size - ring.readIdx)) := by
      conv_lhs => rw [show n = size - ring.readIdx + (n - (size - ring.readIdx)) by omega]
      rw [Ring.window_add, ← Ring.window_mod ring.buffer (ring.readIdx + (size - ring.readIdx)),
        show ring.readIdx + (size - ring.readIdx) = size by omega, Nat.mod_self]
    rw [if_neg hone, hsub]
    dsimp only
    rw [rtlCopyOut_of_le (by omega), rtlCopyOut_of_le (by omega), hwrap, hsplit]
    rfl

theorem ringBufferRead_spec (length : Nat) :
    ∃ ring', ringBufferRead ring length = some (ring', ring.content.take length) ∧
      ring'.Ok ∧ ring'.content = ring.content.drop length := by
  have havail := hok.dataAvailable_le
  obtain ⟨n, hn⟩ : ∃ n, n = min length ring.dataAvailable := ⟨_, rfl⟩
  have hcontent : ring.content.length = ring.dataAvailable := Ring.length_window _ _ _
  have htake : ring.content.take length = Ring.window ring.buffer ring.readIdx n := by
    rw [← Ring.take_window ring.buffer ring.readIdx (show n ≤ ring.dataAvailable by omega), hn,
      List.take_eq_take_min, hcontent]
    rfl
  have hdrop : ring.content.drop length
      = Ring.window ring.buffer (ring.readIdx + n) (ring.dataAvailable - n) := by
    rw [← Ring.drop_window ring.buffer ring.readIdx (show n ≤ ring.dataAvailable by omega), hn,
      List.drop_eq_drop_min, hcontent]
    rfl
  rw [ringBufferRead, ite_gt_eq_min, ← hn, htake, hdrop]
  by_cases hzero : n = 0
  · rw [if_pos hzero, hzero]
    exact ⟨ring, rfl, hok, rfl⟩
  · rw [if_neg hzero, ringBufferLoad_spec hsize hok (by omega),
      subUlong_of_le (by omega) (by omega)]
    refine ⟨_, rfl, ⟨Nat.mod_lt _ (by omega), hok.writeIdx_lt, by dsimp only; omega, ?_⟩,
      Ring.window_mod ring.buffer (ring.readIdx + n) (ring.dataAvailable - n)⟩
    have hsum : ring.readIdx + n + (ring.dataAvailable - n)
        = ring.readIdx + ring.dataAvailable := by omega
    rw [Nat.mod_add_mod, hsum]
    exact hok.writeIdx_eq

end Ring

/-! ### The two devices -/

theorem MmbiSharedContext.ring_setRing_self (ctx : MmbiSharedContext size) (deviceId : Nat)
    (ring : MmbiRingBuffer size) : (ctx.setRing deviceId ring).ring deviceId = ring := by
  unfold setRing MmbiSharedContext.ring
  split <;> rfl

theorem MmbiSharedContext.ring_setRing_ne (ctx : MmbiSharedContext size) {d e : Fin 2} (hne : d ≠ e)
    (ring : MmbiRingBuffer size) : (ctx.setRing d ring).ring e = ctx.ring e := by
  unfold setRing MmbiSharedContext.ring
  fin_cases d <;> fin_cases e <;> simp_all

theorem peerId_eq_rev (d : Fin 2) : peerId d = d.rev.val := by
  fin_cases d <;> rfl

/-- The bytes a completion reports as transferred. -/
def Completion.information : Completion → Nat
  | .deviceBusy => 0
  | .success information => information

/-- The completion of a write of `length` bytes of which `n` were accepted. -/
def Completion.accepted (length n : Nat) : Completion :=
  if n = 0 ∧ length > 0 then .deviceBusy else .success n

theorem Completion.information_accepted (length n : Nat) : (accepted length n).information = n := by
  unfold accepted
  split
  · rename_i hbusy
    exact hbusy.1.symm
  · rfl

section Devices

variable [NeZero size] (hsize : 2 * size < 2 ^ 32) {ctx : MmbiSharedContext size}

include hsize

/-- A write accepts the first bytes, as many as the ring has room for, and touches no other ring. -/
theorem mmbiEvtIoWrite_spec (d : Fin 2) (hok : (ctx.ring d).Ok) (data : List UInt8)
    (hlen : data.length < 2 ^ 32) :
    ∃ ctx', mmbiEvtIoWrite ctx d data
        = some (ctx',
          Completion.accepted data.length (min data.length (size - (ctx.ring d).dataAvailable))) ∧
      (ctx'.ring d).Ok ∧
      (ctx'.ring d).content
        = (ctx.ring d).content ++ data.take (min data.length (size - (ctx.ring d).dataAvailable)) ∧
      ctx'.ring d.rev = ctx.ring d.rev := by
  obtain ⟨ring, hwrite, hring, hcontent⟩ := ringBufferWrite_spec hsize hok data
  have hne : d ≠ d.rev := by fin_cases d <;> decide
  rw [mmbiEvtIoWrite, Nat.mod_eq_of_lt hlen, hwrite]
  refine ⟨_, rfl, ?_, ?_, ctx.ring_setRing_ne hne ring⟩
  · rw [ctx.ring_setRing_self]
    exact hring
  · rw [ctx.ring_setRing_self]
    exact hcontent

/-- A read returns the oldest bytes, as many as there are, of the ring the other device writes. -/
theorem mmbiEvtIoRead_spec (d : Fin 2) (hok : (ctx.ring d.rev).Ok) (length : Nat)
    (hlen : length < 2 ^ 32) :
    ∃ ctx', mmbiEvtIoRead ctx d length
        = some (ctx', (ctx.ring d.rev).content.take length,
            .success (min length (ctx.ring d.rev).dataAvailable)) ∧
      (ctx'.ring d.rev).Ok ∧
      (ctx'.ring d.rev).content = (ctx.ring d.rev).content.drop length ∧
      ctx'.ring d = ctx.ring d := by
  obtain ⟨ring, hread, hring, hcontent⟩ := ringBufferRead_spec hsize hok length
  have hne : d.rev ≠ d := by fin_cases d <;> decide
  have hinformation : ((ctx.ring d.rev).content.take length).length
      = min length (ctx.ring d.rev).dataAvailable := by
    rw [List.length_take, MmbiRingBuffer.content, Ring.length_window]
  rw [mmbiEvtIoRead, Nat.mod_eq_of_lt hlen, peerId_eq_rev, hread]
  refine ⟨_, by rw [← hinformation]; rfl, ?_, ?_, ctx.ring_setRing_ne hne ring⟩
  · rw [ctx.ring_setRing_self]
    exact hring
  · rw [ctx.ring_setRing_self]
    exact hcontent

end Devices

/-! ### Runs -/

inductive DriverOp where
  | write (deviceId : Fin 2) (data : List UInt8)
  | read (deviceId : Fin 2) (length : Nat)

def DriverOp.length : DriverOp → Nat
  | .write _ data => data.length
  | .read _ length => length

/-- The driver with the bytes each device has had accepted and has been returned so far. -/
structure DriverRun (size : Nat) where
  ctx : MmbiSharedContext size
  accepted : Fin 2 → List UInt8 := fun _ => []
  returned : Fin 2 → List UInt8 := fun _ => []

def driverStep (s : DriverRun size) : DriverOp → Option (DriverRun size)
  | .write d data => (mmbiEvtIoWrite s.ctx d data).map fun (ctx, completion) =>
    { s with
      ctx := ctx
      accepted := Function.update s.accepted d (s.accepted d ++ data.take completion.information) }
  | .read d length => (mmbiEvtIoRead s.ctx d length).map fun (ctx, bytes, _) =>
    { s with
      ctx := ctx
      returned := Function.update s.returned d (s.returned d ++ bytes) }

/-- The driver after a run of requests from the zeroed context. -/
def driverRun (size : Nat) (ops : List DriverOp) : Option (DriverRun size) :=
  ops.foldlM driverStep { ctx := globalContext size }

/-- Every ring is consistent, and the bytes accepted by it are those returned and those it still
holds. -/
def DriverRun.Ok [NeZero size] (s : DriverRun size) : Prop :=
  ∀ d : Fin 2, (s.ctx.ring d).Ok ∧ s.returned d.rev ++ (s.ctx.ring d).content = s.accepted d

theorem driverStep_ok [NeZero size] (hsize : 2 * size < 2 ^ 32) {s : DriverRun size} (hs : s.Ok)
    (op : DriverOp) (hlen : op.length < 2 ^ 32) : ∃ s', driverStep s op = some s' ∧ s'.Ok := by
  cases op with
  | write d data =>
      obtain ⟨ctx, hwrite, hring, hcontent, hother⟩ :=
        mmbiEvtIoWrite_spec hsize d (hs d).1 data hlen
      refine ⟨_, by rw [driverStep, hwrite]; rfl, fun e => ?_⟩
      by_cases he : e = d
      · subst he
        refine ⟨hring, ?_⟩
        dsimp only
        rw [hcontent, Function.update_self, Completion.information_accepted,
          ← (hs e).2, List.append_assoc]
      · have herev : e = d.rev := by
          revert he
          fin_cases d <;> fin_cases e <;> decide
        dsimp only
        rw [Function.update_of_ne he, herev, hother]
        exact hs d.rev
  | read d length =>
      obtain ⟨ctx, hread, hring, hcontent, hother⟩ :=
        mmbiEvtIoRead_spec hsize d (hs d.rev).1 length hlen
      refine ⟨_, by rw [driverStep, hread]; rfl, fun e => ?_⟩
      by_cases he : e = d.rev
      · subst he
        refine ⟨hring, ?_⟩
        dsimp only
        rw [hcontent, Fin.rev_rev, Function.update_self, List.append_assoc, List.take_append_drop]
        have hprev := (hs d.rev).2
        rw [Fin.rev_rev] at hprev
        exact hprev
      · have hed : e = d := by
          revert he
          fin_cases d <;> fin_cases e <;> decide
        have hne : e.rev ≠ d := fun h => he (by rw [← h, Fin.rev_rev])
        dsimp only
        rw [Function.update_of_ne hne, hed, hother]
        exact hs d

theorem driverRun_ok [NeZero size] (hsize : 2 * size < 2 ^ 32) (ops : List DriverOp)
    (hlen : ∀ op ∈ ops, op.length < 2 ^ 32) : ∃ s, driverRun size ops = some s ∧ s.Ok := by
  refine Run.foldlM_invariant DriverRun.Ok
    (fun s hs op hop => driverStep_ok hsize hs op (hlen op hop)) _ ?_
  have hpos : 0 < size := Nat.pos_of_ne_zero (NeZero.ne size)
  intro d
  have hzero : (globalContext size).ring d = ⟨fun _ => 0, 0, 0, 0⟩ := by
    unfold MmbiSharedContext.ring globalContext
    split <;> rfl
  dsimp only
  rw [hzero]
  exact ⟨⟨hpos, hpos, Nat.zero_le _, (Nat.zero_mod size).symm⟩, rfl⟩

/-- **The driver is two bounded byte queues.** After any run of requests every ring is consistent
and no copy has left its storage, the bytes accepted at a device are those its peer has read
followed by those still in the ring, and the next request does what a request on a queue of this
capacity does. -/
theorem driverRun_refines_queues (ops : List DriverOp) (hlen : ∀ op ∈ ops, op.length < 2 ^ 32) :
    ∃ s, driverRun ringBufferSize ops = some s ∧
      (∀ d : Fin 2, (s.ctx.ring d).readIdx < ringBufferSize ∧
        (s.ctx.ring d).writeIdx < ringBufferSize ∧
        (s.ctx.ring d).dataAvailable ≤ ringBufferSize ∧
        (s.ctx.ring d).writeIdx
          = ((s.ctx.ring d).readIdx + (s.ctx.ring d).dataAvailable) % ringBufferSize ∧
        s.returned d.rev ++ (s.ctx.ring d).content = s.accepted d) ∧
      (∀ (d : Fin 2) (data : List UInt8), data.length < 2 ^ 32 →
        ∃ s', driverStep s (.write d data) = some s' ∧
          s'.accepted d
            = s.accepted d ++ data.take (min data.length
              (ringBufferSize - (s.ctx.ring d).dataAvailable)) ∧
          (s'.ctx.ring d).content = (s.ctx.ring d).content
            ++ data.take (min data.length (ringBufferSize - (s.ctx.ring d).dataAvailable)) ∧
          s'.ctx.ring d.rev = s.ctx.ring d.rev) ∧
      (∀ (d : Fin 2) (length : Nat), length < 2 ^ 32 →
        ∃ s', driverStep s (.read d length) = some s' ∧
          s'.returned d = s.returned d
            ++ (s.ctx.ring d.rev).content.take (min length (s.ctx.ring d.rev).dataAvailable) ∧
          (s'.ctx.ring d.rev).content
            = (s.ctx.ring d.rev).content.drop (min length (s.ctx.ring d.rev).dataAvailable) ∧
          s'.ctx.ring d = s.ctx.ring d) := by
  have hsize : 2 * ringBufferSize < 2 ^ 32 := by decide
  obtain ⟨s, hrun, hs⟩ := driverRun_ok hsize ops hlen
  refine ⟨s, hrun, fun d => ?_, fun d data hdata => ?_, fun d length hlength => ?_⟩
  · obtain ⟨hok, hqueue⟩ := hs d
    exact ⟨hok.readIdx_lt, hok.writeIdx_lt, hok.dataAvailable_le, hok.writeIdx_eq, hqueue⟩
  · obtain ⟨ctx, hwrite, -, hcontent, hother⟩ := mmbiEvtIoWrite_spec hsize d (hs d).1 data hdata
    refine ⟨_, by rw [driverStep, hwrite]; rfl, ?_, hcontent, hother⟩
    dsimp only
    rw [Function.update_self, Completion.information_accepted]
  · obtain ⟨ctx, hread, -, hcontent, hother⟩ :=
      mmbiEvtIoRead_spec hsize d (hs d.rev).1 length hlength
    have hlength' : (s.ctx.ring d.rev).content.length = (s.ctx.ring d.rev).dataAvailable :=
      Ring.length_window _ _ _
    refine ⟨_, by rw [driverStep, hread]; rfl, ?_, ?_, hother⟩
    · dsimp only
      rw [Function.update_self, List.take_eq_take_min, hlength']
    · dsimp only
      rw [hcontent, List.drop_eq_drop_min, hlength']

theorem driverRun_refines_queues_write_read :
    ∃ s, driverRun ringBufferSize [.write 0 [1, 2, 3], .read 1 2] = some s ∧
      ∀ d : Fin 2, s.returned d.rev ++ (s.ctx.ring d).content = s.accepted d := by
  obtain ⟨s, hrun, hrings, -, -⟩ :=
    driverRun_refines_queues [.write 0 [1, 2, 3], .read 1 2] (by decide)
  exact ⟨s, hrun, fun d => (hrings d).2.2.2.2⟩

end LibMctp
