import LibMctp.Lib.Run
import LibMctp.Model.Packet

/-!
# The bounds of a packet buffer

A buffer's data lies between `start` and `end`, and both lie in its storage. Each operation checks
another combination of the two against the size, in unsigned arithmetic: the checks keep the bounds
where these hold and no sum wraps, but `mctp_pktbuf_alloc` checks the length alone, as if there were
no header room before it.
-/

namespace LibMctp

theorem readBytes_writeBytes {data : List UInt8} {off : Nat} (bytes : List UInt8)
    (h : off ≤ data.length) :
    readBytes (writeBytes data off bytes) off bytes.length = bytes := by
  have hlen : (data.take off).length = off := by
    rw [List.length_take]
    omega
  rw [readBytes, writeBytes, List.append_assoc, List.drop_left' hlen,
    List.append_assoc, List.take_left']
  rfl

theorem length_le_length_writeBytes {data : List UInt8} {off : Nat} (bytes : List UInt8)
    (h : off ≤ data.length) :
    data.length ≤ (writeBytes data off bytes).length := by
  rw [writeBytes, List.length_append, List.length_append, List.length_take, List.length_drop]
  omega

/-! ### Where a buffer comes from -/

/-- `sizeof(struct mctp_pktbuf)`: four `size_t`, a `bool` and padding. -/
def sizeofMctpPktbuf : Nat := 40

/-- How a buffer is obtained. The storage given to `mctp_pktbuf_init` is sized to fit the
binding. -/
inductive PktbufSource (binding : MctpBinding) where
  | init (storage : List UInt8) (sized : binding.storageSize ≤ storage.length)
  | alloc (len : Nat)

variable {binding : MctpBinding}

/-- The buffer, if there is one. `ok` is whether `__mctp_alloc` returns storage. -/
def PktbufSource.get (source : PktbufSource binding) (ok : Bool) : Option MctpPktbuf :=
  match source with
  | .init storage _ => some (mctpPktbufInit binding storage)
  | .alloc len => mctpPktbufAlloc binding ok len

/-- The bytes behind the struct in the storage: the caller's, or those that `__mctp_alloc` was asked
for. -/
def PktbufSource.room (source : PktbufSource binding) : Nat :=
  match source with
  | .init storage _ => storage.length
  | .alloc _ => addSize binding.storageSize sizeofMctpPktbuf - sizeofMctpPktbuf

/-- The length fits behind the header room, and the size of the storage does not wrap when the
struct is added. -/
def PktbufSource.Fits (source : PktbufSource binding) : Prop :=
  match source with
  | .init _ _ => True
  | .alloc len =>
      binding.pktHeader + len ≤ binding.storageSize ∧
        binding.storageSize + sizeofMctpPktbuf < 2 ^ 64

/-! ### What is asked of a buffer and of each call -/

structure MctpPktbuf.Within (pkt : MctpPktbuf) (binding : MctpBinding) (room : Nat) : Prop where
  start_le : pkt.start ≤ pkt.end_
  end_le : pkt.end_ ≤ pkt.size
  size_eq : pkt.size = binding.storageSize
  size_le : pkt.size ≤ room

inductive PktbufOp where
  | push (bytes : List UInt8) (fits : bytes.length < 2 ^ 64)
  | pop (len : Nat)
  | allocStart (size : Nat)
  | allocEnd (size : Nat)

def pktbufStep (pkt : MctpPktbuf) : PktbufOp → MctpPktbuf
  | .push bytes _ => (mctpPktbufPush pkt bytes).1
  | .pop len => (mctpPktbufPop pkt len).1
  | .allocStart size => (mctpPktbufAllocStart pkt size).getD pkt
  | .allocEnd size => (mctpPktbufAllocEnd pkt size).getD pkt

/-- The call satisfies its assertion. -/
def PktbufOp.Asserts (pkt : MctpPktbuf) : PktbufOp → Prop
  | .push _ _ => True
  | .pop _ => True
  | .allocStart size => (mctpPktbufAllocStart pkt size).isSome
  | .allocEnd size => (mctpPktbufAllocEnd pkt size).isSome

/-- A buffer after a pop that undoes the push of `bytes`: the bounds are back, and the pointer leads
to the bytes. -/
structure Restored (pkt : MctpPktbuf) (bytes : List UInt8) (popped : MctpPktbuf × Option Nat) :
    Prop where
  start : popped.1.start = pkt.start
  end_ : popped.1.end_ = pkt.end_
  size : popped.1.size = pkt.size
  pointer : ∃ off, popped.2 = some off ∧ off + bytes.length ≤ pkt.size ∧
    readBytes popped.1.data off bytes.length = bytes

/-- A push that fails changes nothing and one that succeeds can be undone; the bytes behind a
pointer that is returned lie in the storage. -/
def PktbufOp.Proper (pkt : MctpPktbuf) : PktbufOp → Prop
  | .push bytes _ =>
    ((mctpPktbufPush pkt bytes).2 = -1 → (mctpPktbufPush pkt bytes).1 = pkt) ∧
      ((mctpPktbufPush pkt bytes).2 ≠ -1 →
        Restored pkt bytes (mctpPktbufPop (mctpPktbufPush pkt bytes).1 bytes.length))
  | .pop len => ∀ off, (mctpPktbufPop pkt len).2 = some off → off + len ≤ pkt.size
  | .allocStart size => (pktbufStep pkt (.allocStart size)).start + size ≤ pkt.size
  | .allocEnd size => pkt.end_ + size ≤ pkt.size

/-- The end of the bytes pushed is a `size_t`. -/
def PktbufOp.Unwrapped (pkt : MctpPktbuf) : PktbufOp → Prop
  | .push bytes _ => pkt.end_ + bytes.length < 2 ^ 64
  | .pop _ => True
  | .allocStart _ => True
  | .allocEnd _ => True

/-! ### One call -/

section Steps

variable {pkt : MctpPktbuf} {room : Nat}

/-- The bounds hold, and the storage has the bytes they speak of. -/
structure MctpPktbuf.Stored (pkt : MctpPktbuf) (binding : MctpBinding) (room : Nat) : Prop where
  within : pkt.Within binding room
  stored : pkt.size ≤ pkt.data.length

theorem MctpPktbuf.Within.size_lt (h : pkt.Within binding room) : pkt.size < 2 ^ 64 := by
  rw [h.size_eq]
  exact binding.fits

/-- The bounds move within the storage. -/
theorem MctpPktbuf.Within.move (h : pkt.Within binding room) {pkt' : MctpPktbuf}
    (hstart : pkt'.start ≤ pkt'.end_) (hend : pkt'.end_ ≤ pkt.size) (hsize : pkt'.size = pkt.size) :
    pkt'.Within binding room where
  start_le := hstart
  end_le := by
    rw [hsize]
    exact hend
  size_eq := hsize.trans h.size_eq
  size_le := by
    rw [hsize]
    exact h.size_le

theorem mctpPktbufPush_eq {bytes : List UInt8} (hlt : pkt.end_ + bytes.length < 2 ^ 64) :
    mctpPktbufPush pkt bytes =
      if pkt.end_ + bytes.length > pkt.size then (pkt, -1)
      else
        ({ pkt with
            end_ := pkt.end_ + bytes.length
            data := writeBytes pkt.data pkt.end_ bytes }, 0) := by
  rw [mctpPktbufPush, addSize_of_lt hlt]

theorem MctpPktbuf.Within.pop_eq (h : pkt.Within binding room) (len : Nat) :
    mctpPktbufPop pkt len =
      if len > pkt.end_ - pkt.start then (pkt, none)
      else ({ pkt with end_ := pkt.end_ - len }, some (pkt.end_ - len)) := by
  have hlt : pkt.end_ < 2 ^ 64 := lt_of_le_of_lt h.end_le h.size_lt
  rw [mctpPktbufPop, mctpPktbufSize, subSize_of_le h.start_le hlt]
  split
  · rfl
  · dsimp only
    rw [subSize_of_le (by omega) hlt]

theorem MctpPktbuf.Within.allocEnd_eq (h : pkt.Within binding room) (size : Nat) :
    mctpPktbufAllocEnd pkt size =
      if size ≤ pkt.size - pkt.end_ then some { pkt with end_ := pkt.end_ + size } else none := by
  have hend := h.end_le
  have hlt := h.size_lt
  rw [mctpPktbufAllocEnd, subSize_of_le h.end_le h.size_lt]
  split
  · rw [addSize_of_lt (by omega)]
  · rfl

theorem MctpPktbuf.Within.allocStart_eq (h : pkt.Within binding room) (size : Nat) :
    mctpPktbufAllocStart pkt size
      = if size ≤ pkt.start then some { pkt with start := pkt.start - size } else none := by
  have hlt : pkt.start < 2 ^ 64 := lt_of_le_of_lt (h.start_le.trans h.end_le) h.size_lt
  rw [mctpPktbufAllocStart]
  split
  · rename_i hle
    rw [subSize_of_le hle hlt]
  · rfl

/-- A pop of as many bytes as were pushed. -/
theorem MctpPktbuf.Stored.restored (h : pkt.Stored binding room) {bytes : List UInt8}
    (hroom : pkt.end_ + bytes.length ≤ pkt.size) :
    Restored pkt bytes (mctpPktbufPop
      { pkt with end_ := pkt.end_ + bytes.length, data := writeBytes pkt.data pkt.end_ bytes }
      bytes.length) := by
  have hstart := h.within.start_le
  have hpushed : MctpPktbuf.Within
      { pkt with end_ := pkt.end_ + bytes.length, data := writeBytes pkt.data pkt.end_ bytes }
      binding room := by
    apply h.within.move
    · exact hstart.trans (Nat.le_add_right _ _)
    · exact hroom
    · rfl
  rw [hpushed.pop_eq, if_neg (by dsimp only; omega)]
  dsimp only
  rw [Nat.add_sub_cancel]
  exact ⟨rfl, rfl, rfl, pkt.end_, rfl, hroom,
    readBytes_writeBytes bytes (h.within.end_le.trans h.stored)⟩

theorem MctpPktbuf.Stored.push (h : pkt.Stored binding room) {bytes : List UInt8}
    {hfits : bytes.length < 2 ^ 64} (hlt : pkt.end_ + bytes.length < 2 ^ 64) :
    (pktbufStep pkt (.push bytes hfits)).Stored binding room ∧
      PktbufOp.Proper pkt (.push bytes hfits) := by
  unfold pktbufStep PktbufOp.Proper
  dsimp only
  rw [mctpPktbufPush_eq hlt]
  split
  · exact ⟨h, fun _ => rfl, fun hne => absurd rfl hne⟩
  · rename_i hroom
    have hle : pkt.end_ + bytes.length ≤ pkt.size := Nat.le_of_not_lt hroom
    refine ⟨⟨?_, ?_⟩, fun hrc => absurd hrc (by simp), fun _ => h.restored hle⟩
    · exact h.within.move (h.within.start_le.trans (Nat.le_add_right _ _)) hle rfl
    · exact h.stored.trans (length_le_length_writeBytes bytes (h.within.end_le.trans h.stored))

/-- The check passes where the sum wraps, and then fewer bytes lie between the bounds than a pop
would take. -/
theorem MctpPktbuf.Stored.push_wrapped (h : pkt.Stored binding room) {bytes : List UInt8}
    {hfits : bytes.length < 2 ^ 64} (hwrap : 2 ^ 64 ≤ pkt.end_ + bytes.length)
    (hwithin : (pktbufStep pkt (.push bytes hfits)).Within binding room) :
    ¬ PktbufOp.Proper pkt (.push bytes hfits) := by
  have hend := h.within.end_le
  have hsize := h.within.size_lt
  obtain ⟨sum, hsum, heq⟩ :
      ∃ sum, addSize pkt.end_ bytes.length = sum ∧ sum + 2 ^ 64 = pkt.end_ + bytes.length := by
    refine ⟨_, rfl, ?_⟩
    unfold addSize
    omega
  have hpush : mctpPktbufPush pkt bytes =
      ({ pkt with end_ := sum, data := writeBytes pkt.data pkt.end_ bytes }, 0) := by
    rw [mctpPktbufPush, hsum, if_neg (by omega)]
  unfold pktbufStep at hwithin
  dsimp only at hwithin
  rw [hpush] at hwithin
  unfold PktbufOp.Proper
  dsimp only
  rw [hpush]
  rintro ⟨-, hrestored⟩
  have hpop := (hrestored (by simp)).end_
  rw [hwithin.pop_eq, if_pos (by dsimp only; omega)] at hpop
  dsimp only at hpop
  omega

theorem MctpPktbuf.Stored.step (h : pkt.Stored binding room) {op : PktbufOp}
    (hasserts : op.Asserts pkt) (hop : op.Unwrapped pkt) :
    (pktbufStep pkt op).Stored binding room ∧ op.Proper pkt := by
  have hstart := h.within.start_le
  have hend := h.within.end_le
  cases op with
  | push bytes fits => exact h.push hop
  | pop len =>
      unfold pktbufStep PktbufOp.Proper
      dsimp only
      rw [h.within.pop_eq]
      split
      · exact ⟨h, fun off hoff => by cases hoff⟩
      · refine ⟨⟨h.within.move ?_ ?_ rfl, h.stored⟩, fun off hoff => ?_⟩
        · dsimp only
          omega
        · dsimp only
          omega
        · have heq : pkt.end_ - len = off := Option.some.inj hoff
          omega
  | allocStart size =>
      unfold PktbufOp.Asserts at hasserts
      unfold PktbufOp.Proper pktbufStep
      dsimp only at hasserts ⊢
      rw [h.within.allocStart_eq] at hasserts ⊢
      split at hasserts
      · rename_i hle
        rw [if_pos hle, Option.getD_some]
        refine ⟨⟨h.within.move ?_ hend rfl, h.stored⟩, ?_⟩
        · dsimp only
          omega
        · dsimp only
          omega
      · cases hasserts
  | allocEnd size =>
      unfold PktbufOp.Asserts at hasserts
      unfold PktbufOp.Proper pktbufStep
      dsimp only at hasserts ⊢
      rw [h.within.allocEnd_eq] at hasserts ⊢
      split at hasserts
      · rename_i hle
        rw [if_pos hle, Option.getD_some]
        refine ⟨⟨h.within.move ?_ ?_ rfl, h.stored⟩, ?_⟩
        · dsimp only
          omega
        · dsimp only
          omega
        · omega
      · cases hasserts

/-- A call keeps the bounds and does what it should exactly where no sum wraps. -/
theorem MctpPktbuf.Stored.step_iff (h : pkt.Stored binding room) {op : PktbufOp}
    (hasserts : op.Asserts pkt) :
    ((pktbufStep pkt op).Within binding room ∧ op.Proper pkt) ↔ op.Unwrapped pkt := by
  constructor
  · rintro ⟨hwithin, hproper⟩
    cases op with
    | push bytes fits => exact Nat.lt_of_not_le fun hwrap => h.push_wrapped hwrap hwithin hproper
    | pop len => trivial
    | allocStart size => trivial
    | allocEnd size => trivial
  · intro hop
    obtain ⟨hstep, hproper⟩ := h.step hasserts hop
    exact ⟨hstep.within, hproper⟩

end Steps

/-! ### Runs -/

section Runs

variable {source : PktbufSource binding} {ok : Bool} {pkt : MctpPktbuf}

/-- A new buffer has its bounds in order exactly where its length fits. -/
theorem PktbufSource.within_iff (hget : source.get ok = some pkt) :
    pkt.Within binding source.room ↔ source.Fits := by
  have hfits := binding.fits
  cases source with
  | init storage sized =>
      have hpkt : mctpPktbufInit binding storage = pkt := Option.some.inj hget
      rw [← hpkt]
      refine ⟨fun _ => trivial, fun _ => ⟨le_refl _, ?_, rfl, sized⟩⟩
      change binding.pktHeader ≤ binding.storageSize
      unfold MctpBinding.storageSize
      omega
  | alloc len =>
      unfold PktbufSource.get mctpPktbufAlloc at hget
      dsimp only at hget
      have hsize : binding.storageSize < 2 ^ 64 := hfits
      have hheader : binding.pktHeader ≤ binding.storageSize := by
        unfold MctpBinding.storageSize
        omega
      split at hget
      · cases hget
      · rename_i hlen
        split at hget
        · rw [← Option.some.inj hget]
          unfold PktbufSource.room PktbufSource.Fits
          dsimp only [mctpPktbufInit]
          constructor
          · rintro ⟨hstart, hend, -, hroom⟩
            dsimp only at hstart hend hroom
            unfold addSize sizeofMctpPktbuf at *
            omega
          · rintro ⟨hle, hlt⟩
            have hsum : addSize binding.pktHeader len = binding.pktHeader + len :=
              addSize_of_lt (by omega)
            refine ⟨?_, ?_, rfl, ?_⟩
            · dsimp only
              omega
            · dsimp only
              omega
            · rw [addSize_of_lt hlt]
              dsimp only
              omega
        · cases hget

theorem PktbufSource.stored (hget : source.get ok = some pkt) : pkt.size ≤ pkt.data.length := by
  cases source with
  | init storage sized =>
      rw [← Option.some.inj hget]
      exact sized
  | alloc len =>
      unfold PktbufSource.get mctpPktbufAlloc at hget
      dsimp only at hget
      split at hget
      · cases hget
      · split at hget
        · rw [← Option.some.inj hget]
          exact le_of_eq (List.length_replicate ..).symm
        · cases hget

/-- **A buffer keeps its bounds exactly where its length fits behind the header room and no push
wraps.** -/
theorem pktbufRun_within_iff {ops : List PktbufOp} (hget : source.get ok = some pkt)
    (hops : Run.Each pktbufStep (fun pkt op => op.Asserts pkt) pkt ops) :
    (pkt.Within binding source.room ∧
      Run.Each pktbufStep
        (fun pkt op => (pktbufStep pkt op).Within binding source.room ∧ op.Proper pkt) pkt ops) ↔
    source.Fits ∧ Run.Each pktbufStep (fun pkt op => op.Unwrapped pkt) pkt ops := by
  rw [PktbufSource.within_iff hget]
  refine and_congr_right fun hfits => ?_
  apply Run.each_iff_each (R := fun pkt => pkt.Stored binding source.room)
  · exact fun s op hasserts hs => hs.step_iff hasserts
  · exact fun s op hasserts hs hop => (hs.step hasserts hop).1
  · exact hops
  · exact ⟨(PktbufSource.within_iff hget).mpr hfits, PktbufSource.stored hget⟩

end Runs

/-- The least packet size the standard allows, behind four bytes of header room. -/
def headroomBinding : MctpBinding where
  version := 1
  bus := none
  mctp := none
  pktSize := 68
  pktHeader := 4
  pktTrailer := 0
  fits := by decide
  txStorage := false
  controlRx := false

/-- A packet of two bytes and all of the header room. -/
def twoBytesBuf : MctpPktbuf where
  start := 4
  end_ := 6
  size := 72
  mctpHdrOff := 4
  alloc := true
  data := List.replicate 72 0

def headroomOps : List PktbufOp :=
  [.push [1, 2, 3] (by decide), .pop 3, .allocStart 4, .allocEnd 66, .push [1] (by decide)]

theorem pktbufRun_within_iff_headroom :
    (PktbufSource.alloc 2 : PktbufSource headroomBinding).get true = some twoBytesBuf ∧
      (twoBytesBuf.Within headroomBinding 72 ∧
        Run.Each pktbufStep
          (fun pkt op => (pktbufStep pkt op).Within headroomBinding 72 ∧ op.Proper pkt)
          twoBytesBuf headroomOps) := by
  have hget : (PktbufSource.alloc 2 : PktbufSource headroomBinding).get true
      = some twoBytesBuf := by decide
  refine ⟨hget, (pktbufRun_within_iff hget ?_).mpr ?_⟩
  · exact ⟨trivial, trivial, rfl, rfl, trivial, trivial⟩
  · exact ⟨⟨by decide, by decide⟩, (by decide : 9 < 2 ^ 64), trivial, trivial, trivial,
      (by decide : 73 < 2 ^ 64), trivial⟩

/-- A length of the whole storage passes the check, and the packet ends behind it. -/
theorem pktbufRun_not_within :
    ∃ pkt, (PktbufSource.alloc 72 : PktbufSource headroomBinding).get true = some pkt ∧
    ¬ pkt.Within headroomBinding (PktbufSource.alloc 72 : PktbufSource headroomBinding).room := by
  refine ⟨{ twoBytesBuf with end_ := 76 }, by decide, fun h => ?_⟩
  exact absurd h.end_le (by decide)

end LibMctp
