import LibMctp.Lib.Ring
import LibMctp.Model.Packet

/-!
# The driver

`windows_driver/MmbiDriver.c`: two rings of bytes between device 0 and device 1. The ring size is a
parameter; the driver's is `ringBufferSize`. A `ULONG` is a natural number below `2 ^ 32`, and a
copy that would run past a ring's storage makes the operation fail with `none`.
-/

namespace LibMctp

def ringBufferSize : Nat := 1024 * 1024

instance : NeZero ringBufferSize := ⟨by decide⟩

/-- `a - b` on `ULONG`. -/
def subUlong (a b : Nat) : Nat := (2 ^ 32 + a - b) % 2 ^ 32

/-- `a + b` on `ULONG`. -/
def addUlong (a b : Nat) : Nat := (a + b) % 2 ^ 32

structure MmbiRingBuffer (size : Nat) where
  buffer : Fin size → UInt8
  writeIdx : Nat
  readIdx : Nat
  dataAvailable : Nat

structure MmbiSharedContext (size : Nat) where
  hostToBmc : MmbiRingBuffer size
  bmcToHost : MmbiRingBuffer size

/-- The zeroed `GlobalContext`. -/
def globalContext (size : Nat) : MmbiSharedContext size :=
  ⟨⟨fun _ => 0, 0, 0, 0⟩, ⟨fun _ => 0, 0, 0, 0⟩⟩

variable {size : Nat}

/-- `RtlCopyMemory(&Ring->Buffer[off], bytes, length)`. -/
def rtlCopyIn (buffer : Fin size → UInt8) (off : Nat) (bytes : List UInt8) :
    Option (Fin size → UInt8) :=
  if off + bytes.length ≤ size then some (Ring.store buffer off bytes) else none

/-- `RtlCopyMemory(bytes, &Ring->Buffer[off], len)`. -/
def rtlCopyOut (buffer : Fin size → UInt8) (off len : Nat) : Option (List UInt8) :=
  if h : off + len ≤ size then some (Ring.load buffer off len h) else none

/-- The two step write of `RingBufferWrite`: the storage and the next `WriteIdx`. -/
def ringBufferStore (ring : MmbiRingBuffer size) (data : List UInt8) (toWrite : Nat) :
    Option ((Fin size → UInt8) × Nat) :=
  let firstChunk := subUlong size ring.writeIdx
  if toWrite ≤ firstChunk then
    (rtlCopyIn ring.buffer ring.writeIdx (data.take toWrite)).map fun buffer =>
      (buffer, addUlong ring.writeIdx toWrite % size)
  else
    let secondChunk := subUlong toWrite firstChunk
    (rtlCopyIn ring.buffer ring.writeIdx (data.take firstChunk)).bind fun buffer =>
      (rtlCopyIn buffer 0 ((data.drop firstChunk).take secondChunk)).map fun buffer =>
        (buffer, secondChunk)

/-- `RingBufferWrite`: the ring and `BytesWritten`. -/
def ringBufferWrite (ring : MmbiRingBuffer size) (data : List UInt8) (length : Nat) :
    Option (MmbiRingBuffer size × Nat) :=
  let spaceFree := subUlong size ring.dataAvailable
  let toWrite := if length > spaceFree then spaceFree else length
  if toWrite = 0 then some (ring, 0)
  else (ringBufferStore ring data toWrite).map fun (buffer, writeIdx) =>
    ({ ring with
      buffer := buffer
      writeIdx := writeIdx
      dataAvailable := addUlong ring.dataAvailable toWrite }, toWrite)

/-- The copies of `RingBufferRead`: the bytes and the next `ReadIdx`. -/
def ringBufferLoad (ring : MmbiRingBuffer size) (toRead : Nat) : Option (List UInt8 × Nat) :=
  let firstChunk := subUlong size ring.readIdx
  if toRead ≤ firstChunk then
    (rtlCopyOut ring.buffer ring.readIdx toRead).map fun bytes =>
      (bytes, addUlong ring.readIdx toRead % size)
  else
    let secondChunk := subUlong toRead firstChunk
    (rtlCopyOut ring.buffer ring.readIdx firstChunk).bind fun first =>
      (rtlCopyOut ring.buffer 0 secondChunk).map fun second => (first ++ second, secondChunk)

/-- `RingBufferRead`: the ring and the bytes put into the caller's buffer. -/
def ringBufferRead (ring : MmbiRingBuffer size) (length : Nat) :
    Option (MmbiRingBuffer size × List UInt8) :=
  let toRead := if length > ring.dataAvailable then ring.dataAvailable else length
  if toRead = 0 then some (ring, [])
  else (ringBufferLoad ring toRead).map fun (bytes, readIdx) =>
    ({ ring with
      readIdx := readIdx
      dataAvailable := subUlong ring.dataAvailable toRead }, bytes)

/-- How a request is completed. -/
inductive Completion where
  | deviceBusy
  | success (information : Nat)
  deriving DecidableEq, Repr

/-- The ring a device writes to. -/
def MmbiSharedContext.ring (ctx : MmbiSharedContext size) (deviceId : Nat) : MmbiRingBuffer size :=
  if deviceId = 0 then ctx.hostToBmc else ctx.bmcToHost

def MmbiSharedContext.setRing (ctx : MmbiSharedContext size) (deviceId : Nat)
    (ring : MmbiRingBuffer size) : MmbiSharedContext size :=
  if deviceId = 0 then { ctx with hostToBmc := ring } else { ctx with bmcToHost := ring }

/-- The ring a device reads from is the one the other device writes to. -/
def peerId (deviceId : Nat) : Nat := if deviceId = 0 then 1 else 0

/-- `MmbiEvtIoWrite` on a request whose input buffer was retrieved. -/
def mmbiEvtIoWrite (ctx : MmbiSharedContext size) (deviceId : Nat) (buffer : List UInt8) :
    Option (MmbiSharedContext size × Completion) :=
  (ringBufferWrite (ctx.ring deviceId) buffer (buffer.length % 2 ^ 32)).map fun (ring, bytesWritten) =>
    (ctx.setRing deviceId ring,
      if bytesWritten = 0 ∧ buffer.length > 0 then .deviceBusy else .success bytesWritten)

/-- `MmbiEvtIoRead` on a request whose output buffer was retrieved, with the bytes put there. -/
def mmbiEvtIoRead (ctx : MmbiSharedContext size) (deviceId : Nat) (length : Nat) :
    Option (MmbiSharedContext size × List UInt8 × Completion) :=
  (ringBufferRead (ctx.ring (peerId deviceId)) (length % 2 ^ 32)).map fun (ring, bytes) =>
    (ctx.setRing (peerId deviceId) ring, bytes, .success bytes.length)

end LibMctp
