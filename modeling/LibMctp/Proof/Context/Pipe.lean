import LibMctp.Proof.Context.Setup
import LibMctp.Proof.Driver.Region
import LibMctp.Proof.Link.Wire
import LibMctp.Proof.Receive.Silent
import LibMctp.Proof.Transmit.Replay

/-!
# Two contexts on a pipe

Two contexts send each other messages over a pipe that keeps the packets written to it apart. A
packet is put together again from the bytes a poll reads, and each callback is given the messages
the other context sent, in order. The contexts send no answers, since no message they send has the
owner bit.
-/

namespace LibMctp

open Fragment Reassembly

/-! ### Packets as records -/

/-- Bytes past the end of a storage read as zero, whether they are written there or not. -/
theorem getD_append_zeros (data : List UInt8) (m i : Nat) :
    (data ++ List.replicate m 0).getD i 0 = data.getD i 0 := by
  rcases lt_or_ge i data.length with hi | hi
  · rw [List.getD_append _ _ _ _ hi]
  · rw [List.getD_append_right _ _ _ _ hi, List.getD_eq_default _ _ hi, List.getD_eq_getElem?_getD,
      List.getElem?_replicate]
    split <;> rfl

theorem readBytes_append_zeros (data : List UInt8) (m off len : Nat) :
    readBytes (data ++ List.replicate m 0) off len = readBytes data off len := by
  have hmin : min (len - (data.drop off).length) (m - (off - data.length) + len)
      = min (len - (data.drop off).length) len := by omega
  rw [readBytes, readBytes, List.drop_append, List.drop_replicate, List.append_assoc,
    List.replicate_append_replicate,
    List.take_append, List.take_append, List.take_replicate, List.take_replicate, hmin]

section Record

variable {binding : MctpBinding} {l : MsgLabel} {f : Frag UInt8}

/-- A packet that starts with its storage, and fills it. -/
structure MctpPktbuf.Flat (pkt : MctpPktbuf) : Prop where
  start : pkt.start = 0
  off : pkt.mctpHdrOff = 0
  end_ : pkt.end_ = pkt.data.length
  size : pkt.data.length < 2 ^ 64

theorem MctpPktbuf.Flat.size_eq {pkt : MctpPktbuf} (h : pkt.Flat) :
    mctpPktbufSize pkt = pkt.data.length := by
  rw [mctpPktbufSize, h.start, h.end_]
  exact subSize_of_le (Nat.zero_le _) h.size

theorem MctpPktbuf.Flat.bytes_eq {pkt : MctpPktbuf} (h : pkt.Flat) : pkt.bytes = pkt.data := by
  rw [MctpPktbuf.bytes, h.size_eq, h.off, readBytes_of_le (by omega),
    List.drop_zero, List.take_length]

theorem fragPkt_flat (hheader : binding.pktHeader = 0)
    (hroom : mctpHdrSize + f.payload.length < 2 ^ 64) :
    (fragPkt binding l f).Flat where
  start := hheader
  off := hheader
  end_ := by
    dsimp only [fragPkt]
    rw [hheader]
    simp [mctpHdrSize]
    omega
  size := by
    dsimp only [fragPkt]
    rw [hheader]
    unfold mctpHdrSize at hroom
    simp
    omega

/-- **The packet put together again.** -/
theorem receivedPkt_eq (size : Nat) {pkt : MctpPktbuf} (h : pkt.Flat) :
    mctpPktbufHdr (receivedPkt size pkt.bytes) = mctpPktbufHdr pkt ∧
      (receivedPkt size pkt.bytes).end_ = pkt.end_ ∧
      ∀ len, mctpPktbufData (receivedPkt size pkt.bytes) len = mctpPktbufData pkt len := by
  have hdata : (receivedPkt size pkt.bytes).data
      = pkt.data ++ List.replicate (size - pkt.data.length) 0 := by
    dsimp only [receivedPkt, regionPkt]
    rw [writeBytes, h.bytes_eq, List.take_zero, List.nil_append, Nat.zero_add, List.drop_replicate]
  have hoff : (receivedPkt size pkt.bytes).mctpHdrOff = pkt.mctpHdrOff := h.off.symm
  refine ⟨?_, ?_, ?_⟩
  · simp only [mctpPktbufHdr, hdata, hoff, getD_append_zeros]
  · rw [h.end_]
    exact congrArg List.length h.bytes_eq
  · intro len
    rw [mctpPktbufData, mctpPktbufData, hdata, hoff, readBytes_append_zeros]

theorem pktItem_receivedPkt (size : Nat) {pkt : MctpPktbuf} (h : pkt.Flat) :
    pktItem (receivedPkt size pkt.bytes) = pktItem pkt := by
  obtain ⟨hhdr, hend, hdata⟩ := receivedPkt_eq size h
  have hoff : (receivedPkt size pkt.bytes).mctpHdrOff = pkt.mctpHdrOff := h.off.symm
  have hstart : (receivedPkt size pkt.bytes).start = pkt.start := h.start.symm
  simp only [pktItem, pktLabel, pktFrag, mctpPktbufSize, hhdr, hdata, hend, hstart, hoff]

theorem pktTaken_receivedPkt (size : Nat) {pkt : MctpPktbuf} (h : pkt.Flat) (eid : UInt8) :
    pktTaken eid (receivedPkt size pkt.bytes) = pktTaken eid pkt := by
  obtain ⟨hhdr, hend, -⟩ := receivedPkt_eq size h
  have hstart : (receivedPkt size pkt.bytes).start = pkt.start := h.start.symm
  rw [pktTaken, pktTaken, mctpPktbufSize, mctpPktbufSize, hhdr, hend, hstart]

end Record

/-! ### The pipe -/

/-- The handles of a pipe in message mode. `sent p i` are the messages that end `i` wrote and the
other did not read yet. -/
structure IsPipe {π : Type} (port : Bool → MmbiPort π) (sent : π → Bool → List (List UInt8)) :
    Prop where
  writeFile : ∀ p i buf, buf ≠ [] → ((port i).writeFile p buf).2 = some buf.length ∧
    sent ((port i).writeFile p buf).1 = Function.update (sent p) i (sent p i ++ [buf])
  peekNamedPipe : ∀ p i, (port i).peekNamedPipe p = some (sent p !i).flatten.length
  readFile : ∀ p i msg rest n, (sent p !i) = msg :: rest → msg.length ≤ n →
    ∃ p', (port i).readFile p n = (p', .ok msg) ∧ sent p' = Function.update (sent p) (!i) rest

/-- The environment of the context at end `i`. -/
def pipeEnv {π : Type} (port : Bool → MmbiPort π) (i : Bool) : Env (MctpBindingMmbi × π) :=
  mmbiEnv (port i) (fun _ => true) fun _ => true

section Tx

variable {π : Type} {port : Bool → MmbiPort π} {sent : π → Bool → List (List UInt8)}
  (hpipe : IsPipe port sent) (i : Bool)
  (mmbi : MctpBindingMmbi) (p : π)

include hpipe

theorem IsPipe.tx (hhandle : mmbi.deviceHandle = true) {pkt : MctpPktbuf} (hflat : pkt.Flat)
    (hne : pkt.data ≠ []) (hlen : pkt.data.length < 2 ^ 32) (b : Nat) :
    ((pipeEnv port i).tx b (mmbi, p) pkt).2 = ⟨0, false⟩ ∧
      ((pipeEnv port i).tx b (mmbi, p) pkt).1.1 = mmbi ∧
      sent ((pipeEnv port i).tx b (mmbi, p) pkt).1.2
        = Function.update (sent p) i (sent p i ++ [pkt.bytes]) := by
  have hbytes : pkt.bytes.take (mctpPktbufSize pkt % 2 ^ 32) = pkt.data := by
    rw [hflat.bytes_eq, hflat.size_eq, Nat.mod_eq_of_lt hlen, List.take_length]
  obtain ⟨hwritten, hsent⟩ := hpipe.writeFile p i pkt.data hne
  -- the first of the attempts writes it
  have hloop : mmbiWriteLoop (port i) pkt.data pkt.data.length 3 (p, none)
      = (((port i).writeFile p pkt.data).1, some pkt.data.length) := by
    rw [mmbiWriteLoop]
    dsimp only
    rw [if_pos hwritten, ← hwritten]
  have htx : mctpMmbiTx (port i) mmbi p pkt = ((mmbi, ((port i).writeFile p pkt.data).1), 0) := by
    rw [mctpMmbiTx]
    dsimp only
    rw [if_pos hhandle, hbytes, hflat.size_eq, hloop]
    dsimp only
    rw [if_pos rfl]
  have henv : (pipeEnv port i).tx b (mmbi, p) pkt
      = ((mmbi, ((port i).writeFile p pkt.data).1), ⟨0, false⟩) := by
    dsimp only [pipeEnv, mmbiEnv]
    rw [htx]
  rw [henv, hflat.bytes_eq]
  exact ⟨rfl, rfl, hsent⟩

theorem IsPipe.replay (hhandle : mmbi.deviceHandle = true) (b : Nat)
    (txed : List (MctpPktbuf × TxResult))
    (htxed : ∀ x ∈ txed, x.1.Flat ∧ x.1.data ≠ [] ∧ x.1.data.length < 2 ^ 32) :
    (replayTx (pipeEnv port i) b (mmbi, p) txed).1 = mmbi ∧
      sent (replayTx (pipeEnv port i) b (mmbi, p) txed).2
        = Function.update (sent p) i (sent p i ++ txed.map fun x => x.1.bytes) := by
  induction txed using List.reverseRecOn with
  | nil => exact ⟨rfl, by rw [List.map_nil, List.append_nil, Function.update_eq_self]; rfl⟩
  | append_singleton txed x ih =>
      obtain ⟨hmmbi, hsent⟩ := ih fun y hy => htxed y (List.mem_append_left _ hy)
      obtain ⟨hflat, hne, hlen⟩ := htxed x (List.mem_append_right _ List.mem_cons_self)
      rw [replayTx_append]
      generalize replayTx (pipeEnv port i) b (mmbi, p) txed = d at hmmbi hsent
      obtain ⟨mmbi', p'⟩ := d
      obtain rfl : mmbi' = mmbi := hmmbi
      obtain ⟨-, hkept, hnext⟩ := hpipe.tx i mmbi' p' hhandle hflat hne hlen b
      refine ⟨hkept, ?_⟩
      rw [show replayTx (pipeEnv port i) b (mmbi', p') [x]
        = ((pipeEnv port i).tx b (mmbi', p') x.1).1 from rfl, hnext]
      dsimp only at hsent
      rw [hsent, Function.update_idem, Function.update_self, List.map_append, List.append_assoc]
      rfl

end Tx

end LibMctp
