import LibMctp.Proof.Driver.Framing

/-!
# Sending into a ring that fills up

The driver accepts the part of a packet it has room for, and `mctp_mmbi_tx` then sends the whole
packet again. So a packet arrives once, or not at all, exactly where no attempt meets a ring with
room for a part of it. The peer may read between two attempts, which is what makes a later attempt
differ from the first.
-/

namespace LibMctp

/-- The driver while device `d` sends: the bytes its peer is going to read after each attempt, and
those it has read. -/
structure Contended where
  dev : DriverState
  reads : List Nat
  returned : List UInt8

/-- An attempt to write, and the read of the peer after it. -/
def Contended.write (d : Fin 2) (s : Contended) (buf : List UInt8) : Contended × Option Nat :=
  match (driverPort d).writeFile s.dev buf with
  | (dev, res) =>
    match (driverPort d.rev).readFile dev (s.reads.headD 0 % 2 ^ 32) with
    | (dev, .ok bytes) => (⟨dev, s.reads.tail, s.returned ++ bytes⟩, res)
    | (dev, .error _) => (⟨dev, s.reads.tail, s.returned⟩, res)

def Contended.read (d : Fin 2) (s : Contended) (length : Nat) :
    Contended × Except Nat (List UInt8) :=
  match (driverPort d).readFile s.dev length with
  | (dev, res) => ({ s with dev := dev }, res)

/-- The handle of device `d`, with the reads of its peer. -/
def contendedPort (d : Fin 2) : MmbiPort Contended where
  writeFile := Contended.write d
  readFile := Contended.read d
  peekNamedPipe := fun _ => none

/-- All that device `d` has put into its ring: what was read from there and what is still there. -/
def Contended.stream (d : Fin 2) (s : Contended) : List UInt8 :=
  s.returned ++ match s.dev with
    | some ctx => (ctx.ring d).content
    | none => []

/-- The bytes the ring of device `d` has room for. -/
def Contended.free (d : Fin 2) (s : Contended) : Nat :=
  match s.dev with
  | some ctx => ringBufferSize - (ctx.ring d).dataAvailable
  | none => 0

/-- Each of the attempts left finds room for a whole packet of `len` bytes or for none of it, with
`free` bytes of room now and the peer's reads to come. The `DWORD` length of a packet of `2 ^ 32`
bytes or more is too small, and zero for some. -/
def WholeOrNone (len : Nat) : Nat → Nat → List Nat → Prop
  | 0, _, _ => True
  | retries + 1, free, reads =>
    (len < 2 ^ 32 ∧ len ≤ free) ∨
      ((len % 2 ^ 32 = 0 ∨ free = 0) ∧
        WholeOrNone len retries (min ringBufferSize (free + reads.headD 0 % 2 ^ 32)) reads.tail)

section Send

variable {d : Fin 2} {content : List UInt8} {s : Contended}

theorem DriverHolds.stream (h : DriverHolds d content s.dev) :
    s.stream d = s.returned ++ content := by
  obtain ⟨ctx, hctx, -, rfl⟩ := h
  rw [Contended.stream, hctx]

theorem DriverHolds.free (h : DriverHolds d content s.dev) :
    s.free d = ringBufferSize - content.length := by
  obtain ⟨ctx, hctx, -, rfl⟩ := h
  rw [Contended.free, hctx, content_length]

theorem DriverHolds.length_le (h : DriverHolds d content s.dev) :
    content.length ≤ ringBufferSize := by
  obtain ⟨ctx, -, hok, rfl⟩ := h
  rw [content_length]
  exact (hok d).dataAvailable_le

/-- One attempt, with the read that follows it: the stream gains what the ring had room for. -/
theorem contendedPort_writeFile (h : DriverHolds d content s.dev) (buf : List UInt8)
    (hlen : buf.length < 2 ^ 32) :
    ∃ s' content', (contendedPort d).writeFile s buf
        = (s', writeAnswer buf.length (min buf.length (ringBufferSize - content.length))) ∧
      DriverHolds d content' s'.dev ∧ s'.reads = s.reads.tail ∧
      s'.stream d = s.stream d ++ buf.take (min buf.length (ringBufferSize - content.length)) ∧
      content'.length
        = content.length + min buf.length (ringBufferSize - content.length) - s.reads.headD
        0 % 2 ^ 32 := by
  obtain ⟨dev, hwrite, hholds⟩ := h.writeFile (by decide) buf hlen
  obtain ⟨k, hk⟩ : ∃ k, k = s.reads.headD 0 % 2 ^ 32 := ⟨_, rfl⟩
  obtain ⟨held, hheld⟩ : ∃ held, held
      = content ++ buf.take (min buf.length (ringBufferSize - content.length)) := ⟨_, rfl⟩
  rw [← hheld] at hholds
  obtain ⟨dev', hread, hholds'⟩ :=
    hholds.peer_readFile (by decide) k (by rw [hk]; exact Nat.mod_lt _ (by decide))
  have hstep : (contendedPort d).writeFile s buf
      = (⟨dev', s.reads.tail, s.returned ++ held.take k⟩,
          writeAnswer buf.length (min buf.length (ringBufferSize - content.length))) := by
    change s.write d buf = _
    rw [Contended.write, hwrite]
    dsimp only
    rw [← hk, hread]
  have hstream : Contended.stream d ⟨dev', s.reads.tail, s.returned ++ held.take k⟩
      = s.returned ++ held := by
    rw [DriverHolds.stream (s := ⟨dev', s.reads.tail, s.returned ++ held.take k⟩) hholds',
      List.append_assoc, List.take_append_drop]
  refine ⟨_, held.drop k, hstep, hholds', rfl, ?_, ?_⟩
  · rw [hstream, h.stream, hheld, List.append_assoc]
  · rw [List.length_drop, hheld, List.length_append, List.length_take, ← hk]
    omega

theorem writeAnswer_eq_some_iff {length n len : Nat} (hlen : n = len → length = len) :
    writeAnswer length n = some len ↔ n = len := by
  unfold writeAnswer
  split
  · rename_i hbusy
    constructor
    · intro h
      cases h
    · intro h
      have := hlen h
      omega
  · exact Option.some_inj

/-- **What a send leaves in the stream**: what the attempts before the last were cut to, and then
the packet if the last was not cut. -/
theorem mmbiWriteLoop_contended (bytes : List UInt8) (retries : Nat) (content : List UInt8)
    (s : Contended) (res : Option Nat) (h : DriverHolds d content s.dev)
    (hres : res ≠ some bytes.length) :
    let r := mmbiWriteLoop (contendedPort d) (bytes.take (bytes.length % 2 ^ 32))
      bytes.length retries (s, res)
    ∃ junk, (junk = [] ↔
      WholeOrNone bytes.length retries (ringBufferSize - content.length) s.reads) ∧
      ((r.2 = some bytes.length ∧ r.1.stream d = s.stream d ++ junk ++ bytes) ∨
        (r.2 ≠ some bytes.length ∧ r.1.stream d = s.stream d ++ junk)) := by
  induction retries generalizing content s res with
  | zero => exact ⟨[], ⟨fun _ => trivial, fun _ => rfl⟩, .inr ⟨hres, (List.append_nil _).symm⟩⟩
  | succ retries ih =>
      have hbuf : (bytes.take (bytes.length % 2 ^ 32)).length = bytes.length % 2 ^ 32 := by
        rw [List.length_take]
        have := Nat.mod_le bytes.length (2 ^ 32)
        omega
      obtain ⟨s', content', hwrite, hholds, hreads, hstream, hlength⟩ :=
        contendedPort_writeFile h (bytes.take (bytes.length % 2 ^ 32))
          (by rw [hbuf]; exact Nat.mod_lt _ (by decide))
      rw [hbuf] at hwrite hstream hlength
      obtain ⟨n, hn⟩ : ∃ n, n = min (bytes.length % 2 ^ 32) (ringBufferSize - content.length) :=
        ⟨_, rfl⟩
      rw [← hn] at hwrite hstream hlength
      have hfits := h.length_le
      have hring : ringBufferSize = 1048576 := rfl
      intro r
      have hr : r = mmbiWriteLoop (contendedPort d) (bytes.take
          (bytes.length % 2 ^ 32)) bytes.length (retries + 1) (s, res) := rfl
      rw [mmbiWriteLoop, hwrite] at hr
      dsimp only at hr
      have hwhole : writeAnswer (bytes.length % 2 ^ 32) n = some bytes.length ↔ n = bytes.length :=
        writeAnswer_eq_some_iff (by omega)
      by_cases hcase : n = bytes.length
      · rw [if_pos (hwhole.mpr hcase)] at hr
        refine ⟨[], ⟨fun _ => .inl (by omega), fun _ => rfl⟩, .inl ?_⟩
        rw [hr]
        refine ⟨hwhole.mpr hcase, ?_⟩
        rw [List.append_nil, hstream, hcase, List.take_take, List.take_of_length_le (by omega)]
      · rw [if_neg (fun hall => hcase (hwhole.mp hall))] at hr
        obtain ⟨junk, hjunk, hcases⟩ := ih content' s' _ hholds (fun hall => hcase (hwhole.mp hall))
        rw [← hr, hstream] at hcases
        refine ⟨(bytes.take (bytes.length % 2 ^ 32)).take n ++ junk, ?_, ?_⟩
        · have htaken : ((bytes.take (bytes.length % 2 ^ 32)).take n).length = n := by
            rw [List.length_take, hbuf]
            omega
          rw [List.append_eq_nil_iff, hjunk, ← List.length_eq_zero_iff, htaken, WholeOrNone, hreads]
          by_cases hzero : n = 0
          · have hfree : min ringBufferSize
              (ringBufferSize - content.length + s.reads.headD 0 % 2 ^ 32)
                = ringBufferSize - content'.length := by omega
            rw [hfree]
            exact ⟨fun hrest => .inr ⟨by omega, hrest.2⟩, fun hnext =>
              ⟨hzero, (hnext.resolve_left (by omega)).2⟩⟩
          · exact ⟨fun hrest => absurd hrest.1 hzero, fun hnext => by omega⟩
        · rw [← List.append_assoc]
          exact hcases

/-- A send as a whole. -/
theorem mctpMmbiTx_contended (h : DriverHolds d content s.dev) (mmbi : MctpBindingMmbi)
    (hhandle : mmbi.deviceHandle = true) (pkt : MctpPktbuf) :
    let r := mctpMmbiTx (contendedPort d) mmbi s pkt
    ∃ junk, (junk = [] ↔ WholeOrNone (mctpPktbufSize pkt) 3 (s.free d) s.reads) ∧
      ((r.2 = 0 ∧ r.1.2.stream d = s.stream d ++ junk ++ pkt.bytes) ∨
        (r.2 ≠ 0 ∧ r.1.2.stream d = s.stream d ++ junk)) := by
  intro r
  have hr : r = mctpMmbiTx (contendedPort d) mmbi s pkt := rfl
  obtain ⟨junk, hjunk, hcases⟩ := mmbiWriteLoop_contended pkt.bytes 3 content s none h (by simp)
  rw [pkt.length_bytes, ← h.free] at hjunk
  rw [pkt.length_bytes] at hcases
  unfold mctpMmbiTx at hr
  dsimp only at hr
  rw [if_pos hhandle] at hr
  refine ⟨junk, hjunk, ?_⟩
  rcases hcases with ⟨hres, hstream⟩ | ⟨hres, hstream⟩
  · rw [if_pos hres] at hr
    rw [hr]
    exact .inl ⟨rfl, hstream⟩
  · rw [if_neg hres] at hr
    rw [hr]
    exact .inr ⟨(by decide : -eio ≠ 0), hstream⟩

end Send

/-- A send appended its packet once, or failed and appended nothing. -/
def AllOrNothing (before after bytes : List UInt8) (rc : Int) : Prop :=
  (rc = 0 → after = before ++ bytes) ∧ (rc ≠ 0 → after = before)

theorem allOrNothing_iff {before after bytes junk : List UInt8} {rc : Int}
    (h : (rc = 0 ∧ after = before ++ junk ++ bytes) ∨ (rc ≠ 0 ∧ after = before ++ junk)) :
    AllOrNothing before after bytes rc ↔ junk = [] := by
  unfold AllOrNothing
  rcases h with ⟨hrc, rfl⟩ | ⟨hrc, rfl⟩
  · simp [hrc]
  · simp [hrc]

/-- **When a packet is sent once or not at all.** Whatever the peer reads meanwhile, a send that
succeeds adds exactly the packet to the stream and one that fails adds nothing, exactly when every
attempt it makes finds room for the whole packet or for none of it. -/
theorem mctpMmbiTx_allOrNothing_iff (d : Fin 2) (s : Contended)
    (ctx : MmbiSharedContext ringBufferSize) (hdev : s.dev = some ctx)
    (hok : ∀ e : Fin 2, (ctx.ring e).Ok) (mmbi : MctpBindingMmbi)
    (hhandle : mmbi.deviceHandle = true) (pkt : MctpPktbuf) :
    let r := mctpMmbiTx (contendedPort d) mmbi s pkt
    AllOrNothing (s.stream d) (r.1.2.stream d) pkt.bytes r.2 ↔
    WholeOrNone (mctpPktbufSize pkt) 3 (s.free d) s.reads := by
  obtain ⟨junk, hjunk, hcases⟩ := mctpMmbiTx_contended ⟨ctx, hdev, hok, rfl⟩ mmbi hhandle pkt
  exact (allOrNothing_iff hcases).trans hjunk

/-- The driver with `n` bytes free in each ring. -/
def almostFull (n : Nat) : MmbiSharedContext ringBufferSize :=
  let ring : MmbiRingBuffer ringBufferSize :=
    ⟨fun _ => 0, ringBufferSize - n, 0, ringBufferSize - n⟩
  ⟨ring, ring⟩

theorem almostFull_ok {n : Nat} (hpos : 0 < n) (hn : n ≤ ringBufferSize) (e : Fin 2) :
    ((almostFull n).ring e).Ok := by
  have hring : (almostFull n).ring e = ⟨fun _ => 0, ringBufferSize - n, 0, ringBufferSize - n⟩ := by
    unfold MmbiSharedContext.ring almostFull
    split <;> rfl
  rw [hring]
  refine ⟨?_, ?_, ?_, ?_⟩ <;> dsimp only
  · omega
  · omega
  · omega
  · rw [Nat.zero_add, Nat.mod_eq_of_lt (by omega)]

def almostFullLink (n : Nat) (reads : List Nat) : Contended := ⟨some (almostFull n), reads, []⟩

/-- Five bytes sent into a ring with `n` bytes free. -/
def fiveSent (n : Nat) (reads : List Nat) : (MctpBindingMmbi × Contended) × Int :=
  mctpMmbiTx (contendedPort 0) { deviceHandle := true } (almostFullLink n reads) (fiveBytes 1)

theorem mctpMmbiTx_allOrNothing_iff_five :
    AllOrNothing ((almostFullLink 5 []).stream 0) ((fiveSent 5 []).1.2.stream 0) (fiveBytes 1).bytes
      (fiveSent 5 []).2 :=
  (mctpMmbiTx_allOrNothing_iff 0 (almostFullLink 5 []) (almostFull 5) rfl
    (almostFull_ok (by decide) (by decide)) _ rfl (fiveBytes 1)).mpr (.inl (by decide))

/-- Three bytes are free, and the peer reads ten before the second attempt: the first three bytes of
the packet are sent twice. -/
theorem mctpMmbiTx_repeats :
    ¬ AllOrNothing ((almostFullLink 3 [10]).stream 0) ((fiveSent 3 [10]).1.2.stream 0)
      (fiveBytes 1).bytes (fiveSent 3 [10]).2 := by
  intro hall
  obtain ⟨junk, hjunk, hcases⟩ := mctpMmbiTx_contended (d := 0) (s := almostFullLink 3 [10])
    ⟨almostFull 3, rfl, almostFull_ok (by decide) (by decide), rfl⟩ { deviceHandle := true }
    rfl (fiveBytes 1)
  have hwhole := hjunk.mp ((allOrNothing_iff hcases).mp hall)
  rcases hwhole with hfits | ⟨hnone, -⟩
  · exact absurd hfits (by decide)
  · exact absurd hnone (by decide)

end LibMctp
