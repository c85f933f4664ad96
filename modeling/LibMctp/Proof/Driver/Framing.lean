import LibMctp.Lib.Records
import LibMctp.Lib.Run
import LibMctp.Model.Instance
import LibMctp.Model.Mmbi
import LibMctp.Proof.Base.Frame
import LibMctp.Proof.Base.Pktbuf
import LibMctp.Proof.Driver.Rings

/-!
# Packets over the driver

One device sends packets and the other polls for them. The driver keeps a stream of bytes and a poll
asks for more than a packet, so a poll finds one packet exactly where no other is queued behind it,
or where the first packet is as long as the read.
-/

namespace LibMctp

variable {size : Nat}

/-! ### The calls on a handle -/

/-- The driver is up, its rings are consistent, and this is what device `d` has written and its peer
has not read. -/
def DriverHolds [NeZero size] (d : Fin 2) (content : List UInt8)
    (dev : Option (MmbiSharedContext size)) : Prop :=
  ∃ ctx, dev = some ctx ∧ (∀ e : Fin 2, (ctx.ring e).Ok) ∧ (ctx.ring d).content = content

theorem Fin.eq_or_eq_rev (d e : Fin 2) : e = d ∨ e = d.rev := by
  revert d e
  decide

section Port

variable [NeZero size] {d : Fin 2} {content : List UInt8} {dev : Option (MmbiSharedContext size)}
  (hsize : 2 * size < 2 ^ 32)

theorem content_length (ring : MmbiRingBuffer size) : ring.content.length = ring.dataAvailable :=
  Ring.length_window _ _ _

/-- The answer of `WriteFile` to a buffer of `length` bytes of which the driver accepts `n`. -/
def writeAnswer (length n : Nat) : Option Nat := if n = 0 ∧ length > 0 then none else some n

omit [NeZero size] in
theorem writeFile_of_accepted {e : Nat} {ctx ctx' : MmbiSharedContext size} {length n : Nat}
    {buf : List UInt8} (h : mmbiEvtIoWrite ctx e buf = some (ctx', Completion.accepted length n)) :
    (driverPort e).writeFile (some ctx) buf = (some ctx', writeAnswer length n) := by
  have hbind : ((some ctx).bind fun ctx => mmbiEvtIoWrite ctx e buf)
      = some (ctx', Completion.accepted length n) := h
  unfold driverPort
  dsimp only
  rw [hbind]
  unfold Completion.accepted writeAnswer
  by_cases hbusy : n = 0 ∧ length > 0
  · rw [if_pos hbusy, if_pos hbusy]
  · rw [if_neg hbusy, if_neg hbusy]

include hsize

theorem DriverHolds.writeFile (h : DriverHolds d content dev) (buf : List UInt8)
    (hlen : buf.length < 2 ^ 32) :
    ∃ dev', (driverPort d).writeFile dev buf
      = (dev', writeAnswer buf.length (min buf.length (size - content.length))) ∧
      DriverHolds d (content ++ buf.take (min buf.length (size - content.length))) dev' := by
  obtain ⟨ctx, rfl, hok, rfl⟩ := h
  obtain ⟨ctx', hwrite, hring, hcontent, hother⟩ := mmbiEvtIoWrite_spec hsize d (hok d) buf hlen
  rw [content_length]
  refine ⟨some ctx', writeFile_of_accepted hwrite, ctx', rfl, fun e => ?_, hcontent⟩
  rcases Fin.eq_or_eq_rev d e with rfl | rfl
  · exact hring
  · rw [hother]
    exact hok _

theorem DriverHolds.peer_writeFile (h : DriverHolds d content dev) {buf : List UInt8}
    (hlen : buf.length < 2 ^ 32) :
    DriverHolds d content ((driverPort d.rev).writeFile dev buf).1 := by
  obtain ⟨ctx, rfl, hok, hcontent⟩ := h
  obtain ⟨ctx', hwrite, hring, -, hother⟩ := mmbiEvtIoWrite_spec hsize d.rev (hok d.rev) buf hlen
  rw [Fin.rev_rev] at hother
  rw [writeFile_of_accepted hwrite]
  refine ⟨ctx', rfl, fun e => ?_, by rw [hother]; exact hcontent⟩
  rcases Fin.eq_or_eq_rev d e with rfl | rfl
  · rw [hother]
    exact hok _
  · exact hring

theorem DriverHolds.peer_readFile (h : DriverHolds d content dev) (length : Nat)
    (hlen : length < 2 ^ 32) :
    ∃ dev', (driverPort d.rev).readFile dev length = (dev', .ok (content.take length)) ∧
      DriverHolds d (content.drop length) dev' := by
  obtain ⟨ctx, rfl, hok, rfl⟩ := h
  obtain ⟨ctx', hread, hring, hcontent, hother⟩ :=
    mmbiEvtIoRead_spec hsize d.rev (hok d.rev.rev) length hlen
  rw [Fin.rev_rev] at hread hring hcontent
  refine ⟨some ctx', ?_, ctx', rfl, fun e => ?_, hcontent⟩
  · have hbind : ((some ctx).bind fun ctx => mmbiEvtIoRead ctx d.rev length) = some (ctx', _, _) :=
      hread
    unfold driverPort
    dsimp only
    rw [hbind]
  · rcases Fin.eq_or_eq_rev d e with rfl | rfl
    · exact hring
    · rw [hother]
      exact hok _

theorem DriverHolds.readFile (h : DriverHolds d content dev) (length : Nat)
    (hlen : length < 2 ^ 32) :
    DriverHolds d content ((driverPort d).readFile dev length).1 := by
  obtain ⟨ctx, rfl, hok, hcontent⟩ := h
  obtain ⟨ctx', hread, hring, -, hother⟩ := mmbiEvtIoRead_spec hsize d (hok d.rev) length hlen
  have hbind : ((some ctx).bind fun ctx => mmbiEvtIoRead ctx d length) = some (ctx', _, _) := hread
  have hdev : ((driverPort d).readFile (some ctx) length).1 = some ctx' := by
    unfold driverPort
    dsimp only
    rw [hbind]
  rw [hdev]
  refine ⟨ctx', rfl, fun e => ?_, by rw [hother]; exact hcontent⟩
  rcases Fin.eq_or_eq_rev d e with rfl | rfl
  · rw [hother]
    exact hok _
  · exact hring

end Port

/-! ### Sending and polling -/

section Send

variable {δ : Type}

theorem mmbiWriteLoop_invariant (P : δ → Prop) (port : MmbiPort δ) (buf : List UInt8) (len : Nat)
    (hwrite : ∀ dev, P dev → P (port.writeFile dev buf).1) (retries : Nat) (last : δ × Option Nat)
    (hlast : P last.1) :
    P (mmbiWriteLoop port buf len retries last).1 := by
  induction retries generalizing last with
  | zero => exact hlast
  | succ retries ih =>
      have hnext := hwrite last.1 hlast
      rw [mmbiWriteLoop]
      dsimp only
      split
      · exact hnext
      · exact ih _ hnext

end Send

@[simp] theorem MctpPktbuf.length_bytes (pkt : MctpPktbuf) :
    pkt.bytes.length = mctpPktbufSize pkt := length_readBytes _ _ _

section Link

variable [NeZero size] {d : Fin 2} {content : List UInt8} {dev : Option (MmbiSharedContext size)}
  (hsize : 2 * size < 2 ^ 32) {mmbi : MctpBindingMmbi} (hhandle : mmbi.deviceHandle = true)

include hsize hhandle

theorem DriverHolds.tx (h : DriverHolds d content dev) (pkt : MctpPktbuf)
    (hpkt : 0 < mctpPktbufSize pkt) (hroom : content.length + mctpPktbufSize pkt ≤ size) :
    ∃ dev', mctpMmbiTx (driverPort d) mmbi dev pkt = ((mmbi, dev'), 0) ∧
      DriverHolds d (content ++ pkt.bytes) dev' := by
  have htaken : pkt.bytes.take (mctpPktbufSize pkt % 2 ^ 32) = pkt.bytes := by
    rw [Nat.mod_eq_of_lt (by omega), ← pkt.length_bytes, List.take_length]
  obtain ⟨dev', hwrite, hholds⟩ := h.writeFile hsize pkt.bytes (by rw [pkt.length_bytes]; omega)
  have hall : min (mctpPktbufSize pkt) (size - content.length) = mctpPktbufSize pkt := by omega
  rw [pkt.length_bytes, hall] at hwrite hholds
  rw [writeAnswer, if_neg (by omega)] at hwrite
  rw [← pkt.length_bytes, List.take_length] at hholds
  have hloop : mmbiWriteLoop (driverPort d) pkt.bytes (mctpPktbufSize pkt) 3 (dev, none)
      = (dev', some (mctpPktbufSize pkt)) := by
    rw [mmbiWriteLoop, hwrite]
    exact if_pos rfl
  refine ⟨dev', ?_, hholds⟩
  rw [mctpMmbiTx]
  dsimp only
  rw [if_pos hhandle, htaken, hloop]
  dsimp only
  rw [if_pos rfl]

theorem DriverHolds.peer_tx (h : DriverHolds d content dev) (pkt : MctpPktbuf) :
    (mctpMmbiTx (driverPort d.rev) mmbi dev pkt).1.1 = mmbi ∧
      DriverHolds d content (mctpMmbiTx (driverPort d.rev) mmbi dev pkt).1.2 := by
  rw [mctpMmbiTx]
  dsimp only
  rw [if_pos hhandle]
  refine ⟨rfl, mmbiWriteLoop_invariant (DriverHolds d content) _ _ _ (fun dev hdev =>
    ?_) 3 (dev, none) h⟩
  refine hdev.peer_writeFile hsize ?_
  rw [List.length_take]
  have hlt := Nat.mod_lt (mctpPktbufSize pkt) (show 0 < 2 ^ 32 by decide)
  omega

end Link

/-! ### Filling a packet buffer -/

/-- The state after a packet buffer was allocated. -/
def Mctp.pktAlloced {δ : Type} (w : Mctp δ) : Mctp δ :=
  { w with
    nPktAlloc := w.nPktAlloc + 1
    hist := { w.hist with heap := w.hist.heap ++ [.pktAlloc w.nPktAlloc] } }

section Fill

variable {δ : Type} (env : Env δ) (w : Mctp δ) (b : Nat)

theorem Mctp.pktbufAlloc_frame (len : Nat) :
    (w.pktbufAlloc env b len).1.bindings = w.bindings ∧
      (w.pktbufAlloc env b len).1.dev = w.dev := by
  unfold Mctp.pktbufAlloc
  dsimp only
  split
  · exact ⟨rfl, rfl⟩
  · exact ⟨rfl, rfl⟩

theorem mmbiFill_frame (bytes : List UInt8) :
    (mmbiFill env w b bytes).1.bindings = w.bindings ∧ (mmbiFill env w b bytes).1.dev = w.dev := by
  have hframe := Mctp.pktbufAlloc_frame env w b bytes.length
  unfold mmbiFill
  split
  · cases halloc : w.pktbufAlloc env b bytes.length with
    | mk w' pkt =>
        rw [halloc] at hframe
        cases pkt with
        | none => exact hframe
        | some pkt => exact hframe
  · exact ⟨rfl, rfl⟩

theorem mctpPktbufAlloc_eq (binding : MctpBinding) (ok : Bool) (len : Nat) :
    mctpPktbufAlloc binding ok len
      = if len ≤ binding.storageSize ∧ ok = true then
          some ⟨binding.pktHeader, addSize binding.pktHeader len, binding.storageSize,
            binding.pktHeader, true, List.replicate binding.storageSize 0⟩
        else none := by
  unfold mctpPktbufAlloc
  by_cases hlen : len ≤ binding.storageSize
  · rw [if_neg (by omega)]
    simp [hlen, mctpPktbufInit]
  · rw [if_pos (by omega), if_neg fun h => hlen h.1]

variable {w b} {bytes : List UInt8} (hne : bytes ≠ [])

include hne

theorem mmbiFill_packet (hheader : (w.bindings b).pktHeader = 0)
    (hlen : bytes.length ≤ (w.bindings b).storageSize) (halloc : env.pktAlloc w.nPktAlloc = true) :
    ∃ pkt, mmbiFill env w b bytes = (w.pktAlloced, .packet pkt) ∧ pkt.bytes = bytes ∧
      pkt.start = pkt.mctpHdrOff := by
  have hstorage : (w.bindings b).storageSize < 2 ^ 64 := (w.bindings b).fits
  refine ⟨⟨0, bytes.length, (w.bindings b).storageSize, 0, true,
    writeBytes (List.replicate (w.bindings b).storageSize 0) 0 bytes⟩, ?_, ?_, rfl⟩
  · unfold mmbiFill Mctp.pktbufAlloc
    rw [if_pos (List.length_pos_of_ne_nil hne)]
    dsimp only
    rw [mctpPktbufAlloc_eq, if_pos ⟨hlen, halloc⟩, hheader, addSize_of_lt (by omega), Nat.zero_add]
    rfl
  · have hsize : mctpPktbufSize ⟨0, bytes.length, (w.bindings b).storageSize, 0, true,
        writeBytes (List.replicate (w.bindings b).storageSize 0) 0 bytes⟩ = bytes.length :=
      subSize_of_le (Nat.zero_le _) (by dsimp only; omega)
    rw [MctpPktbuf.bytes, hsize, readBytes_writeBytes bytes (Nat.zero_le _)]

/-- Without a buffer, or without one of that length, the bytes are lost. -/
theorem mmbiFill_refused
    (hrefused : ¬ (bytes.length ≤ (w.bindings b).storageSize ∧ env.pktAlloc w.nPktAlloc = true)) :
    (mmbiFill env w b bytes).2 = .noBuffer bytes := by
  unfold mmbiFill Mctp.pktbufAlloc
  rw [if_pos (List.length_pos_of_ne_nil hne)]
  dsimp only
  rw [mctpPktbufAlloc_eq, if_neg hrefused]

end Fill

/-! ### Runs -/

inductive MmbiOp where
  | write (pkt : MctpPktbuf)
  | poll

/-- A run on the two devices as a run of records. -/
def MmbiOp.record : MmbiOp → Option (List UInt8)
  | .write pkt => some pkt.bytes
  | .poll => none

abbrev DriverState := Option (MmbiSharedContext ringBufferSize)

/-- A polling instance with its driver, the binding of the device that writes to it, and what was
written and what the polls read so far, each by itself. -/
structure MmbiLink where
  w : Mctp (MctpBindingMmbi × DriverState)
  peer : MctpBindingMmbi
  written : List (List UInt8) := []
  reads : List (List UInt8) := []

/-- The environment of the instance that polls what device `d` writes. -/
def pollEnv (d : Fin 2) (msgAlloc pktAlloc : Nat → Bool) : Env (MctpBindingMmbi × DriverState) :=
  mmbiEnv (driverPort d.rev) msgAlloc pktAlloc

/-- The `ReadFile` of a poll. -/
def MmbiLink.readFile (d : Fin 2) (b : Nat) (s : MmbiLink) :
    DriverState × Except Nat (List UInt8) :=
  (driverPort d.rev).readFile s.w.dev.2 (maxToRead (s.w.bindings b).pktSize)

/-- What a poll reads. -/
def MmbiLink.read (d : Fin 2) (b : Nat) (s : MmbiLink) : List UInt8 :=
  match (s.readFile d b).2 with
  | .ok bytes => bytes
  | .error _ => []

/-- The instance after the read. -/
def MmbiLink.afterRead (d : Fin 2) (b : Nat) (s : MmbiLink) :
    Mctp (MctpBindingMmbi × DriverState) :=
  { s.w with dev := (s.w.dev.1, (s.readFile d b).1) }

/-- Device `d` writes, and its peer polls on binding `b`. -/
def mmbiStep (msgAlloc pktAlloc : Nat → Bool) (d : Fin 2) (b : Nat) (s : MmbiLink) :
    MmbiOp → MmbiLink
  | .write pkt =>
    let (sent, rc) := mctpMmbiTx (driverPort d) s.peer s.w.dev.2 pkt
    { s with
      peer := sent.1
      w := { s.w with dev := (s.w.dev.1, sent.2) }
      written := if rc = 0 then s.written ++ [pkt.bytes] else s.written }
  | .poll =>
    { s with
      w := (mctpMmbiPoll (pollEnv d msgAlloc pktAlloc) (driverPort d.rev) s.w b).1
      reads := if s.read d b = [] then s.reads else s.reads ++ [s.read d b] }

/-- A poll that reads anything gives `mctp_bus_rx` the next of the packets written, whole and alone,
and no poll fails for want of a buffer. -/
def MmbiLink.Framed (msgAlloc pktAlloc : Nat → Bool) (d : Fin 2) (b : Nat) (s : MmbiLink) :
    MmbiOp → Prop
  | .write _ => True
  | .poll =>
    (mctpMmbiPoll (pollEnv d msgAlloc pktAlloc) (driverPort d.rev) s.w b).2 ≠ -enomem ∧
      (s.read d b ≠ [] → ∃ pkt, s.written[s.reads.length]? = some pkt.bytes ∧
        pkt.bytes = s.read d b ∧
        pkt.start = pkt.mctpHdrOff ∧
        mctpMmbiPoll (pollEnv d msgAlloc pktAlloc) (driverPort d.rev) s.w b
          = (mctpBusRx (pollEnv d msgAlloc pktAlloc) (s.afterRead d b).pktAlloced b pkt, 0))

/-- There is room for a packet that is written. -/
def MmbiLink.HasRoom (d : Fin 2) (s : MmbiLink) : MmbiOp → Prop
  | .write pkt =>
      ∀ ctx, s.w.dev.2 = some ctx → (ctx.ring d).dataAvailable + mctpPktbufSize pkt ≤ ringBufferSize
  | .poll => True

/-- The heap has a packet buffer for a poll that finds anything to read. -/
def MmbiLink.HasBuffer (pktAlloc : Nat → Bool) (d : Fin 2) (b : Nat) (s : MmbiLink) : MmbiOp → Prop
  | .write _ => True
  | .poll =>
      ∀ ctx, s.w.dev.2 = some ctx → 0 < (ctx.ring d).dataAvailable →
        0 < maxToRead (s.w.bindings b).pktSize → pktAlloc s.w.nPktAlloc = true

/-- Two bindings on the driver as it is loaded, with no header or trailer room on the polling one. -/
structure FreshLink (b : Nat) (s : MmbiLink) : Prop where
  header : (s.w.bindings b).pktHeader = 0
  trailer : (s.w.bindings b).pktTrailer = 0
  driver : s.w.dev.2 = some (globalContext ringBufferSize)
  handle : s.w.dev.1.deviceHandle = true
  peer : s.peer.deviceHandle = true
  written : s.written = []
  reads : s.reads = []

/-- The link with the packets `q` written and not read. -/
structure LinkHolds (d : Fin 2) (b : Nat) (binding : MctpBinding) (q : List (List UInt8))
    (s : MmbiLink) : Prop where
  bindings : s.w.bindings b = binding
  handle : s.w.dev.1.deviceHandle = true
  peer : s.peer.deviceHandle = true
  driver : DriverHolds d q.flatten s.w.dev.2
  written : s.reads ++ q = s.written
  lengths : ∀ r ∈ q, r ≠ [] ∧ r.length ≤ binding.storageSize

theorem maxToRead_lt (pktSize : Nat) : maxToRead pktSize < 2 ^ 32 := by
  unfold maxToRead
  dsimp only
  have hlt : rxBufSize < 2 ^ 32 := by decide
  split
  · exact hlt
  · omega

section Run

variable (msgAlloc pktAlloc : Nat → Bool) {d : Fin 2} {b : Nat} {binding : MctpBinding}
  {q : List (List UInt8)} {s : MmbiLink}

/-- What the polling side answers changes neither its binding nor what is queued for it. -/
theorem mctpBusRx_driver {w : Mctp (MctpBindingMmbi × DriverState)} {content : List UInt8}
    (pkt : MctpPktbuf) (hhandle : w.dev.1.deviceHandle = true)
    (hdriver : DriverHolds d content w.dev.2) :
    let w' := mctpBusRx (pollEnv d msgAlloc pktAlloc) w b pkt
    w'.bindings = w.bindings ∧ w'.dev.1.deviceHandle = true ∧ DriverHolds d content w'.dev.2 := by
  intro w'
  have hsetup := mctpBusRx_sameSetup (pollEnv d msgAlloc pktAlloc) w b pkt
  refine ⟨hsetup.bindings, ?_⟩
  refine hsetup.dev_invariant
    (P := fun dev => dev.1.deviceHandle = true ∧ DriverHolds d content dev.2) ?_ ⟨hhandle, hdriver⟩
  rintro - dev pkt ⟨hhandle, hdriver⟩
  obtain ⟨hsame, hholds⟩ := hdriver.peer_tx (by decide) hhandle pkt
  refine ⟨?_, hholds⟩
  rw [← hhandle]
  exact congrArg MctpBindingMmbi.deviceHandle hsame

theorem mmbiPollPacket_driver {w : Mctp (MctpBindingMmbi × DriverState)} {content : List UInt8}
    (env : Env (MctpBindingMmbi × DriverState)) (hhandle : w.dev.1.deviceHandle = true)
    (hdriver : DriverHolds d content w.dev.2) :
    ∃ dev, mmbiPollPacket env (driverPort d.rev) w b
        = mmbiFill env { w with dev := (w.dev.1, dev) } b (content.take
          (maxToRead (w.bindings b).pktSize)) ∧
      DriverHolds d (content.drop (maxToRead (w.bindings b).pktSize)) dev := by
  obtain ⟨dev, hread, hholds⟩ :=
    hdriver.peer_readFile (by decide) _ (maxToRead_lt (w.bindings b).pktSize)
  refine ⟨dev, ?_, hholds⟩
  have hpeek : ((driverPort d.rev).peekNamedPipe w.dev.2).getD 1 ≠ 0 := Nat.one_ne_zero
  unfold mmbiPollPacket
  dsimp only
  rw [hhandle, hread, if_neg hpeek]
  rfl

theorem mctpMmbiPoll_driver {w : Mctp (MctpBindingMmbi × DriverState)} {content : List UInt8}
    (hhandle : w.dev.1.deviceHandle = true) (hdriver : DriverHolds d content w.dev.2) :
    let w' := (mctpMmbiPoll (pollEnv d msgAlloc pktAlloc) (driverPort d.rev) w b).1
    w'.bindings = w.bindings ∧ w'.dev.1.deviceHandle = true ∧
      DriverHolds d (content.drop (maxToRead (w.bindings b).pktSize)) w'.dev.2 := by
  intro w'
  obtain ⟨dev, hpoll, hholds⟩ :=
    mmbiPollPacket_driver (b := b) (pollEnv d msgAlloc pktAlloc) hhandle hdriver
  obtain ⟨hbindings, hdev⟩ := mmbiFill_frame (pollEnv d msgAlloc pktAlloc)
    { w with dev := (w.dev.1, dev) } b (content.take (maxToRead (w.bindings b).pktSize))
  have hw' : w' = (mctpMmbiPoll (pollEnv d msgAlloc pktAlloc) (driverPort d.rev) w b).1 := rfl
  rw [mctpMmbiPoll, hpoll] at hw'
  cases hfill : mmbiFill (pollEnv d msgAlloc pktAlloc) { w with dev := (w.dev.1, dev) } b
      (content.take (maxToRead (w.bindings b).pktSize)) with
  | mk w₁ outcome =>
      rw [hfill] at hbindings hdev hw'
      have hkept : w₁.bindings = w.bindings ∧ w₁.dev.1.deviceHandle = true ∧
          DriverHolds d (content.drop (maxToRead (w.bindings b).pktSize)) w₁.dev.2 := by
        rw [hdev]
        exact ⟨hbindings, hhandle, hholds⟩
      cases outcome with
      | idle rc =>
          rw [hw']
          exact hkept
      | noBuffer bytes =>
          rw [hw']
          exact hkept
      | packet pkt =>
          have hrx := mctpBusRx_driver msgAlloc pktAlloc (b := b) pkt hkept.2.1 hkept.2.2
          rw [hw']
          exact ⟨hrx.1.trans hkept.1, hrx.2⟩

theorem LinkHolds.write (h : LinkHolds d b binding q s) {pkt : MctpPktbuf}
    (hpos : 0 < mctpPktbufSize pkt)
    (hlen : mctpPktbufSize pkt ≤ binding.storageSize) (hroom : s.HasRoom d (.write pkt)) :
    LinkHolds d b binding (q ++ [pkt.bytes]) (mmbiStep msgAlloc pktAlloc d b s (.write pkt)) := by
  obtain ⟨ctx, hctx, -, hcontent⟩ := h.driver
  have hfree := hroom ctx hctx
  rw [← content_length, hcontent] at hfree
  obtain ⟨dev, htx, hholds⟩ := h.driver.tx (by decide) h.peer pkt hpos hfree
  have hstep : mmbiStep msgAlloc pktAlloc d b s (.write pkt)
      = { s with
          w := { s.w with dev := (s.w.dev.1, dev) }
          written := s.written ++ [pkt.bytes] } := by
    rw [mmbiStep, htx]
    rfl
  rw [hstep]
  refine ⟨h.bindings, h.handle, h.peer, ?_, ?_, fun r hr => ?_⟩
  · rw [List.flatten_append, List.flatten_singleton]
    exact hholds
  · dsimp only
    rw [← List.append_assoc, h.written]
  · rcases List.mem_append.mp hr with hr | hr
    · exact h.lengths r hr
    · rw [List.mem_singleton.mp hr]
      have hbytes := pkt.length_bytes
      exact ⟨List.ne_nil_of_length_pos (by omega), by omega⟩

theorem LinkHolds.read_eq (h : LinkHolds d b binding q s) :
    s.read d b = q.flatten.take (maxToRead binding.pktSize) := by
  obtain ⟨dev, hread, -⟩ := h.driver.peer_readFile (by decide) _
    (maxToRead_lt (s.w.bindings b).pktSize)
  rw [MmbiLink.read, MmbiLink.readFile, hread, h.bindings]

/-- **A poll.** The bytes read become a packet for `mctp_bus_rx`, if there is a buffer for them. -/
theorem LinkHolds.poll_eq (h : LinkHolds d b binding q s) (hheader : binding.pktHeader = 0)
    (hread : s.read d b ≠ []) :
    ((s.read d b).length ≤ binding.storageSize ∧ pktAlloc s.w.nPktAlloc = true →
        ∃ pkt, pkt.bytes = s.read d b ∧ pkt.start = pkt.mctpHdrOff ∧
          mctpMmbiPoll (pollEnv d msgAlloc pktAlloc) (driverPort d.rev) s.w b
            = (mctpBusRx (pollEnv d msgAlloc pktAlloc) (s.afterRead d b).pktAlloced b pkt, 0)) ∧
      (¬ ((s.read d b).length ≤ binding.storageSize ∧ pktAlloc s.w.nPktAlloc = true) →
        (mctpMmbiPoll (pollEnv d msgAlloc pktAlloc) (driverPort d.rev) s.w b).2 = -enomem) := by
  have hbindings : (s.afterRead d b).bindings b = binding := h.bindings
  have hpoll : mmbiPollPacket (pollEnv d msgAlloc pktAlloc) (driverPort d.rev) s.w b
      = mmbiFill (pollEnv d msgAlloc pktAlloc) (s.afterRead d b) b (s.read d b) := by
    obtain ⟨dev, hfile, -⟩ := h.driver.peer_readFile (by decide) _
      (maxToRead_lt (s.w.bindings b).pktSize)
    have hpeek : ((driverPort d.rev).peekNamedPipe s.w.dev.2).getD 1 ≠ 0 := Nat.one_ne_zero
    unfold mmbiPollPacket MmbiLink.afterRead MmbiLink.read MmbiLink.readFile
    dsimp only
    rw [h.handle, hfile, if_neg hpeek]
    rfl
  constructor
  · rintro ⟨hlen, halloc⟩
    obtain ⟨pkt, hfill, hbytes, hstart⟩ := mmbiFill_packet (pollEnv d msgAlloc pktAlloc)
      (w := s.afterRead d b) (b := b) hread
      (by rw [hbindings, hheader]) (by rw [hbindings]; exact hlen) halloc
    refine ⟨pkt, hbytes, hstart, ?_⟩
    rw [mctpMmbiPoll, hpoll, hfill]
  · intro hrefused
    have hfill := mmbiFill_refused (pollEnv d msgAlloc pktAlloc)
      (w := s.afterRead d b) (b := b) hread (by rw [hbindings]; exact hrefused)
    rw [mctpMmbiPoll, hpoll]
    revert hfill
    cases mmbiFill (pollEnv d msgAlloc pktAlloc) (s.afterRead d b) b (s.read d b) with
    | mk w' outcome =>
        rintro rfl
        rfl

theorem LinkHolds.poll_idle (h : LinkHolds d b binding q s) (hread : s.read d b = []) :
    (mctpMmbiPoll (pollEnv d msgAlloc pktAlloc) (driverPort d.rev) s.w b).2 = 0 := by
  obtain ⟨dev, hpoll, -⟩ := mmbiPollPacket_driver (b := b) (pollEnv d msgAlloc pktAlloc)
    h.handle h.driver
  rw [h.bindings, ← h.read_eq, hread] at hpoll
  rw [mctpMmbiPoll, hpoll]
  rfl

theorem LinkHolds.poll (h : LinkHolds d b binding q s)
    (hone : Records.OneRead (maxToRead binding.pktSize) q) :
    LinkHolds d b binding (Records.rest (maxToRead binding.pktSize) q)
      (mmbiStep msgAlloc pktAlloc d b s .poll) := by
  obtain ⟨hbindings, hhandle, hdriver⟩ := mctpMmbiPoll_driver msgAlloc pktAlloc
    (b := b) h.handle h.driver
  rw [h.bindings, Records.drop_flatten q hone] at hdriver
  have hne : ∀ r ∈ q, r ≠ [] := fun r hr => (h.lengths r hr).1
  have hwritten : (mmbiStep msgAlloc pktAlloc d b s .poll).reads ++ Records.rest (maxToRead
      binding.pktSize) q = s.written := by
    rw [← h.written, mmbiStep]
    dsimp only
    rw [h.read_eq]
    split
    · rename_i hnil
      rw [Records.rest_of_take_nil hne hnil]
    · rename_i hnil
      rw [List.append_assoc, List.singleton_append, Records.take_cons_rest hne hone hnil]
  exact ⟨(congrFun hbindings b).trans h.bindings, hhandle, h.peer, hdriver, hwritten,
    fun r hr => h.lengths r (Records.mem_of_mem_rest hr)⟩

theorem LinkHolds.hasBuffer_iff (h : LinkHolds d b binding q s) :
    s.HasBuffer pktAlloc d b .poll ↔ (s.read d b ≠ [] → pktAlloc s.w.nPktAlloc = true) := by
  obtain ⟨ctx, hctx, -, hcontent⟩ := h.driver
  have hqueued : s.read d b ≠ [] ↔
      0 < (ctx.ring d).dataAvailable ∧ 0 < maxToRead (s.w.bindings b).pktSize := by
    rw [h.read_eq, h.bindings, ← content_length, hcontent, Ne, List.take_eq_nil_iff, not_or,
      List.length_pos_iff, Nat.pos_iff_ne_zero, and_comm]
  rw [hqueued]
  constructor
  · rintro hbuffer ⟨hdata, hmax⟩
    exact hbuffer ctx hctx hdata hmax
  · intro hbuffer ctx' hctx' hdata hmax
    rw [hctx] at hctx'
    rw [← Option.some.inj hctx'] at hdata
    exact hbuffer ⟨hdata, hmax⟩

/-- **One poll.** It keeps the boundaries exactly where it finds at most one packet, and a buffer
for it. -/
theorem LinkHolds.framed_poll_iff (h : LinkHolds d b binding q s)
    (hheader : binding.pktHeader = 0) :
    s.Framed msgAlloc pktAlloc d b .poll ↔
      Records.OneRead (maxToRead binding.pktSize) q ∧ s.HasBuffer pktAlloc d b .poll := by
  have hne : ∀ r ∈ q, r ≠ [] := fun r hr => (h.lengths r hr).1
  have hnext : s.written[s.reads.length]? = q.head? := by
    rw [← h.written, List.getElem?_append_right le_rfl, Nat.sub_self, List.head?_eq_getElem?]
  rw [h.hasBuffer_iff]
  constructor
  · rintro ⟨hrc, hpasses⟩
    refine ⟨Records.oneRead_of_take hne fun hread => ?_, fun hread => ?_⟩
    · rw [← h.read_eq] at hread ⊢
      obtain ⟨pkt, hpkt, hbytes, -⟩ := hpasses hread
      rw [hnext, hbytes] at hpkt
      obtain ⟨rest, rfl⟩ := List.head?_eq_some_iff.mp hpkt
      exact ⟨rest, rfl⟩
    · by_contra halloc
      exact hrc ((h.poll_eq msgAlloc pktAlloc hheader hread).2 fun hboth => halloc hboth.2)
  · rintro ⟨hone, hbuffer⟩
    by_cases hread : s.read d b = []
    · refine ⟨?_, fun hsome => absurd hread hsome⟩
      rw [h.poll_idle msgAlloc pktAlloc hread]
      decide
    · have hcons : s.read d b :: Records.rest (maxToRead binding.pktSize) q = q := by
        rw [h.read_eq] at hread ⊢
        exact Records.take_cons_rest hne hone hread
      have hlen : (s.read d b).length ≤ binding.storageSize :=
        (h.lengths _ (hcons ▸ List.mem_cons_self)).2
      obtain ⟨pkt, hbytes, hstart, hpoll⟩ := (h.poll_eq msgAlloc pktAlloc hheader hread).1
        ⟨hlen, hbuffer hread⟩
      refine ⟨?_, fun _ => ⟨pkt, ?_, hbytes, hstart, hpoll⟩⟩
      · rw [hpoll]
        exact (by decide : (0 : Int) ≠ -enomem)
      · rw [hnext, ← hcons, hbytes]
        rfl

/-- There always is room where all the packets fit the ring together. -/
theorem hasRoom_of_total (ops : List MmbiOp) (content : List UInt8)
    (hpos : ∀ pkt, .write pkt ∈ ops → 0 < mctpPktbufSize pkt)
    (htotal : content.length + (ops.filterMap MmbiOp.record).flatten.length ≤ ringBufferSize)
    (hhandle : s.w.dev.1.deviceHandle = true) (hpeer : s.peer.deviceHandle = true)
    (hdriver : DriverHolds d content s.w.dev.2) :
    Run.Each (mmbiStep msgAlloc pktAlloc d b) (MmbiLink.HasRoom d) s ops := by
  induction ops generalizing s content with
  | nil => trivial
  | cons op ops ih =>
      have hrest : ∀ pkt, .write pkt ∈ ops → 0 < mctpPktbufSize pkt :=
        fun pkt hpkt => hpos pkt (List.mem_cons_of_mem _ hpkt)
      cases op with
      | write pkt =>
          have htotal' :
            content.length + (mctpPktbufSize pkt + (ops.filterMap MmbiOp.record).flatten.length)
              ≤ ringBufferSize := by
            simpa [MmbiOp.record] using htotal
          constructor
          · intro ctx hctx
            obtain ⟨ctx', hctx', -, hcontent⟩ := hdriver
            rw [Option.some.inj (hctx.symm.trans hctx'), ← content_length, hcontent]
            omega
          · obtain ⟨dev, htx, hholds⟩ :=
              hdriver.tx (by decide) hpeer pkt (hpos pkt List.mem_cons_self) (by omega)
            refine ih (content ++ pkt.bytes) hrest ?_ ?_ ?_ ?_
            · rw [List.length_append, pkt.length_bytes]
              omega
            all_goals rw [mmbiStep, htx]
            · exact hhandle
            · exact hpeer
            · exact hholds
      | poll =>
          refine ⟨trivial, ?_⟩
          obtain ⟨-, hhandle', hdriver'⟩ := mctpMmbiPoll_driver msgAlloc pktAlloc
            (b := b) hhandle hdriver
          refine ih _ hrest ?_ hhandle' hpeer hdriver'
          have htotal' :
              content.length + (ops.filterMap MmbiOp.record).flatten.length ≤ ringBufferSize :=
              htotal
          rw [List.length_drop]
          omega

theorem LinkHolds.framed_iff (hheader : binding.pktHeader = 0) (ops : List MmbiOp)
    (hops : ∀ pkt, .write pkt ∈ ops → 0 < mctpPktbufSize pkt ∧
      mctpPktbufSize pkt ≤ binding.storageSize)
    (h : LinkHolds d b binding q s)
    (hroom : Run.Each (mmbiStep msgAlloc pktAlloc d b) (MmbiLink.HasRoom d) s ops) :
    Run.Each (mmbiStep msgAlloc pktAlloc d b) (MmbiLink.Framed msgAlloc pktAlloc d b) s ops ↔
      Records.EachOne (maxToRead binding.pktSize) q (ops.map MmbiOp.record) ∧
        Run.Each (mmbiStep msgAlloc pktAlloc d b) (MmbiLink.HasBuffer pktAlloc d b) s ops := by
  induction ops generalizing q s with
  | nil => exact ⟨fun _ => ⟨trivial, trivial⟩, fun _ => trivial⟩
  | cons op ops ih =>
      have hrest : ∀ pkt, .write pkt ∈ ops → 0 < mctpPktbufSize pkt ∧
          mctpPktbufSize pkt ≤ binding.storageSize :=
        fun pkt hpkt => hops pkt (List.mem_cons_of_mem _ hpkt)
      cases op with
      | write pkt =>
          obtain ⟨hpos, hlen⟩ := hops pkt List.mem_cons_self
          have hiff := ih hrest (h.write msgAlloc pktAlloc hpos hlen hroom.1) hroom.2
          constructor
          · rintro ⟨-, hall⟩
            obtain ⟨heach, hbuffers⟩ := hiff.mp hall
            exact ⟨heach, trivial, hbuffers⟩
          · rintro ⟨heach, -, hbuffers⟩
            exact ⟨trivial, hiff.mpr ⟨heach, hbuffers⟩⟩
      | poll =>
          have hpoll := h.framed_poll_iff msgAlloc pktAlloc hheader
          constructor
          · rintro ⟨hframed, hall⟩
            obtain ⟨hone, hbuffer⟩ := hpoll.mp hframed
            obtain ⟨heach, hbuffers⟩ := (ih hrest (h.poll msgAlloc pktAlloc hone) hroom.2).mp hall
            exact ⟨⟨hone, heach⟩, hbuffer, hbuffers⟩
          · rintro ⟨⟨hone, heach⟩, hbuffer, hbuffers⟩
            exact ⟨hpoll.mpr ⟨hone, hbuffer⟩,
              (ih hrest (h.poll msgAlloc pktAlloc hone) hroom.2).mpr ⟨heach, hbuffers⟩⟩

theorem driverHolds_globalContext (d : Fin 2) :
    DriverHolds d [] (some (globalContext ringBufferSize)) := by
  have hring : ∀ e : Fin 2, (globalContext ringBufferSize).ring e = ⟨fun _ => 0, 0, 0, 0⟩ := by
    intro e
    unfold MmbiSharedContext.ring globalContext
    split <;> rfl
  refine ⟨_, rfl, fun e => ?_, ?_⟩
  · rw [hring]
    exact ⟨by decide, by decide, Nat.zero_le _, (Nat.zero_mod _).symm⟩
  · rw [hring]
    rfl

theorem FreshLink.storageSize (h : FreshLink b s) :
    (s.w.bindings b).storageSize = (s.w.bindings b).pktSize := by
  rw [MctpBinding.storageSize, h.header, h.trailer]
  rfl

theorem FreshLink.holds (h : FreshLink b s) (d : Fin 2) : LinkHolds d b (s.w.bindings b) [] s := by
  refine ⟨rfl, h.handle, h.peer, h.driver ▸ driverHolds_globalContext d, ?_, fun r hr =>
    absurd hr List.not_mem_nil⟩
  rw [h.reads, h.written]
  rfl

end Run

/-- **When packets keep their boundaries.** Along a run of sends on one device and polls on the
other, every poll that reads anything gives `mctp_bus_rx` the next packet, whole and alone, and none
fails for want of a buffer, exactly when at each poll the heap has a buffer if a packet is queued,
and the packets queued leave the read at most one of them: none is queued, or one that is shorter
than the read with no other behind it, or the first is as long as the read. -/
theorem mmbiRun_framed_iff (msgAlloc pktAlloc : Nat → Bool) (d : Fin 2) (b : Nat) (s : MmbiLink)
    (hfresh : FreshLink b s) (ops : List MmbiOp)
    (hops : ∀ pkt, .write pkt ∈ ops → 4 ≤ mctpPktbufSize pkt ∧
      mctpPktbufSize pkt ≤ (s.w.bindings b).pktSize)
    (hroom : Run.Each (mmbiStep msgAlloc pktAlloc d b) (MmbiLink.HasRoom d) s ops) :
    Run.Each (mmbiStep msgAlloc pktAlloc d b) (MmbiLink.Framed msgAlloc pktAlloc d b) s ops ↔
      Records.EachOne (maxToRead (s.w.bindings b).pktSize) [] (ops.map MmbiOp.record) ∧
        Run.Each (mmbiStep msgAlloc pktAlloc d b) (MmbiLink.HasBuffer pktAlloc d b) s ops := by
  refine (hfresh.holds d).framed_iff msgAlloc pktAlloc hfresh.header ops (fun pkt hpkt => ?_) hroom
  obtain ⟨hlow, hhigh⟩ := hops pkt hpkt
  rw [hfresh.storageSize]
  exact ⟨by omega, hhigh⟩

/-- A packet of five bytes from EID 8 to EID 9. -/
def fiveBytes (payload : UInt8) : MctpPktbuf := ⟨0, 5, 68, 0, false, [1, 9, 8, 0xc8, payload]⟩

/-- EID 9 as it registers an MMBI binding on device 1 of the driver. -/
def nineLink : MmbiLink where
  w := (mctpRegisterBus (pollEnv 0 (fun _ => true) (fun _ => true))
    (mctpSetup (fun _ => (mctpMmbiInitDevice mctpMmbiInit {} true true).1) 0
      ((mctpMmbiInitDevice mctpMmbiInit {} true true).2.1, some (globalContext ringBufferSize)))
      0 9).1
  peer := (mctpMmbiInitDevice mctpMmbiInit {} true true).2.1

theorem nineLink_fresh : FreshLink 0 nineLink := ⟨rfl, rfl, rfl, rfl, rfl, rfl, rfl⟩

theorem fiveBytes_fits (ops : List MmbiOp)
    (h : ∀ pkt, .write pkt ∈ ops → pkt = fiveBytes 1 ∨ pkt = fiveBytes 2) :
    ∀ pkt, .write pkt ∈ ops → 4 ≤ mctpPktbufSize pkt ∧
      mctpPktbufSize pkt ≤ (nineLink.w.bindings 0).pktSize := by
  intro pkt hpkt
  rcases h pkt hpkt with rfl | rfl
  · decide
  · decide

theorem nineLink_hasRoom {ops : List MmbiOp}
    (hfits : ∀ pkt, .write pkt ∈ ops → 4 ≤ mctpPktbufSize pkt ∧
      mctpPktbufSize pkt ≤ (nineLink.w.bindings 0).pktSize)
    (htotal : (ops.filterMap MmbiOp.record).flatten.length ≤ ringBufferSize) :
    Run.Each (mmbiStep (fun _ => true) (fun _ => true) 0 0) (MmbiLink.HasRoom 0) nineLink ops := by
  apply hasRoom_of_total _ _ ops [] _ _ rfl rfl (nineLink_fresh.holds 0).driver
  · exact fun pkt hpkt => Nat.lt_of_lt_of_le (by decide) (hfits pkt hpkt).1
  · rwa [List.length_nil, Nat.zero_add]

theorem mmbiRun_framed_iff_one_each :
    maxToRead (nineLink.w.bindings 0).pktSize = 65544 ∧
      Run.Each (mmbiStep (fun _ => true) (fun _ => true) 0 0)
        (MmbiLink.Framed (fun _ => true) (fun _ => true) 0 0) nineLink
        [.write (fiveBytes 1), .poll, .write (fiveBytes 2), .poll, .poll] := by
  have hfits := fiveBytes_fits [.write (fiveBytes 1), .poll, .write (fiveBytes 2), .poll, .poll]
    (by simp)
  refine ⟨by decide, (mmbiRun_framed_iff _ _ 0 0 nineLink nineLink_fresh _ hfits
    (nineLink_hasRoom hfits (by decide))).mpr ?_⟩
  refine ⟨⟨.inr (.inr ⟨by decide, rfl⟩), .inr (.inr ⟨by decide, rfl⟩), trivial, trivial⟩, ?_⟩
  exact ⟨trivial, fun _ _ _ _ => rfl, trivial, fun _ _ _ _ => rfl, fun _ _ _ _ => rfl, trivial⟩

/-- Two packets sent before the first poll: the poll reads both as one. -/
theorem mmbiRun_merges :
    (∀ pkt, .write pkt ∈ [MmbiOp.write (fiveBytes 1), .write (fiveBytes 2), .poll] →
      4 ≤ mctpPktbufSize pkt ∧ mctpPktbufSize pkt ≤ (nineLink.w.bindings 0).pktSize) ∧
    Run.Each (mmbiStep (fun _ => true) (fun _ => true) 0 0) (MmbiLink.HasRoom 0) nineLink
      [.write (fiveBytes 1), .write (fiveBytes 2), .poll] ∧
    ¬ Run.Each (mmbiStep (fun _ => true) (fun _ => true) 0 0)
      (MmbiLink.Framed (fun _ => true) (fun _ => true) 0 0) nineLink
      [.write (fiveBytes 1), .write (fiveBytes 2), .poll] := by
  have hfits := fiveBytes_fits [.write (fiveBytes 1), .write (fiveBytes 2), .poll] (by simp)
  have hroom := nineLink_hasRoom hfits (by decide)
  have hstorage := nineLink_fresh.storageSize
  refine ⟨hfits, hroom, fun hall => ?_⟩
  obtain ⟨⟨hone, -⟩, -⟩ := ((nineLink_fresh.holds 0).framed_iff _ _ rfl _
    (fun pkt hpkt =>
      ⟨Nat.lt_of_lt_of_le (by decide) (hfits pkt hpkt).1, hstorage ▸ (hfits pkt hpkt).2⟩)
      hroom).mp hall
  rcases hone with hzero | hlen | ⟨-, hnone⟩
  · exact absurd hzero (by decide)
  · exact absurd hlen (by decide)
  · cases hnone

end LibMctp
