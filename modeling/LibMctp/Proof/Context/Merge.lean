import LibMctp.Lib.Batches
import LibMctp.Proof.Context.Deliver

/-!
# Two transports on the driver

Two transports on the two devices of the driver send each other messages of one packet each, and
poll. The driver keeps a stream of bytes, so a poll takes all that was sent since the poll before
it, and takes it for one packet: the callback is given the first of these messages with the packets
behind it at its end, headers and all. Where an end sends only after the other has polled for what
it sent last, each message comes as it was sent.
-/

namespace LibMctp

open Fragment Reassembly

/-! ### Packets that are read together -/

def packetSize (m : UInt8 × List UInt8) : Nat := mctpHdrSize + m.2.length

/-- The packet of a message and its number. -/
def onePacket (eid : UInt8) (x : (UInt8 × List UInt8) × Nat) : MctpPktbuf :=
  fragPkt transportBinding (transportMsg eid x.1).label ⟨true, true, x.2 % 4, x.1.2⟩

/-- The packets of messages, one after the other. -/
def packetBytes (eid : UInt8) (xs : List ((UInt8 × List UInt8) × Nat)) : List UInt8 :=
  (xs.map fun x => (onePacket eid x).bytes).flatten

/-- The message that messages read together are taken for. -/
def merge (eid : UInt8) : List ((UInt8 × List UInt8) × Nat) → Option ((UInt8 × List UInt8) × Nat)
  | [] => none
  | x :: rest => some ((x.1.1, x.1.2 ++ packetBytes eid rest), x.2)

section Packet

variable {eid : UInt8} {x : (UInt8 × List UInt8) × Nat}
  {xs rest : List ((UInt8 × List UInt8) × Nat)}

theorem packetBytes_cons :
    packetBytes eid (x :: xs) = (onePacket eid x).bytes ++ packetBytes eid xs := rfl

theorem packetBytes_concat :
    packetBytes eid (xs ++ [x]) = packetBytes eid xs ++ (onePacket eid x).bytes := by
  simp [packetBytes]

variable (eid) in
theorem onePacket_flat (h : packetSize x.1 ≤ 65540) :
    (onePacket eid x).Flat ∧ (onePacket eid x).data ≠ [] ∧
      (onePacket eid x).data.length = packetSize x.1 := by
  have hlen : x.1.2.length ≤ 65536 := by
    unfold packetSize mctpHdrSize at h
    omega
  obtain ⟨hflat, hne, -⟩ := fragPkt_transport (l := (transportMsg eid x.1).label)
    (f := ⟨true, true, x.2 % 4, x.1.2⟩) hlen
  refine ⟨hflat, hne, ?_⟩
  rw [onePacket, ← hflat.end_, packetSize]
  dsimp only [fragPkt]
  rw [show transportBinding.pktHeader = 0 from rfl, Nat.zero_add]

variable (eid) in
theorem length_packetBytes (h : ∀ x ∈ xs, packetSize x.1 ≤ 65540) :
    (packetBytes eid xs).length = Batches.load packetSize xs := by
  induction xs with
  | nil => rfl
  | cons x xs ih =>
      obtain ⟨hflat, -, hlen⟩ := onePacket_flat eid (h x List.mem_cons_self)
      have hxs := ih fun y hy => h y (List.mem_cons_of_mem _ hy)
      rw [packetBytes_cons, List.length_append, hflat.bytes_eq, hlen, Batches.load_cons, hxs]

theorem packetSize_of_load (h : Batches.load packetSize xs ≤ 65540) :
    ∀ x ∈ xs, packetSize x.1 ≤ 65540 := by
  intro x hx
  obtain ⟨before, after, rfl⟩ := List.append_of_mem hx
  rw [Batches.load_append, Batches.load_cons] at h
  omega

variable (eid) in
/-- **The packets are the packet of the one message.** -/
theorem bytes_onePacket_merge (h : Batches.load packetSize (x :: rest) ≤ 65540) :
    packetSize (x.1.1, x.1.2 ++ packetBytes eid rest) = Batches.load packetSize (x :: rest) ∧
      (onePacket eid ((x.1.1, x.1.2 ++ packetBytes eid rest), x.2)).bytes
        = packetBytes eid (x :: rest) := by
  have hall := packetSize_of_load h
  have hsize : packetSize (x.1.1, x.1.2 ++ packetBytes eid rest)
      = Batches.load packetSize (x :: rest) := by
    rw [Batches.load_cons, ← length_packetBytes eid fun y hy => hall y (List.mem_cons_of_mem _ hy)]
    unfold packetSize
    dsimp only
    rw [List.length_append, Nat.add_assoc]
  refine ⟨hsize, ?_⟩
  obtain ⟨hflat, -, -⟩ := onePacket_flat eid (hall x List.mem_cons_self)
  obtain ⟨hflat', -, -⟩ := onePacket_flat eid (x := ((x.1.1, x.1.2 ++ packetBytes eid rest), x.2))
    (hsize.trans_le h)
  rw [hflat'.bytes_eq, packetBytes_cons, hflat.bytes_eq]
  exact (List.append_assoc _ _ _).symm

theorem pktItem_onePacket (h : packetSize x.1 ≤ 65540) :
    pktItem (onePacket eid x) = ((transportMsg eid x.1).label, ⟨true, true, x.2 % 4, x.1.2⟩) := by
  apply pktItem_fragPkt
  · exact Nat.zero_lt_succ 7
  · exact Nat.mod_lt _ (by decide)
  · unfold packetSize mctpHdrSize at h
    rw [show transportBinding.pktHeader = 0 from rfl, mctpHdrSize]
    dsimp only
    omega

theorem pktTaken_onePacket (heid : eid ≠ mctpEidBroadcast) (h : packetSize x.1 ≤ 65540)
    (eid' : UInt8) :
    pktTaken eid' (onePacket eid x) = mctpRxDestIsLocal { eid := eid' } x.1.1 := by
  obtain ⟨hflat, -, hlen⟩ := onePacket_flat eid h
  have hsize : mctpHdrSize ≤ mctpPktbufSize (onePacket eid x) := by
    rw [hflat.size_eq, hlen]
    exact Nat.le_add_right _ _
  have hhdr : (mctpPktbufHdr (onePacket eid x)).src = eid ∧
      (mctpPktbufHdr (onePacket eid x)).dest = x.1.1 := by
    rw [onePacket, mctpPktbufHdr_fragPkt]
    exact ⟨rfl, rfl⟩
  simp [pktTaken, hhdr, hsize, heid]

theorem received_onePackets (heid : eid ≠ mctpEidBroadcast) (eid' : UInt8)
    (h : ∀ x ∈ xs, packetSize x.1 ≤ 65540) :
    received eid' (xs.map (onePacket eid))
      = ⟨fun _ => none, (xs.filter fun x => mctpRxDestIsLocal { eid := eid' } x.1.1).map fun x =>
          ((transportMsg eid x.1).label, x.1.2)⟩ := by
  induction xs using List.reverseRecOn with
  | nil => rfl
  | append_singleton xs x ih =>
      have hx : packetSize x.1 ≤ 65540 := h x (by simp)
      rw [List.map_append, List.map_singleton, received_concat, ih fun y hy =>
        h y (List.mem_append_left _ hy),
        pktTaken_onePacket heid hx, pktItem_onePacket hx, List.filter_append, List.map_append]
      cases hlocal : mctpRxDestIsLocal { eid := eid' } x.1.1 with
      | false => simp [hlocal]
      | true =>
          dsimp only [machine, step]
          simp [hlocal]

end Packet

/-! ### The handles -/

/-- The device of end `i`. -/
def endDevice (i : Bool) : Fin 2 := if i then 1 else 0

theorem endDevice_not (i : Bool) : endDevice (!i) = (endDevice i).rev := by
  cases i <;> decide

def driverHandle (i : Bool) : MmbiPort DriverState := driverPort (endDevice i)

/-- The driver is up, and `content i` is what end `i` wrote and the other has not read. -/
def DriverHeld (content : Bool → List UInt8) (dev : DriverState) : Prop :=
  ∀ i, DriverHolds (endDevice i) (content i) dev

section Handle

variable {content : Bool → List UInt8} {dev : DriverState}

theorem driverHeld_update (i : Bool) {bytes : List UInt8}
    (hself : DriverHolds (endDevice i) bytes dev)
    (hother : DriverHolds (endDevice !i) (content !i) dev) :
    DriverHeld (Function.update content i bytes) dev := by
  intro k
  by_cases hk : k = i
  · subst hk
    rw [Function.update_self]
    exact hself
  · rw [Function.update_of_ne hk, Bool.eq_not_of_ne hk]
    exact hother

theorem DriverHeld.tx (h : DriverHeld content dev) (i : Bool) {mmbi : MctpBindingMmbi}
    (hhandle : mmbi.deviceHandle = true) {pkt : MctpPktbuf} (hflat : pkt.Flat) (hne : pkt.data ≠ [])
    (hroom : (content i).length + pkt.data.length ≤ ringBufferSize) (b : Nat) :
    ∃ dev', (pipeEnv driverHandle i).tx b (mmbi, dev) pkt = ((mmbi, dev'), ⟨0, false⟩) ∧
      DriverHeld (Function.update content i (content i ++ pkt.bytes)) dev' := by
  have hpos := List.length_pos_of_ne_nil hne
  obtain ⟨dev', htx, hself⟩ := (h i).tx (by decide) hhandle pkt (by rw [hflat.size_eq]; exact hpos)
    (by rw [hflat.size_eq]; exact hroom)
  obtain ⟨-, hother⟩ := (h !i).peer_tx (by decide) hhandle pkt
  rw [endDevice_not, Fin.rev_rev, htx, ← endDevice_not] at hother
  refine ⟨dev', ?_, driverHeld_update i hself hother⟩
  dsimp only [pipeEnv, mmbiEnv, driverHandle]
  rw [htx]

theorem DriverHeld.readFile (h : DriverHeld content dev) (i : Bool) (n : Nat) (hn : n < 2 ^ 32) :
    ∃ dev', (driverHandle i).readFile dev n = (dev', .ok ((content !i).take n)) ∧
      DriverHeld (Function.update content (!i) ((content !i).drop n)) dev' := by
  obtain ⟨dev', hread, hself⟩ := (h !i).peer_readFile (by decide) n hn
  have hother := (h i).readFile (by decide) n hn
  rw [endDevice_not, Fin.rev_rev] at hread
  rw [hread] at hother
  refine ⟨dev', hread, driverHeld_update (!i) hself ?_⟩
  rw [Bool.not_not]
  exact hother

end Handle

/-- **Polling when nothing was sent.** The read returns no byte. -/
theorem TransportInv.poll_none {π : Type} {port : Bool → MmbiPort π} {i : Bool} {eid : UInt8}
    {cb : Nat} {accepted : List Message} {got : List MctpPktbuf} {ctx : MctpMmbiContext π}
    (h : TransportInv eid cb accepted got ctx) {p' : π}
    (hpeek : ((port i).peekNamedPipe ctx.mctp.dev.2).getD 1 ≠ 0)
    (hfile : (port i).readFile ctx.mctp.dev.2 65544 = (p', .ok [])) :
    mctpMmbiContextPoll (pipeEnv port i) (port i) ctx = (ctx.onDevice p', 0) := by
  have hread : maxToRead (ctx.mctp.bindings 0).pktSize = 65544 := by
    rw [h.linked.eq]
    decide
  have hpacket : mmbiPollPacket (pipeEnv port i) (port i) ctx.mctp 0
      = ((ctx.onDevice p').mctp, .idle 0) := by
    unfold mmbiPollPacket
    dsimp only
    rw [if_neg (by rw [h.handle]; decide), if_neg hpeek, hread, hfile]
    rfl
  unfold mctpMmbiContextPoll mctpMmbiPoll
  rw [hpacket]
  dsimp only
  rw [show (ctx.onDevice p').mctp.hist.upcalls = ctx.mctp.hist.upcalls from rfl, List.drop_length]
  rfl

/-! ### What goes over the driver -/

/-- What a call is to the packets of end `i`. -/
def TransportOp.toward (i : Bool) : TransportOp → Option (Batches.Op (UInt8 × List UInt8))
  | .send j dstEid data => if j = i then some (.put (dstEid, data)) else none
  | .poll j => if j = i then none else some .take

/-- The messages of end `i`: those on the driver, and those the other end read, poll by poll. -/
def traffic (ops : List TransportOp) (i : Bool) : Batches.State (UInt8 × List UInt8) :=
  Batches.run (ops.filterMap (TransportOp.toward i))

/-- What the messages read came as. -/
def arrived (eid : UInt8) (s : Batches.State (UInt8 × List UInt8)) :
    List ((UInt8 × List UInt8) × Nat) := s.batches.filterMap (merge eid)

section Traffic

variable {ops : List TransportOp} {i : Bool}

theorem given_toward (ops : List TransportOp) (i : Bool) :
    (ops.filterMap (TransportOp.toward i)).filterMap Batches.Op.given
      = ops.filterMap (TransportOp.sent i) := by
  rw [List.filterMap_filterMap]
  congr 1
  funext op
  cases op with
  | send j dstEid data =>
      by_cases hj : j = i
      · simp [TransportOp.toward, TransportOp.sent, Batches.Op.given, hj]
      · simp [TransportOp.toward, TransportOp.sent, hj]
  | poll j =>
      by_cases hj : j = i
      · simp [TransportOp.toward, TransportOp.sent, hj]
      · simp [TransportOp.toward, TransportOp.sent, Batches.Op.given, hj]

theorem traffic_concat (ops : List TransportOp) (op : TransportOp) (i : Bool) :
    traffic (ops ++ [op]) i
      = ((op.toward i).map (Batches.step (traffic ops i))).getD (traffic ops i) := by
  unfold traffic
  rw [List.filterMap_append]
  cases hop : op.toward i with
  | none => simp [hop]
  | some o =>
      rw [show [op].filterMap (TransportOp.toward i) = [o] by simp [hop], Batches.run_concat]
      rfl

theorem traffic_send (ops : List TransportOp) (i : Bool) (dstEid : UInt8) (data : List UInt8) :
    traffic (ops ++ [.send i dstEid data]) i
      = Batches.step (traffic ops i) (.put (dstEid, data)) := by
  rw [traffic_concat]
  simp [TransportOp.toward]

theorem traffic_send_other (ops : List TransportOp) (i : Bool) (dstEid : UInt8)
    (data : List UInt8) :
    traffic (ops ++ [.send i dstEid data]) (!i) = traffic ops !i := by
  rw [traffic_concat]
  simp [TransportOp.toward]

theorem traffic_poll (ops : List TransportOp) (i : Bool) :
    traffic (ops ++ [.poll i]) (!i) = Batches.step (traffic ops !i) .take := by
  rw [traffic_concat]
  simp [TransportOp.toward]

theorem traffic_poll_other (ops : List TransportOp) (i : Bool) :
    traffic (ops ++ [.poll i]) i = traffic ops i := by
  rw [traffic_concat]
  simp [TransportOp.toward]

theorem arrived_send (eid : UInt8) (ops : List TransportOp) (i k : Bool) (dstEid : UInt8)
    (data : List UInt8) :
    arrived eid (traffic (ops ++ [.send i dstEid data]) k) = arrived eid (traffic ops k) := by
  by_cases hk : k = i
  · rw [hk, traffic_send]
    rfl
  · rw [Bool.eq_not_of_ne hk, traffic_send_other]

end Traffic

/-! ### Runs -/

theorem length_msgPackets_of_short (eid : UInt8) {sends : List (UInt8 × List UInt8)}
    (h : ∀ m ∈ sends, m.2.length ≤ 65536) :
    (msgPackets transportBinding 0 (transportMsgs eid sends)).length = sends.length := by
  induction sends using List.reverseRecOn with
  | nil => rfl
  | append_singleton sends m ih =>
      have hm : m.2.length ≤ transportBinding.chunk :=
        (h m (by simp)).trans_eq transportBinding_chunk.symm
      rw [show transportMsgs eid (sends ++ [m])
        = transportMsgs eid sends ++ [transportMsg eid m] from List.map_append,
        msgPackets_next, List.length_append, ih fun m' hm' =>
        h m' (List.mem_append_left _ hm'), nextPackets,
        cut_of_le (show (transportMsg eid m).bytes.length ≤ _ from hm), List.length_append]
      rfl

/-- There never is more on the driver than one packet buffer takes. -/
def Within (ops : List TransportOp) : Prop :=
  ∀ i, Batches.Within packetSize 65540 (ops.filterMap (TransportOp.toward i))

instance (ops : List TransportOp) : Decidable (Within ops) :=
  inferInstanceAs
    (Decidable (∀ i, Batches.Within packetSize 65540 (ops.filterMap (TransportOp.toward i))))

/-- Where these calls lead: what waits is on the driver, and each end was given the packets that the
messages of the other came as. -/
structure DriverLinkInv (eid : Bool → UInt8) (cb : Bool → Nat) (ops : List TransportOp)
    (l : TransportLink DriverState) : Prop where
  held : DriverHeld (fun i => packetBytes (eid i) (traffic ops i).waiting) l.pipe
  ends : ∀ i, TransportInv (eid i) (cb i)
    (transportMsgs (eid i) (ops.filterMap (TransportOp.sent i)))
    ((arrived (eid !i) (traffic ops !i)).map (onePacket (eid !i))) (l.ends i)

section Run

variable {eid : Bool → UInt8} {cb : Bool → Nat} {ops : List TransportOp}
  {l : TransportLink DriverState}

theorem Within.waiting (h : Within ops) (i : Bool) :
    Batches.load packetSize (traffic ops i).waiting ≤ 65540 := (h i).waiting

theorem Within.mono {pre : List TransportOp} (h : Within ops) (hpre : pre <+: ops) : Within pre :=
  fun i => (h i).mono (hpre.filterMap _)

theorem Within.sent (h : Within ops) (i : Bool) :
    ∀ m ∈ ops.filterMap (TransportOp.sent i), m.2.length ≤ 65536 := by
  intro m hm
  rw [← given_toward] at hm
  obtain ⟨op, hop, hgiven⟩ := List.mem_filterMap.mp hm
  cases op with
  | put x =>
      obtain rfl : x = m := Option.some.inj hgiven
      have hsize := (h i).put hop
      unfold packetSize mctpHdrSize at hsize
      omega
  | take => cases hgiven

theorem Within.count (h : Within ops) (eid : UInt8) (i : Bool) :
    (msgPackets transportBinding 0 (transportMsgs eid (ops.filterMap (TransportOp.sent i)))).length
      = (traffic ops i).count := by
  rw [length_msgPackets_of_short eid (h.sent i), traffic, Batches.count_run, given_toward]

theorem Within.arrived (h : Within ops) (eid : UInt8) (i : Bool) :
    ∀ x ∈ arrived eid (traffic ops i), packetSize x.1 ≤ 65540 := by
  intro x hx
  obtain ⟨batch, hbatch, hmerge⟩ := List.mem_filterMap.mp hx
  have hle := (h i).batch batch hbatch
  cases batch with
  | nil => cases hmerge
  | cons y rest =>
      obtain rfl := Option.some.inj hmerge
      exact (bytes_onePacket_merge eid hle).1.trans_le hle

/-- **A send** puts the packet of its message behind those that wait. -/
theorem DriverLinkInv.send (h : DriverLinkInv eid cb ops l) (i : Bool) (dstEid : UInt8)
    (data : List UInt8) (hwithin : Within (ops ++ [.send i dstEid data])) :
    DriverLinkInv eid cb (ops ++ [.send i dstEid data])
      (transportStep driverHandle l (.send i dstEid data)) := by
  have hbefore := hwithin.mono (List.prefix_append ops _)
  have hlen : data.length ≤ 65536 := hwithin.sent i (dstEid, data) (by simp [TransportOp.sent])
  have hsize : packetSize (dstEid, data) ≤ 65540 := by
    unfold packetSize mctpHdrSize
    dsimp only
    omega
  generalize hx : (((dstEid, data), (traffic ops i).count) : (UInt8 × List UInt8) × Nat) = x
  have hcut : cut 4 transportBinding.chunk true
      (msgPackets transportBinding 0
        (transportMsgs (eid i) (ops.filterMap (TransportOp.sent i)))).length data
      = [⟨true, true, x.2 % 4, x.1.2⟩] := by
    rw [hbefore.count, cut_of_le (hlen.trans_eq transportBinding_chunk.symm), ← hx]
  obtain ⟨hflat, hne, hdata⟩ := onePacket_flat (eid i) (x := x) (by rw [← hx]; exact hsize)
  have hroom : (packetBytes (eid i) (traffic ops i).waiting).length + (onePacket (eid i)
      x).data.length ≤ ringBufferSize := by
    have hload := hbefore.waiting i
    rw [length_packetBytes _ (packetSize_of_load hload), hdata, ← hx]
    exact (Nat.add_le_add hload hsize).trans (by decide)
  have hend := (h.ends i).onDevice l.pipe
  obtain ⟨dev', htx, hheld⟩ := h.held.tx i hend.handle hflat hne hroom 0
  -- the one packet is taken, and no other is left to send
  obtain ⟨w', hcall, hinv, hdev⟩ := hend.send_on driverHandle i (dstEid, data)
    (P := fun fs d => fs = [] ∨ d = ((l.ends i).mctp.dev.1, l.pipe))
    (by
      rw [hcut]
      intro f fs hfs d hd
      have hlast : fs = [] := by
        have hle := hfs.length_le
        rw [List.length_cons, List.length_singleton] at hle
        exact List.eq_nil_of_length_eq_zero (by omega)
      obtain rfl : f = ⟨true, true, x.2 % 4, x.1.2⟩ :=
        List.mem_singleton.mp (hfs.mem List.mem_cons_self)
      obtain rfl : d = ((l.ends i).mctp.dev.1, l.pipe) := hd.resolve_left (List.cons_ne_nil _ _)
      refine ⟨?_, .inl hlast⟩
      have hok := congrArg Prod.snd htx
      rw [onePacket, ← hx] at hok
      rw [← hx]
      exact hok)
    (.inr rfl)
  have hnext : nextPackets
    (msgPackets transportBinding 0
      (transportMsgs (eid i) (ops.filterMap (TransportOp.sent i)))).length
      (transportMsg (eid i) (dstEid, data)) = [onePacket (eid i) x] := by
    rw [nextPackets, show (transportMsg (eid i) (dstEid, data)).bytes = data from rfl,
      hcut, onePacket, ← hx]
    rfl
  have hdev' : w'.dev.2 = dev' := by
    rw [hdev, hnext]
    exact congrArg (fun r => r.1.2) htx
  have hstep : transportStep driverHandle l (.send i dstEid data)
      = ⟨dev', Function.update l.ends i { (l.ends i).onDevice l.pipe with mctp := w' }⟩ := by
    dsimp only [transportStep, mctpTransportSend, mctpMmbiSend]
    rw [hcall]
    dsimp only
    rw [hdev']
  rw [hstep]
  constructor
  · convert hheld using 1
    funext k
    by_cases hk : k = i
    · subst hk
      rw [Function.update_self, traffic_send, ← packetBytes_concat, ← hx]
      rfl
    · rw [Function.update_of_ne hk, Bool.eq_not_of_ne hk, traffic_send_other]
  · intro k
    rw [arrived_send]
    by_cases hk : k = i
    · subst hk
      show TransportInv _ _ _ _ (Function.update l.ends k _ k)
      rw [Function.update_self, List.filterMap_append]
      convert hinv using 1
      simp [TransportOp.sent, transportMsgs]
    · show TransportInv _ _ _ _ (Function.update l.ends i _ k)
      rw [Function.update_of_ne hk, List.filterMap_append]
      simpa [TransportOp.sent, Ne.symm hk] using h.ends k

theorem DriverLinkInv.polled (h : DriverLinkInv eid cb ops l) (i : Bool)
    {ctx' : MctpMmbiContext DriverState}
    (hpoll : mctpMmbiContextPoll (pipeEnv driverHandle i) (driverHandle i) ((l.ends i).onDevice
      l.pipe) = (ctx', 0))
    (hheld : DriverHeld (Function.update (fun k => packetBytes (eid k) (traffic ops k).waiting) (!i)
      []) ctx'.mctp.dev.2)
    (hend : TransportInv (eid i) (cb i) (transportMsgs (eid i) (ops.filterMap (TransportOp.sent i)))
      ((arrived (eid !i) (Batches.step (traffic ops !i) .take)).map (onePacket (eid !i))) ctx') :
    DriverLinkInv eid cb (ops ++ [.poll i]) (transportStep driverHandle l (.poll i)) := by
  have hstep : transportStep driverHandle l (.poll i)
      = ⟨ctx'.mctp.dev.2, Function.update l.ends i ctx'⟩ := by
    dsimp only [transportStep, mctpTransportPoll]
    rw [hpoll]
  have hsent : ∀ k, (ops ++ [TransportOp.poll i]).filterMap (TransportOp.sent k)
      = ops.filterMap (TransportOp.sent k) := by
    intro k
    simp [TransportOp.sent]
  rw [hstep]
  constructor
  · convert hheld using 1
    funext k
    by_cases hk : k = !i
    · subst hk
      rw [Function.update_self, traffic_poll, Batches.waiting_take]
      rfl
    · rw [Function.update_of_ne hk, show k = i by simpa using hk, traffic_poll_other]
  · intro k
    rw [hsent]
    by_cases hk : k = i
    · subst hk
      show TransportInv _ _ _ _ (Function.update l.ends k _ k)
      rw [Function.update_self, traffic_poll]
      exact hend
    · have hnot : (!k) = i := by rw [Bool.eq_not_of_ne hk, Bool.not_not]
      have hother := h.ends k
      show TransportInv _ _ _ _ (Function.update l.ends i _ k)
      rw [hnot] at hother
      rw [Function.update_of_ne hk, hnot, traffic_poll_other]
      exact hother

/-- **A poll** takes all that waits, as one packet. -/
theorem DriverLinkInv.poll (h : DriverLinkInv eid cb ops l) (heid : ∀ i, eid i ≠ mctpEidBroadcast)
    (i : Bool) (hwithin : Within ops) :
    DriverLinkInv eid cb (ops ++ [.poll i]) (transportStep driverHandle l (.poll i)) := by
  have hload := hwithin.waiting !i
  have hend := (h.ends i).onDevice l.pipe
  have hpeek :
      ((driverHandle i).peekNamedPipe ((l.ends i).onDevice l.pipe).mctp.dev.2).getD 1 ≠ 0 :=
      Nat.one_ne_zero
  obtain ⟨dev', hread, hheld⟩ := h.held.readFile i 65544 (by decide)
  have hlen : (packetBytes (eid !i) (traffic ops !i).waiting).length ≤ 65544 := by
    rw [length_packetBytes _ (packetSize_of_load hload)]
    omega
  rw [List.take_of_length_le hlen] at hread
  rw [List.drop_of_length_le hlen] at hheld
  cases hwaiting : (traffic ops !i).waiting with
  | nil =>
      rw [hwaiting] at hread
      refine h.polled i (hend.poll_none hpeek hread) hheld ?_
      dsimp only [Batches.step]
      rw [hwaiting]
      exact hend.onDevice dev'
  | cons x rest =>
      rw [hwaiting] at hread hload
      obtain ⟨hsize, hbytes⟩ := bytes_onePacket_merge (eid !i) hload
      obtain ⟨hflat, hne, hdata⟩ :=
        onePacket_flat (eid !i) (x := ((x.1.1, x.1.2 ++ packetBytes (eid !i) rest), x.2))
        (hsize.trans_le hload)
      obtain ⟨ctx', hpoll, hinv, hdev⟩ := hend.poll_on hpeek (hread.trans (by rw [hbytes])) hflat
        hne (by rw [hdata, hsize]; exact hload)
        (congrArg MsgLabel.tagOwner (congrArg Prod.fst (pktItem_onePacket (hsize.trans_le hload))))
        (by
          rw [received_onePackets (heid !i) (eid i) (hwithin.arrived (eid !i) !i)]
          exact fun k k' hk => absurd rfl hk)
      refine h.polled i hpoll (hdev ▸ hheld) ?_
      convert hinv using 1
      dsimp only [Batches.step, arrived]
      rw [hwaiting]
      dsimp only
      rw [List.filterMap_append, List.map_append]
      rfl

theorem DriverLinkInv.run (h : DriverLinkInv eid cb ops l) (heid : ∀ i, eid i ≠ mctpEidBroadcast)
    (ops' : List TransportOp) (hwithin : Within (ops ++ ops')) :
    DriverLinkInv eid cb (ops ++ ops') (ops'.foldl (transportStep driverHandle) l) := by
  induction ops' generalizing ops l with
  | nil =>
      rw [List.append_nil]
      exact h
  | cons op ops' ih =>
      have hop : Within (ops ++ [op]) := hwithin.mono ⟨ops', by simp⟩
      rw [show ops ++ op :: ops' = ops ++ [op] ++ ops' by simp] at hwithin ⊢
      apply ih _ hwithin
      cases op with
      | send i dstEid data => exact h.send i dstEid data hop
      | poll i => exact h.poll heid i (hop.mono (List.prefix_append ops _))

/-- What the callback of end `i` is given of the messages of the other end. -/
def heardMerged (eid : Bool → UInt8) (cb : Bool → Nat) (ops : List TransportOp) (i : Bool) :
    List (Nat × UInt8 × List UInt8) :=
  ((arrived (eid !i) (traffic ops !i)).filter fun x => mctpRxDestIsLocal { eid := eid i } x.1.1).map
    fun x => (cb i, eid !i, x.1.2)

theorem DriverLinkInv.calls (h : DriverLinkInv eid cb ops l) (heid : ∀ i, eid i ≠ mctpEidBroadcast)
    (hwithin : Within ops) (i : Bool) :
    (l.ends i).calls = heardMerged eid cb ops i := by
  have hend := h.ends i
  have hcalls : (l.ends i).calls
      = (received (eid i) ((arrived (eid !i) (traffic ops !i)).map (onePacket (eid !i)))).out.map
      fun o => (cb i, o.1.src, o.2) := by
    rw [hend.calls, ← hend.sim.handed, List.map_map]
    rfl
  rw [hcalls, received_onePackets (heid !i) (eid i) (hwithin.arrived (eid !i) !i),
    heardMerged, List.map_map]
  rfl

/-- Two transports that were just set up, with their callbacks, on the driver as it is loaded. -/
structure FreshOnDriver (eid : Bool → UInt8) (cb : Bool → Nat) (l : TransportLink DriverState) :
    Prop where
  driver : l.pipe = some (globalContext ringBufferSize)
  source : ∀ i, eid i ≠ mctpEidBroadcast
  init : ∀ i, ∃ p r now ctx, r.Ok ∧
    (mctpTransportInit (pipeEnv driverHandle i) p r now l.pipe (eid i)).2 = some ctx ∧
    l.ends i = mctpTransportSetRxCallback ctx (some (cb i))

theorem FreshOnDriver.inv (h : FreshOnDriver eid cb l) : DriverLinkInv eid cb [] l := by
  constructor
  · intro i
    rw [h.driver]
    exact driverHolds_globalContext _
  · intro i
    obtain ⟨p, r, now, ctx, hr, hinit, hend⟩ := h.init i
    rw [hend]
    exact newTransport_inv driverHandle i hr hinit (cb i)

end Run

/-- **What a poll takes comes as one message.** However two transports on the driver send each other
messages and poll, as long as no more is on the driver than one packet buffer takes, each callback
is given one message for each poll that found something: the first of the messages sent since the
poll before it, with the packets of the others at its end. -/
theorem driverRun_hears (eid : Bool → UInt8) (cb : Bool → Nat) (l : TransportLink DriverState)
    (ops : List TransportOp) (hfresh : FreshOnDriver eid cb l) (hwithin : Within ops) :
    let after := ops.foldl (transportStep driverHandle) l
    ∀ i, (after.ends i).calls = heardMerged eid cb ops i :=
  (hfresh.inv.run hfresh.source ops hwithin).calls hfresh.source hwithin

def driverTransport (i : Bool) : MctpMmbiContext DriverState :=
  newContext (pipeEnv driverHandle i) {}
    (Opening.initDevice generous ⟨Resources.threeBlocks {}, mctpMmbiInit, {}⟩).1 0
    (some (globalContext ringBufferSize)) (if i then 9 else 8)

def driverLink : TransportLink DriverState :=
  ⟨some (globalContext ringBufferSize), fun i =>
    mctpTransportSetRxCallback (driverTransport i) (some (if i then 1 else 0))⟩

theorem driverLink_fresh :
    FreshOnDriver (fun i => if i then 9 else 8) (fun i => if i then 1 else 0) driverLink where
  driver := rfl
  source := by decide
  init := fun i =>
    ⟨generous, {}, 0, driverTransport i, ⟨List.nodup_nil, by simp⟩, by cases i <;> rfl, rfl⟩

/-- 8 sends a message to 9, and one to 10 before 9 polls: the callback of 9 is given the first with
the packet of the second at its end. -/
theorem driverRun_hears_both :
    let after :=
      ([.send false 9 [1, 2, 3], .send false 10 [4], .poll true, .poll true] :
        List TransportOp).foldl
      (transportStep driverHandle) driverLink
    (after.ends true).calls = [(1, 8, [1, 2, 3, 1, 10, 8, 0xd0, 4])] := by
  intro after
  have hall :=
    driverRun_hears _ _ driverLink
    [.send false 9 [1, 2, 3], .send false 10 [4], .poll true, .poll true] driverLink_fresh
    (by decide +kernel) true
  exact hall.trans (by decide +kernel)

/-! ### Messages in turn -/

def TransportOp.Short : TransportOp → Prop
  | .send _ _ data => data.length ≤ 65536
  | .poll _ => True

instance : DecidablePred TransportOp.Short
  | .send _ _ data => inferInstanceAs (Decidable (data.length ≤ 65536))
  | .poll _ => isTrue trivial

/-- An end sends only after the other has polled for what it sent last. -/
def InTurn (ops : List TransportOp) : Prop :=
  ∀ i, Batches.InTurn (ops.filterMap (TransportOp.toward i))

instance (ops : List TransportOp) : Decidable (InTurn ops) :=
  inferInstanceAs (Decidable (∀ i, Batches.InTurn (ops.filterMap (TransportOp.toward i))))

section Turns

variable {ops : List TransportOp}

theorem InTurn.within (h : InTurn ops) (hshort : ∀ op ∈ ops, op.Short) : Within ops := by
  intro i
  apply (h i).within
  intro m hm
  obtain ⟨op, hop, htoward⟩ := List.mem_filterMap.mp hm
  cases op with
  | send j dstEid data =>
      have hlen : data.length ≤ 65536 := hshort _ hop
      dsimp only [TransportOp.toward] at htoward
      split at htoward
      · cases htoward
        unfold packetSize mctpHdrSize
        dsimp only
        omega
      · cases htoward
  | poll j =>
      dsimp only [TransportOp.toward] at htoward
      split at htoward <;> cases htoward

theorem InTurn.poll (h : InTurn ops) (i : Bool) : InTurn (ops ++ [.poll i]) := by
  intro k
  rw [List.filterMap_append]
  by_cases hk : i = k
  · rw [show [TransportOp.poll i].filterMap (TransportOp.toward k)
      = [] by simp [TransportOp.toward, hk], List.append_nil]
    exact h k
  · rw [show [TransportOp.poll i].filterMap (TransportOp.toward k)
      = [.take] by simp [TransportOp.toward, hk]]
    exact (h k).take

theorem InTurn.arrived (h : InTurn ops) (eid : UInt8) (i : Bool) :
    arrived eid (traffic ops i) = (traffic ops i).batches.flatten := by
  have hsingle : ∀ batch ∈ (traffic ops i).batches, ∃ x, batch = [x] := (h i).single
  unfold LibMctp.arrived
  generalize (traffic ops i).batches = batches at hsingle
  induction batches with
  | nil => rfl
  | cons batch batches ih =>
      obtain ⟨x, rfl⟩ := hsingle batch List.mem_cons_self
      have hmerge : merge eid [x] = some x := by
        rw [merge, packetBytes, List.map_nil, List.flatten_nil, List.append_nil]
      rw [List.filterMap_cons, hmerge, ih fun batch' hbatch' =>
        hsingle batch' (List.mem_cons_of_mem _ hbatch'), List.flatten_cons]
      rfl

/-- What comes is a beginning of what was sent, and all of it when nothing waits. -/
theorem InTurn.heard (h : InTurn ops) (eid : Bool → UInt8) (cb : Bool → Nat) (i : Bool) :
    heardMerged eid cb ops i <+: heard eid cb ops i ∧
      ((traffic ops !i).waiting = [] → heardMerged eid cb ops i = heard eid cb ops i) := by
  have hall := Batches.flatten_run (ops.filterMap (TransportOp.toward !i))
  rw [given_toward] at hall
  have hheard : LibMctp.heard eid cb ops i
    = ((ops.filterMap (TransportOp.sent !i)).zipIdx.filter fun x =>
      mctpRxDestIsLocal { eid := eid i } x.1.1).map fun x => (cb i, eid !i, x.1.2) := by
    rw [LibMctp.heard, ← List.zipIdx_map_fst 0 (ops.filterMap (TransportOp.sent !i)),
      List.filter_map, List.map_map]
    simp
    rfl
  rw [hheard, heardMerged, h.arrived, ← hall]
  refine ⟨((List.prefix_append _ _).filter _).map _, fun hnone => ?_⟩
  rw [show (Batches.run (ops.filterMap (TransportOp.toward !i))).waiting = [] from hnone,
    List.append_nil]
  rfl

end Turns

/-- **In turn, every message gets across the driver.** As long as an end sends only after the other
has polled for what it sent last, and messages of one packet, each callback is given messages that
the other end sent to it, in order and once; and it was given all of them after one more poll. -/
theorem driverRun_delivers (eid : Bool → UInt8) (cb : Bool → Nat) (l : TransportLink DriverState)
    (ops : List TransportOp) (hfresh : FreshOnDriver eid cb l) (hshort : ∀ op ∈ ops, op.Short)
    (hturn : InTurn ops) :
    let after := ops.foldl (transportStep driverHandle) l
    ∀ i, (after.ends i).calls <+: heard eid cb ops i ∧
      ((transportStep driverHandle after (.poll i)).ends i).calls = heard eid cb ops i := by
  intro after i
  have hwithin := hturn.within hshort
  have hinv := hfresh.inv.run hfresh.source ops hwithin
  rw [List.nil_append] at hinv
  refine ⟨?_, ?_⟩
  · rw [hinv.calls hfresh.source hwithin]
    exact (hturn.heard eid cb i).1
  · have hpoll := hturn.poll i
    have hwithin' := hpoll.within (by
      intro op hop
      rcases List.mem_append.mp hop with hop | hop
      · exact hshort op hop
      · rw [List.mem_singleton.mp hop]
        trivial)
    have hnone : (traffic (ops ++ [.poll i]) !i).waiting
        = [] := by rw [traffic_poll, Batches.waiting_take]
    have hsame : heard eid cb (ops ++ [.poll i]) i = heard eid cb ops i := by
      rw [heard, heard, List.filterMap_append,
        show [TransportOp.poll i].filterMap (TransportOp.sent !i) = [] from rfl, List.append_nil]
    rw [(hinv.poll hfresh.source i hwithin).calls hfresh.source hwithin',
      (hpoll.heard eid cb i).2 hnone, hsame]

/-- 8 sends twice, 9 polls each time, and answers. -/
theorem driverRun_delivers_turns :
    let after :=
      ([.send false 9 [1, 2, 3], .poll true, .send false 9 [4], .send true 8 [5]] :
        List TransportOp).foldl
      (transportStep driverHandle) driverLink
    ((transportStep driverHandle after (.poll true)).ends true).calls
    = [(1, 8, [1, 2, 3]), (1, 8, [4])] ∧
      ((transportStep driverHandle after (.poll false)).ends false).calls = [(0, 9, [5])] := by
  have hall :=
    driverRun_delivers _ _ driverLink
    [.send false 9 [1, 2, 3], .poll true, .send false 9 [4], .send true 8 [5]]
    driverLink_fresh (by decide) (by decide +kernel)
  exact ⟨(hall true).2, (hall false).2⟩

end LibMctp
