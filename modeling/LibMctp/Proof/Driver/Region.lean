import LibMctp.Proof.Driver.Framing
import LibMctp.Proof.Receive.Effects

/-!
# Receiving from the memory region

`mctp_mmbi_rx` allocates a packet buffer that already ends `len` bytes in and pushes the `len` bytes
of the region behind them. The packet it hands to `mctp_bus_rx` is `len` bytes of zero followed by
the bytes received, and it cannot be built at all where twice `len` does not fit.
-/

namespace LibMctp

open Fragment Reassembly

variable {δ : Type}

/-- A buffer of an MMBI binding that ends at `end_`, with the bytes at `off` and zeros elsewhere. -/
def regionPkt (size off end_ : Nat) (bytes : List UInt8) : MctpPktbuf :=
  ⟨0, end_, size, 0, true, writeBytes (List.replicate size 0) off bytes⟩

/-- The packet that the bytes are. -/
def receivedPkt (size : Nat) (bytes : List UInt8) : MctpPktbuf :=
  regionPkt size 0 bytes.length bytes

/-- The packet that `mctp_mmbi_rx` makes of them. -/
def pushedPkt (size : Nat) (bytes : List UInt8) : MctpPktbuf :=
  regionPkt size bytes.length (2 * bytes.length) bytes

/-- A binding without room for a header or trailer. -/
structure MctpBinding.Bare (binding : MctpBinding) : Prop where
  header : binding.pktHeader = 0
  trailer : binding.pktTrailer = 0
  size : 2 * binding.pktSize < 2 ^ 64

section Calls

variable (env : Env (MctpBindingMmbi × δ)) {w : Mctp (MctpBindingMmbi × δ)} {b : Nat}
  {region : List UInt8} {len : Nat}

theorem pktbufAlloc_bare (env : Env δ) {w : Mctp δ} {b len : Nat} (hbare : (w.bindings b).Bare)
    (hlen : len ≤ (w.bindings b).pktSize) (halloc : env.pktAlloc w.nPktAlloc = true) :
    w.pktbufAlloc env b len
      = (w.pktAlloced,
        some ⟨0, len, (w.bindings b).pktSize, 0, true,
          List.replicate (w.bindings b).pktSize 0⟩) := by
  have hsize := hbare.size
  have hstorage : (w.bindings b).storageSize = (w.bindings b).pktSize := by
    rw [MctpBinding.storageSize, hbare.header, hbare.trailer]
    rfl
  have hsome : mctpPktbufAlloc (w.bindings b) (env.pktAlloc w.nPktAlloc) len
      = some ⟨0, len, (w.bindings b).pktSize, 0, true,
        List.replicate (w.bindings b).pktSize 0⟩ := by
    rw [mctpPktbufAlloc, hstorage, if_neg (by omega), halloc, if_pos rfl]
    dsimp only [mctpPktbufInit]
    rw [hstorage, hbare.header, addSize_of_lt (by omega), Nat.zero_add]
  unfold Mctp.pktbufAlloc
  dsimp only
  rw [hsome]
  rfl

theorem mctpMmbiRx_eq (hbare : (w.bindings b).Bare) (hregion : w.dev.1.rxStorage = some region)
    (hmem : len ≤ w.dev.1.memorySize) (hlen : len ≤ (w.bindings b).pktSize)
    (halloc : env.pktAlloc w.nPktAlloc = true) :
    mctpMmbiRx env w b len
      = if 2 * len ≤ (w.bindings b).pktSize then
          (mctpBusRx env w.pktAlloced b (pushedPkt (w.bindings b).pktSize (readBytes region 0 len)),
            0)
        else (w.pktAlloced.withHist { w.pktAlloced.hist with heap := w.pktAlloced.hist.heap ++
          [.pktFree w.nPktAlloc] }, -1) := by
  have hsize := hbare.size
  have hsum : addSize len (readBytes region 0 len).length = 2 * len := by
    rw [length_readBytes, addSize_of_lt (by omega)]
    omega
  unfold mctpMmbiRx
  rw [hregion]
  dsimp only
  rw [if_neg (by omega), pktbufAlloc_bare env hbare hlen halloc]
  by_cases hfits : 2 * len ≤ (w.bindings b).pktSize
  · have hpush : mctpPktbufPush
      ⟨0, len, (w.bindings b).pktSize, 0, true, List.replicate (w.bindings b).pktSize 0⟩
      (readBytes region 0 len)
        = (pushedPkt (w.bindings b).pktSize (readBytes region 0 len), 0) := by
      rw [mctpPktbufPush, hsum, if_neg (Nat.not_lt.mpr hfits), pushedPkt, length_readBytes]
      rfl
    dsimp only
    rw [hpush, if_pos hfits]
    rfl
  · have hpush : mctpPktbufPush
      ⟨0, len, (w.bindings b).pktSize, 0, true, List.replicate (w.bindings b).pktSize 0⟩
      (readBytes region 0 len)
        = (⟨0, len, (w.bindings b).pktSize, 0, true, List.replicate (w.bindings b).pktSize 0⟩,
          -1) := by
      rw [mctpPktbufPush, hsum, if_pos (Nat.lt_of_not_le hfits)]
    dsimp only
    rw [hpush, if_neg hfits]
    rfl

theorem mctpMmbiPoll_eq {port : MmbiPort δ} {bytes : List UInt8} {d : δ}
    (hbare : (w.bindings b).Bare) (hhandle : w.dev.1.deviceHandle = true)
    (hpeek : (port.peekNamedPipe w.dev.2).getD 1 ≠ 0)
    (hread : port.readFile w.dev.2 (maxToRead (w.bindings b).pktSize) = (d, .ok bytes))
    (hpos : 0 < bytes.length) (hlen : bytes.length ≤ (w.bindings b).pktSize)
    (halloc : env.pktAlloc w.nPktAlloc = true) :
    mctpMmbiPoll env port w b
      = (mctpBusRx env (Mctp.pktAlloced { w with dev := (w.dev.1, d) }) b (receivedPkt
        (w.bindings b).pktSize bytes), 0) := by
  have hfill : mmbiFill env { w with dev := (w.dev.1, d) } b bytes
      = (Mctp.pktAlloced { w with dev := (w.dev.1, d) },
        .packet (receivedPkt (w.bindings b).pktSize bytes)) := by
    have hbuf := pktbufAlloc_bare env (w := { w with dev := (w.dev.1, d) }) hbare hlen halloc
    unfold mmbiFill
    rw [if_pos hpos, hbuf]
    rfl
  have hpacket : mmbiPollPacket env port w b
      = (Mctp.pktAlloced { w with dev := (w.dev.1, d) },
        .packet (receivedPkt (w.bindings b).pktSize bytes)) := by
    unfold mmbiPollPacket
    dsimp only
    rw [if_neg (by rw [hhandle]; decide), if_neg hpeek, hread]
    exact hfill
  unfold mctpMmbiPoll
  rw [hpacket]

end Calls

/-! ### The packet that is pushed -/

section Pushed

variable {size : Nat} {bytes : List UInt8}

theorem mctpPktbufSize_receivedPkt (hsize : bytes.length < 2 ^ 64) :
    mctpPktbufSize (receivedPkt size bytes) = bytes.length :=
  subSize_of_le (Nat.zero_le _) hsize

theorem mctpPktbufSize_pushedPkt (hsize : 2 * bytes.length < 2 ^ 64) :
    mctpPktbufSize (pushedPkt size bytes) = 2 * bytes.length :=
  subSize_of_le (Nat.zero_le _) hsize

theorem getD_pushed (hlen : 4 ≤ bytes.length) (hfits : 2 * bytes.length ≤ size) {i : Nat}
    (hi : i < 4) :
    (writeBytes (List.replicate size (0 : UInt8)) bytes.length bytes).getD i 0 = 0 := by
  rw [writeBytes, List.append_assoc, List.getD_append, List.take_replicate, List.getD_replicate]
  · omega
  · rw [List.length_take, List.length_replicate]
    omega

theorem mctpPktbufHdr_pushedPkt (hlen : 4 ≤ bytes.length) (hfits : 2 * bytes.length ≤ size) :
    mctpPktbufHdr (pushedPkt size bytes) = ⟨0, 0, 0, 0⟩ := by
  dsimp only [mctpPktbufHdr, pushedPkt, regionPkt, Nat.zero_add]
  rw [getD_pushed hlen hfits (by decide), getD_pushed hlen hfits (by decide),
    getD_pushed hlen hfits (by decide), getD_pushed hlen hfits (by decide)]

theorem pktFrag_pushedPkt (hlen : 4 ≤ bytes.length) (hfits : 2 * bytes.length ≤ size)
    (hsize : 2 * bytes.length < 2 ^ 64) :
    ∃ payload, pktFrag (pushedPkt size bytes) = ⟨false, false, 0, payload⟩ ∧
      payload.length = 2 * bytes.length - 4 := by
  have hhdr := mctpPktbufHdr_pushedPkt hlen hfits
  have hfrag : pktFrag (pushedPkt size bytes) = _ :=
    pktFrag_middle (by rw [hhdr]; decide) (by rw [hhdr]; decide) (by rw [hhdr]; decide)
  rw [hhdr] at hfrag
  refine ⟨_, hfrag, ?_⟩
  rw [length_mctpPktbufData, mctpPktbufSize_pushedPkt hsize,
    subSize_of_le (by unfold mctpHdrSize; omega) hsize]
  rfl

theorem key_pushedPkt (hlen : 4 ≤ bytes.length) (hfits : 2 * bytes.length ≤ size) :
    (pktLabel (pushedPkt size bytes)).key = ⟨0, 0, 0⟩ := by
  dsimp only [pktLabel, MsgLabel.key]
  rw [mctpPktbufHdr_pushedPkt hlen hfits]
  rfl

theorem length_received (size : Nat) (hlen : 4 ≤ bytes.length) (hsize : bytes.length < 2 ^ 64) :
    (pktFrag (receivedPkt size bytes)).payload.length = bytes.length - 4 := by
  have hsub : subSize bytes.length mctpHdrSize = bytes.length - 4 := subSize_of_le hlen hsize
  have hend : subSize (receivedPkt size bytes).end_ (receivedPkt size bytes).mctpHdrOff
      = bytes.length :=
    mctpPktbufSize_receivedPkt hsize
  dsimp only [pktFrag]
  split
  · rw [length_mctpPktbufData, hend, hsub]
  · rw [length_mctpPktbufData, mctpPktbufSize_receivedPkt hsize, hsub]

end Pushed

/-! ### When both packets do the same -/

/-- Both packets are ignored, or both have the same context dropped. -/
def RegionAgrees (w : Mctp δ) (b size : Nat) (bytes : List UInt8) : Prop :=
  w.Ignores b (receivedPkt size bytes) ∧ w.Ignores b (pushedPkt size bytes) ∨
    w.Drops b (receivedPkt size bytes) ∧ w.Drops b (pushedPkt size bytes) ∧
      (pktLabel (receivedPkt size bytes)).key = (pktLabel (pushedPkt size bytes)).key

/-- Two states that differ in the device and in what the allocator counts. -/
structure Twins (w w' : Mctp δ) : Prop extends Unheard w w' where
  msgCtxs : w'.msgCtxs = w.msgCtxs
  bindings : w'.bindings = w.bindings
  routePolicy : w'.routePolicy = w.routePolicy
  maxMessageSize : w'.maxMessageSize = w.maxMessageSize
  nMsgAlloc : w'.nMsgAlloc = w.nMsgAlloc

section Agree

variable {env : Env δ} {w w' : Mctp δ} {b : Nat} {pkt : MctpPktbuf}

theorem Twins.asm (h : Twins w w') : w'.asm = w.asm := asm_congr h.msgCtxs

theorem Twins.limit (h : Twins w w') : w'.limit = w.limit := by
  funext k
  rw [Mctp.limit, Mctp.limit, h.msgCtxs, h.maxMessageSize]

theorem Twins.accepts (h : Twins w w') : w'.accepts b pkt = w.accepts b pkt := by
  rw [Mctp.accepts, Mctp.accepts, h.bindings, h.routePolicy, h.busses]

theorem Twins.ignores (h : Twins w w') : w'.Ignores b pkt ↔ w.Ignores b pkt := by
  rw [Mctp.Ignores, Mctp.Ignores, h.accepts, h.asm, h.limit, Mctp.Full, Mctp.Full, h.msgCtxs]

theorem Twins.drops (h : Twins w w') : w'.Drops b pkt ↔ w.Drops b pkt := by
  rw [Mctp.Drops, Mctp.Drops, h.accepts, h.asm, h.limit]

theorem Twins.tableSound (h : Twins w w') (hw : TableSound w) : TableSound w' := hw.congr h.msgCtxs

theorem Twins.alloc (h : Twins w w') (halloc : env.msgAlloc w.nMsgAlloc = true) :
    env.msgAlloc w'.nMsgAlloc = true := by
  rw [h.nMsgAlloc]
  exact halloc

theorem sameStack_of_asm {pkt' : MctpPktbuf} (h : Twins w w')
    (hhanded : (mctpBusRx env w b pkt).hist.handed = w.hist.handed)
    (hhanded' : (mctpBusRx env w' b pkt').hist.handed = w'.hist.handed)
    (hasm : (mctpBusRx env w' b pkt').asm = (mctpBusRx env w b pkt).asm) :
    SameStack (mctpBusRx env w b pkt) (mctpBusRx env w' b pkt') :=
  ⟨(mctpBusRx_unheard hhanded).symm.trans (h.toUnheard.trans (mctpBusRx_unheard hhanded')), hasm⟩

variable {size : Nat} {bytes : List UInt8} {i : Fin 2}

theorem sameStack_of_regionAgrees (h : TableSound w) (htwins : Twins w w')
    (halloc : env.msgAlloc w.nMsgAlloc = true) (hagrees : RegionAgrees w b size bytes) :
    SameStack (mctpBusRx env w b (receivedPkt size bytes))
      (mctpBusRx env w' b (pushedPkt size bytes)) := by
  have h' := htwins.tableSound h
  have halloc' := htwins.alloc halloc
  obtain ⟨hreceived, hpushed⟩ | ⟨hreceived, hpushed, hkey⟩ := hagrees
  · obtain ⟨hasm, hhanded⟩ := busRx_of_ignores h halloc hreceived
    obtain ⟨hasm', hhanded'⟩ := busRx_of_ignores h' halloc' (htwins.ignores.mpr hpushed)
    refine sameStack_of_asm htwins hhanded hhanded' ?_
    rw [hasm', hasm, htwins.asm]
  · obtain ⟨hasm, hhanded⟩ := busRx_of_drops h halloc hreceived
    obtain ⟨hasm', hhanded'⟩ := busRx_of_drops h' halloc' (htwins.drops.mpr hpushed)
    refine sameStack_of_asm htwins hhanded hhanded' ?_
    rw [hasm', hasm, htwins.asm, hkey]

/-- Where the pushed packet changes nothing, neither does the received one. -/
theorem regionAgrees_of_pushed (h : TableSound w) (htwins : Twins w w')
    (halloc : env.msgAlloc w.nMsgAlloc = true)
    (hsame : SameStack (mctpBusRx env w b (receivedPkt size bytes))
      (mctpBusRx env w' b (pushedPkt size bytes)))
    (hpushed : w.Ignores b (pushedPkt size bytes)) : RegionAgrees w b size bytes := by
  obtain ⟨hasm', hhanded'⟩ := busRx_of_ignores (htwins.tableSound h) (htwins.alloc halloc)
    (htwins.ignores.mpr hpushed)
  refine .inl ⟨ignores_of_busRx h halloc ?_ ?_, hpushed⟩
  · rw [← hsame.contexts, hasm', htwins.asm]
  · rw [← hsame.handed, hhanded', htwins.handed]

theorem accepts_pushedPkt (hbus : (w.bindings b).bus = some i) (hfour : 4 ≤ bytes.length)
    (hfits : 2 * bytes.length ≤ size) (hsize : 2 * bytes.length < 2 ^ 64) :
    w.accepts b (pushedPkt size bytes) = true := by
  rw [Mctp.accepts_iff hbus, mctpPktbufSize_pushedPkt hsize, mctpPktbufHdr_pushedPkt hfour hfits,
    mctpHdrSize]
  refine ⟨by omega, (by decide : (0 : UInt8) ≠ mctpEidBroadcast), fun _ => ?_⟩
  simp [mctpRxDestIsLocal, mctpEidNull]

theorem regionAgrees_of_short (h : TableSound w) (htwins : Twins w w')
    (halloc : env.msgAlloc w.nMsgAlloc = true) (hbus : (w.bindings b).bus = some i)
    (hlen : bytes.length < 4)
    (hsame : SameStack (mctpBusRx env w b (receivedPkt size bytes))
      (mctpBusRx env w' b (pushedPkt size bytes))) :
    RegionAgrees w b size bytes := by
  have hreceived : w.Ignores b (receivedPkt size bytes) := by
    refine .inl (Bool.eq_false_iff.mpr fun hacc => ?_)
    have hle := ((Mctp.accepts_iff hbus).mp hacc).1
    rw [mctpPktbufSize_receivedPkt (by omega), mctpHdrSize] at hle
    omega
  obtain ⟨hasm, hhanded⟩ := busRx_of_ignores h halloc hreceived
  refine .inl ⟨hreceived,
    htwins.ignores.mp (ignores_of_busRx (htwins.tableSound h) (htwins.alloc halloc) ?_ ?_)⟩
  · rw [hsame.contexts, hasm, htwins.asm]
  · rw [hsame.handed, hhanded, htwins.handed]

/-- A pushed packet that is added adds more than the received one could. -/
theorem not_sameStack_of_added (h : TableSound w) (halloc : env.msgAlloc w.nMsgAlloc = true)
    {p : Partial UInt8} {payload : List UInt8} {seq n : Nat} (hheld : w.asm ⟨0, 0, 0⟩ = some p)
    (hfour : 4 ≤ bytes.length) (hsize : bytes.length < 2 ^ 64)
    (hmore : bytes.length - 4 < payload.length)
    (hadded : (mctpBusRx env w' b (pushedPkt size bytes)).asm ⟨0, 0, 0⟩
      = some ⟨p.data ++ payload, seq, n⟩) :
    ¬ SameStack (mctpBusRx env w b (receivedPkt size bytes))
      (mctpBusRx env w' b (pushedPkt size bytes)) := by
  intro hsame
  rw [hsame.contexts] at hadded
  have hlength := length_received size hfour hsize
  obtain hold | hnew | ⟨p', hp', hboth⟩ := busRx_data h halloc hadded
  · rw [hheld] at hold
    have hdata := congrArg (fun p => p.data.length) (Option.some.inj hold)
    dsimp only at hdata
    rw [List.length_append] at hdata
    omega
  · have hdata := congrArg List.length hnew
    dsimp only at hdata
    rw [List.length_append, hlength] at hdata
    omega
  · rw [hheld] at hp'
    have hdata := congrArg List.length hboth
    dsimp only at hdata
    rw [List.length_append, List.length_append, hlength, Option.some.inj hp'] at hdata
    omega

/-- **The two packets do the same exactly where both are ignored or both have the same context
dropped.** -/
theorem sameStack_iff (env : Env δ) (b : Nat) (size : Nat) (bytes : List UInt8) (h : TableSound w)
    (htwins : Twins w w') (halloc : env.msgAlloc w.nMsgAlloc = true)
    (hbus : (w.bindings b).bus = some i) (hfits : 2 * bytes.length ≤ size)
    (hsize : 2 * bytes.length < 2 ^ 64) :
    SameStack (mctpBusRx env w b (receivedPkt size bytes))
      (mctpBusRx env w' b (pushedPkt size bytes)) ↔
      RegionAgrees w b size bytes := by
  refine ⟨fun hsame => ?_, sameStack_of_regionAgrees h htwins halloc⟩
  have h' := htwins.tableSound h
  have halloc' := htwins.alloc halloc
  by_cases hlen : bytes.length < 4
  · exact regionAgrees_of_short h htwins halloc hbus hlen hsame
  · have hfour : 4 ≤ bytes.length := Nat.le_of_not_lt hlen
    obtain ⟨payload, hfrag, hpayload⟩ := pktFrag_pushedPkt hfour hfits hsize
    have hkey : (pktLabel (pushedPkt size bytes)).key = ⟨0, 0, 0⟩ := key_pushedPkt hfour hfits
    have hacc : w.accepts b (pushedPkt size bytes) = true :=
      accepts_pushedPkt hbus hfour hfits hsize
    cases hheld : w.asm ⟨0, 0, 0⟩ with
    | none =>
        refine regionAgrees_of_pushed h htwins halloc hsame (.inr (.inr (.inr ⟨?_, ?_⟩)))
        · rw [hfrag]
        · rw [hkey]
          exact hheld
    | some p =>
        by_cases hbreaks : Breaks 4 (w.limit ⟨0, 0, 0⟩) p ⟨false, false, 0, payload⟩
        · have hpushed : w.Drops b (pushedPkt size bytes) := by
            refine ⟨hacc, p, ?_, ?_⟩
            · rw [hkey]
              exact hheld
            · rw [hkey, hfrag]
              exact hbreaks
          obtain ⟨hasm', hhanded'⟩ := busRx_of_drops h' halloc' (htwins.drops.mpr hpushed)
          have hgone : (mctpBusRx env w b (receivedPkt size bytes)).asm ⟨0, 0, 0⟩ = none := by
            rw [← hsame.contexts, hasm', hkey, Function.update_self]
          obtain ⟨hreceived, hkey'⟩ :=
            drops_of_busRx h halloc hheld hgone (by rw [← hsame.handed, hhanded', htwins.handed])
          exact .inr ⟨hreceived, hpushed, by rw [hkey', hkey]⟩
        · exfalso
          have hstep : rxStep (w'.limit ⟨0, 0, 0⟩) w' (pushedPkt size bytes)
              = (some ⟨p.data ++ payload, 0, p.size⟩, none) := by
            rw [rxStep, htwins.limit, htwins.asm, hkey, hheld, hfrag]
            exact step_middle rfl rfl hbreaks
          have hnot : ¬ w'.Ignores b (pushedPkt size bytes) := by
            rintro (hno | ⟨hfirst, -⟩ | ⟨hfirst, -⟩ | ⟨-, hnone⟩)
            · rw [htwins.accepts, hacc] at hno
              cases hno
            · rw [hfrag] at hfirst
              cases hfirst
            · rw [hfrag] at hfirst
              cases hfirst
            · rw [hkey, htwins.asm, hheld] at hnone
              cases hnone
          have hadded : (mctpBusRx env w' b (pushedPkt size bytes)).asm ⟨0, 0, 0⟩
              = some ⟨p.data ++ payload, 0, p.size⟩ := by
            obtain hmoves | ⟨-, hign⟩ := busRx_moves h' halloc' (htwins.accepts.trans hacc)
            · rw [hmoves.asm, hkey, Function.update_self, hstep]
            · exact absurd hign hnot
          exact not_sameStack_of_added h halloc hheld hfour (by omega) (by omega) hadded hsame

end Agree

/-! ### Every state of an endpoint -/

/-- The call returned 0 and left the stack as the other one did. -/
structure AgreesWith (r r' : Mctp δ × Int) : Prop where
  rc : r.2 = 0
  stack : SameStack r'.1 r.1

/-- **When the region and the device are received from alike.** -/
theorem mctpMmbiRx_agrees_iff (env : Env (MctpBindingMmbi × δ)) (port : MmbiPort δ)
    (bindings : Nat → MctpBinding) (now : Nat) (dev : MctpBindingMmbi × δ) (b : Nat) (eid : UInt8)
    (ops : List EndpointOp) {w : Mctp (MctpBindingMmbi × δ)}
    (hw : endpointRun env bindings now dev b eid ops = w)
    (hreg : Registers env bindings now dev b eid)
    (hmmbi : bindings b = { mctpMmbiInit with txStorage := true }) (mmbi device : MctpBindingMmbi)
    (d d' d'' : δ) (region : List UInt8) (len : Nat) (hregion : mmbi.rxStorage = some region)
    (hpos : 1 ≤ len) (hmem : len ≤ mmbi.memorySize) (hlen : len ≤ mctpMmbiInit.pktSize)
    (hhandle : device.deviceHandle = true) (hpeek : (port.peekNamedPipe d').getD 1 ≠ 0)
    (hread : port.readFile d' (maxToRead mctpMmbiInit.pktSize)
      = (d'', .ok (readBytes region 0 len)))
    (halloc : env.msgAlloc w.nMsgAlloc = true) (hpkt : env.pktAlloc w.nPktAlloc = true) :
    AgreesWith (mctpMmbiRx env { w with dev := (mmbi, d) } b len)
      (mctpMmbiPoll env port { w with dev := (device, d') } b) ↔
      2 * len ≤ mctpMmbiInit.pktSize ∧
        RegionAgrees w b mctpMmbiInit.pktSize (readBytes region 0 len) := by
  have hlinked := (hreg.endpointInv ops).linked.eq
  have hsound := endpointRun_tableSound env bindings now dev b eid ops
  rw [hw] at hlinked hsound
  rw [hmmbi] at hlinked
  have hsize : (w.bindings b).pktSize = mctpMmbiInit.pktSize := by rw [hlinked]
  have hbus : (w.bindings b).bus = some 0 := by rw [hlinked]
  have hbare : (w.bindings b).Bare := by
    rw [hlinked]
    exact ⟨rfl, rfl, by decide⟩
  have hwrap : 2 * mctpMmbiInit.pktSize < 2 ^ 64 := by decide
  have hrx := mctpMmbiRx_eq env (w := { w with dev := (mmbi, d) }) hbare hregion hmem
    (hsize ▸ hlen) hpkt
  have hpoll := mctpMmbiPoll_eq env (w := { w with dev := (device, d') }) hbare hhandle hpeek
    (by rw [hsize]; exact hread) (by rw [length_readBytes]; exact hpos)
    (by rw [length_readBytes, hsize]; exact hlen) hpkt
  dsimp only at hrx hpoll
  rw [hsize] at hrx hpoll
  rw [hrx, hpoll]
  have htwins : Twins (Mctp.pktAlloced { w with dev := (device, d'') })
      (Mctp.pktAlloced { w with dev := (mmbi, d) }) :=
    ⟨⟨⟨rfl, rfl, rfl⟩, rfl, rfl, rfl⟩, rfl, rfl, rfl, rfl, rfl⟩
  have htable : TableSound (Mctp.pktAlloced { w with dev := (device, d'') }) := hsound.congr rfl
  have hiff := sameStack_iff env b mctpMmbiInit.pktSize (readBytes region 0 len)
    htable htwins halloc hbus
  rw [length_readBytes] at hiff
  by_cases hfits : 2 * len ≤ mctpMmbiInit.pktSize
  · rw [if_pos hfits]
    have hsame := hiff hfits (by omega)
    exact ⟨fun h => ⟨hfits, hsame.mp h.stack⟩, fun h => ⟨rfl, hsame.mpr h.2⟩⟩
  · rw [if_neg hfits]
    exact ⟨fun h => absurd h.rc (by decide : (-1 : Int) ≠ 0), fun h => absurd h.1 hfits⟩

/-- A device from which these bytes are read, and to which anything can be written. -/
def fixedPort (bytes : List UInt8) : MmbiPort Unit where
  writeFile := fun d buf => (d, some buf.length)
  readFile := fun d _ => (d, .ok bytes)
  peekNamedPipe := fun _ => none

/-- An MMBI binding that has both a device and a region with these bytes. -/
def regionMmbi (bytes : List UInt8) : MctpBindingMmbi :=
  { rxStorage := some bytes, memorySize := 65536, deviceHandle := true }

def regionEnv (bytes : List UInt8) : Env (MctpBindingMmbi × Unit) :=
  mmbiEnv (fixedPort bytes) (fun _ => true) fun _ => true

/-- Four bytes from EID 10, in one packet. -/
def fourBytes (dest : UInt8) : List UInt8 := [1, dest, 10, 0xc8, 1, 2, 3, 4]

/-- An endpoint with EID 8 on an MMBI binding. -/
def regionEndpoint (bytes : List UInt8) : Mctp (MctpBindingMmbi × Unit) :=
  { endpointRun (regionEnv bytes) (fun _ => { mctpMmbiInit with txStorage := true }) 0
    (regionMmbi bytes, ()) 0 8 [.setRxAll] with
    dev := (regionMmbi bytes, ()) }

theorem regionEndpoint_registers (bytes : List UInt8) :
    Registers (regionEnv bytes) (fun _ => { mctpMmbiInit with txStorage := true }) 0
      (regionMmbi bytes, ()) 0 8 :=
  ⟨fun _ => rfl, le_of_eq rfl⟩

/-- A packet for another endpoint. -/
theorem mctpMmbiRx_agrees_foreign :
    AgreesWith (mctpMmbiRx (regionEnv (fourBytes 9)) (regionEndpoint (fourBytes 9)) 0 8)
      (mctpMmbiPoll (regionEnv (fourBytes 9)) (fixedPort (fourBytes 9))
        (regionEndpoint (fourBytes 9)) 0) := by
  refine (mctpMmbiRx_agrees_iff (regionEnv (fourBytes 9)) (fixedPort (fourBytes 9))
    (fun _ => { mctpMmbiInit with txStorage := true }) 0
    (regionMmbi (fourBytes 9), ()) 0 8 [.setRxAll] rfl (regionEndpoint_registers (fourBytes 9)) rfl
    (regionMmbi (fourBytes 9))
    (regionMmbi (fourBytes 9)) () () () (fourBytes 9) 8 rfl (by decide) (by decide) (by decide) rfl
    (by decide) rfl rfl rfl).mpr
    ⟨by decide, .inl ⟨.inl ?_, .inr (.inr (.inr ⟨?_, ?_⟩))⟩⟩
  · decide +kernel
  · decide +kernel
  · decide +kernel

/-- A message for the endpoint is not handed up, and bytes of more than half a packet are
refused. -/
theorem mctpMmbiRx_not_agrees :
    ¬ AgreesWith (mctpMmbiRx (regionEnv (fourBytes 8)) (regionEndpoint (fourBytes 8)) 0 8)
        (mctpMmbiPoll (regionEnv (fourBytes 8)) (fixedPort (fourBytes 8))
          (regionEndpoint (fourBytes 8)) 0) ∧
      (mctpMmbiRx (regionEnv (fourBytes 8)) (regionEndpoint (fourBytes 8)) 0 40000).2 = -1 := by
  refine ⟨fun h => ?_, ?_⟩
  · have hhanded := h.stack.handed
    have hnone : (mctpMmbiRx (regionEnv (fourBytes 8)) (regionEndpoint (fourBytes 8)) 0
        8).1.hist.handed = [] := by decide +kernel
    have hone : (mctpMmbiPoll (regionEnv (fourBytes 8)) (fixedPort (fourBytes 8))
      (regionEndpoint (fourBytes 8)) 0).1.hist.handed
        = [⟨10, 8, true, 0, [1, 2, 3, 4]⟩] := by decide +kernel
    rw [hnone, hone] at hhanded
    cases hhanded
  · rw [mctpMmbiRx_eq (regionEnv (fourBytes 8)) ⟨rfl,
      rfl, by decide⟩ rfl (by decide) (by decide) rfl, if_neg (by decide)]

end LibMctp
