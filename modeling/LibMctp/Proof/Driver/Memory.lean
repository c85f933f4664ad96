import LibMctp.Lib.Run
import LibMctp.Model.Mmbi
import LibMctp.Proof.Transmit.Replay

/-!
# Sending into the memory region

A packet of an MMBI binding holds up to 65536 bytes of a message, whatever the size of the region it
is written to. The binding refuses a packet that is longer than the region, and the transmit queue
takes the refusal for the end of the packet. So a message is written in full where its first packet,
which is its longest, fits.
-/

namespace LibMctp

open Fragment

variable {δ : Type}

/-- What a taken message leaves is again what the packets logged make of the device. -/
theorem TxTaken.replays {env : Env δ} {w w' : Mctp δ} {b : Nat} {dev : δ} {msg : Message}
    (h : TxTaken env w 0 msg w') (hbus : (w.busses 0).binding = some b)
    (hreplays : w.dev = replayTx env b dev (w.busLog 0).txed) :
    w'.dev = replayTx env b dev (w'.busLog 0).txed := by
  obtain ⟨new, htxed, hdev⟩ := h.replayed hbus
  rw [hdev, htxed, hreplays, replayTx_append]

/-! ### A message that is taken -/

section Taken

variable {env : Env δ} {w w' : Mctp δ} {b : Nat} {binding : MctpBinding}

theorem mctpMessageTx_alloc {eid : UInt8} {tagOwner : Bool} {msgTag : UInt8} {bytes : List UInt8}
    (h : mctpMessageTx env w eid tagOwner msgTag bytes = (w', 0)) :
    env.msgAlloc w.nMsgAlloc = true := by
  by_contra halloc
  unfold mctpMessageTx mctpMsgDup mctpMsgAlloc at h
  rw [if_neg halloc] at h
  exact absurd (Prod.mk.inj h).2 (by decide)

end Taken

/-! ### The region -/

/-- What a region holds after packets were written to its start. -/
def writeRegion (region : List UInt8) (pkts : List MctpPktbuf) : List UInt8 :=
  pkts.foldl (fun region pkt => writeBytes region 0 pkt.bytes) region

/-- The binding sends into a region of this size. -/
structure RegionDev (size : Nat) (mmbi : MctpBindingMmbi) : Prop where
  handle : mmbi.deviceHandle = false
  size : mmbi.memorySize = size
  region : ∃ region, mmbi.txStorage = some region

section Region

variable {port : MmbiPort δ} {msgAlloc pktAlloc : Nat → Bool} {b size : Nat}
  {d : MctpBindingMmbi × δ} {pkt : MctpPktbuf}

theorem mmbiEnv_tx_fits {region : List UInt8} (h : RegionDev size d.1)
    (hregion : d.1.txStorage = some region) (hfits : mctpPktbufSize pkt ≤ size) :
    (mmbiEnv port msgAlloc pktAlloc).tx b d pkt
      = (({ d.1 with txStorage := some (writeBytes region 0 pkt.bytes) }, d.2), ⟨0, false⟩) := by
  have hsize := h.size
  dsimp only [mmbiEnv, mctpMmbiTx]
  rw [h.handle, if_neg (by decide), hregion]
  dsimp only
  rw [if_neg (by omega)]

theorem mmbiEnv_tx_tooLong (h : RegionDev size d.1) (hlong : size < mctpPktbufSize pkt) :
    (mmbiEnv port msgAlloc pktAlloc).tx b d pkt = (d, ⟨-emsgsize, false⟩) := by
  have hsize := h.size
  obtain ⟨region, hregion⟩ := h.region
  dsimp only [mmbiEnv, mctpMmbiTx]
  rw [h.handle, if_neg (by decide), hregion]
  dsimp only
  rw [if_pos (by omega)]

theorem RegionDev.tx (h : RegionDev size d.1) (hfits : mctpPktbufSize pkt ≤ size) :
    ((mmbiEnv port msgAlloc pktAlloc).tx b d pkt).2 = ⟨0, false⟩ ∧
      RegionDev size ((mmbiEnv port msgAlloc pktAlloc).tx b d pkt).1.1 := by
  obtain ⟨region, hregion⟩ := h.region
  rw [mmbiEnv_tx_fits h hregion hfits]
  exact ⟨rfl, h.handle, h.size, _, rfl⟩

theorem replayTx_region {region : List UInt8} {pkts : List MctpPktbuf} (h : RegionDev size d.1)
    (hregion : d.1.txStorage = some region) (hfits : ∀ pkt ∈ pkts, mctpPktbufSize pkt ≤ size) :
    replayTx (mmbiEnv port msgAlloc pktAlloc) b d (pkts.map fun pkt => (pkt, ⟨0, false⟩))
      = ({ d.1 with txStorage := some (writeRegion region pkts) }, d.2) := by
  induction pkts generalizing d region with
  | nil =>
      change d = ({ d.1 with txStorage := some region }, d.2)
      rw [← hregion]
  | cons pkt pkts ih =>
      rw [List.map_cons, replayTx, List.foldl_cons]
      dsimp only
      rw [mmbiEnv_tx_fits h hregion (hfits pkt List.mem_cons_self)]
      exact ih ⟨h.handle, h.size, _, rfl⟩ rfl fun p hp => hfits p (List.mem_cons_of_mem _ hp)

end Region

/-! ### Packets and their sizes -/

theorem mctpMmbiInit_chunk : mctpMmbiInit.chunk = 65536 := rfl

theorem size_of_mem_cut {n : Nat} {msg : Message} {f : Frag UInt8}
    (hf : f ∈ cut 4 mctpMmbiInit.chunk true n msg.bytes) :
    mctpPktbufSize (fragPkt mctpMmbiInit msg.label f) = mctpHdrSize + f.payload.length := by
  have hpayload := payload_le_of_mem_cut (by decide) hf
  rw [mctpMmbiInit_chunk] at hpayload
  apply mctpPktbufSize_fragPkt
  change 0 + 4 + f.payload.length < 2 ^ 64
  omega

/-- The longest packet of a message of this length. -/
def longestPkt (len : Nat) : Nat := mctpHdrSize + min len 65536

/-! ### Runs -/

/-- A call of `mctp_message_tx`. -/
structure Send where
  eid : UInt8
  tagOwner : Bool
  msgTag : UInt8
  msg : List UInt8

def sendStep (env : Env δ) (b : Nat) (st : Mctp δ × List Message) (send : Send) :
    Mctp δ × List Message :=
  txStep env b st (.messageTx send.eid send.tagOwner send.msgTag send.msg)

/-- Each message for which `mctp_message_tx` returned 0 is in the region in full: no packet was
refused for its length, the packets given to the binding are those of the messages, each was written
to the start of the region, which it fits, and none is queued. -/
structure SentInFull (region : List UInt8) (st : Mctp (MctpBindingMmbi × δ) × List Message) :
    Prop where
  accepted : ∀ p ∈ (st.1.busLog 0).txed, p.2.rc ≠ -emsgsize
  sent : (st.1.busLog 0).txed = (msgPackets mctpMmbiInit 0 st.2).map fun pkt => (pkt, ⟨0, false⟩)
  whole : ∀ pkt ∈ msgPackets mctpMmbiInit 0 st.2, pkt.bytes.length ≤ region.length
  written : st.1.dev.1.txStorage = some (writeRegion region (msgPackets mctpMmbiInit 0 st.2))
  idle : (st.1.busses 0).txMsg = none

/-- The endpoint of a binding set up with `mctp_mmbi_init` and `mctp_mmbi_init_mem`. -/
def memoryEndpoint (env : Env (MctpBindingMmbi × δ)) (txAddr rxAddr : List UInt8) (size now : Nat)
    (dev : δ) (b : Nat) (eid : UInt8) : Mctp (MctpBindingMmbi × δ) :=
  let (binding, mmbi, _) := mctpMmbiInitMem mctpMmbiInit {} (some txAddr) (some rxAddr) size true
  (mctpRegisterBus env (mctpSetup (fun _ => binding) now (mmbi, dev)) b eid).1

/-- The message is not taken, for want of a buffer or of a tag, or its longest packet fits the
region. -/
def Send.Fits (env : Env δ) (size : Nat) (st : Mctp δ × List Message) (send : Send) : Prop :=
  env.msgAlloc st.1.nMsgAlloc = true → send.msgTag &&& mctpHdrTagMask = send.msgTag →
    longestPkt send.msg.length ≤ size

/-- An endpoint that has sent all it took into the region. -/
structure RegionInv (env : Env (MctpBindingMmbi × δ)) (b size : Nat) (binding : MctpBinding)
    (dev : MctpBindingMmbi × δ) (region : List UInt8)
    (st : Mctp (MctpBindingMmbi × δ) × List Message) : Prop extends SentInFull region st where
  linked : Linked st.1 b binding
  enabled : (st.1.busses 0).state = .txEnabled
  seq : (st.1.busses 0).txSeq.toNat = (msgPackets mctpMmbiInit 0 st.2).length % 4
  replays : st.1.dev = replayTx env b dev (st.1.busLog 0).txed

/-- `mctp_mmbi_init_mem`'s binding, once it is registered. -/
def memoryBinding : MctpBinding :=
  { mctpMmbiInit with txStorage := true, bus := some 0, mctp := some () }

section Run

variable {port : MmbiPort δ} {msgAlloc pktAlloc : Nat → Bool} {b size : Nat}
  {dev : MctpBindingMmbi × δ} {region : List UInt8}
  {st : Mctp (MctpBindingMmbi × δ) × List Message}

theorem length_bytes (pkt : MctpPktbuf) :
    pkt.bytes.length = mctpPktbufSize pkt := length_readBytes _ _ _

theorem RegionInv.regionDev
    (h : RegionInv (mmbiEnv port msgAlloc pktAlloc) b size memoryBinding dev region st)
    (hdev : RegionDev size dev.1) (hregion : dev.1.txStorage = some region)
    (hsize : region.length = size) : RegionDev size st.1.dev.1 := by
  have hfits : ∀ pkt ∈ msgPackets mctpMmbiInit 0 st.2, mctpPktbufSize pkt ≤ size := by
    intro pkt hpkt
    rw [← length_bytes, ← hsize]
    exact h.whole pkt hpkt
  rw [h.replays, h.sent, replayTx_region hdev hregion hfits]
  exact ⟨hdev.handle, hdev.size, _, rfl⟩

theorem RegionInv.taken {w' : Mctp (MctpBindingMmbi × δ)} {msg : Message}
    (h : RegionInv (mmbiEnv port msgAlloc pktAlloc) b size memoryBinding dev region st)
    (hdev : RegionDev size dev.1) (hregion : dev.1.txStorage = some region)
    (hsize : region.length = size) (htaken : TxTaken (mmbiEnv port msgAlloc pktAlloc) st.1 0 msg w')
    (hlinked : Linked w' b memoryBinding) (hfits : longestPkt msg.bytes.length ≤ size) :
    RegionInv (mmbiEnv port msgAlloc pktAlloc) b size memoryBinding dev region
      (w', st.2 ++ [msg]) := by
  have hcut : ∀ f ∈ cut 4 mctpMmbiInit.chunk true (msgPackets mctpMmbiInit 0 st.2).length msg.bytes,
      mctpPktbufSize (fragPkt mctpMmbiInit msg.label f) ≤ size := by
    intro f hf
    have hchunk := payload_le_of_mem_cut (by decide) hf
    have hlength := payload_le_length_of_mem_cut hf
    rw [mctpMmbiInit_chunk] at hchunk
    rw [size_of_mem_cut hf]
    unfold longestPkt at hfits
    omega
  have hwhole := htaken.sentWhole_on (P := fun d => RegionDev size d.1) h.linked.bus h.linked.eq
    (fun f hf d hd => hd.tx (hcut f hf)) (h.regionDev hdev hregion hsize)
    (by decide) h.enabled h.seq
  have hpkts : msgPackets mctpMmbiInit 0 (st.2 ++ [msg]) = msgPackets mctpMmbiInit 0 st.2 ++
      (cut 4 mctpMmbiInit.chunk true (msgPackets mctpMmbiInit 0 st.2).length msg.bytes).map
      (fragPkt mctpMmbiInit msg.label) := by
    rw [msgPackets_concat, Nat.zero_add]
  have htxed : (w'.busLog 0).txed = (msgPackets mctpMmbiInit 0 (st.2 ++ [msg])).map fun pkt =>
      (pkt, ⟨0, false⟩) := by
    rw [hwhole.txed, h.sent, hpkts, List.map_append, List.map_map]
    rfl
  have hsizes : ∀ pkt ∈ msgPackets mctpMmbiInit 0 (st.2 ++ [msg]), mctpPktbufSize pkt ≤ size := by
    intro pkt hpkt
    rw [hpkts, List.mem_append] at hpkt
    cases hpkt with
    | inl hold =>
        rw [← length_bytes, ← hsize]
        exact h.whole pkt hold
    | inr hnew =>
        obtain ⟨f, hf, rfl⟩ := List.mem_map.mp hnew
        exact hcut f hf
  have hreplays := htaken.replays h.linked.bus h.replays
  refine ⟨⟨?_, htxed, ?_, ?_, hwhole.idle⟩, hlinked, hwhole.enabled, ?_, hreplays⟩
  · intro p hp
    rw [htxed] at hp
    obtain ⟨pkt, -, rfl⟩ := List.mem_map.mp hp
    exact (by decide : (0 : Int) ≠ -emsgsize)
  · intro pkt hpkt
    rw [length_bytes, hsize]
    exact hsizes pkt hpkt
  · change w'.dev.1.txStorage = _
    rw [hreplays, htxed, replayTx_region hdev hregion hsizes]
  · change (w'.busses 0).txSeq.toNat = _
    rw [hwhole.seq, hpkts, List.length_append, List.length_map]
    rfl

theorem RegionInv.step
    (h : RegionInv (mmbiEnv port msgAlloc pktAlloc) b size memoryBinding dev region st)
    (hdev : RegionDev size dev.1) (hregion : dev.1.txStorage = some region)
    (hsize : region.length = size) {send : Send}
    (hfits : send.Fits (mmbiEnv port msgAlloc pktAlloc) size st) :
    RegionInv (mmbiEnv port msgAlloc pktAlloc) b size memoryBinding dev region
      (sendStep (mmbiEnv port msgAlloc pktAlloc) b st send) := by
  have honly := mctpMessageTx_txOnly (mmbiEnv port msgAlloc pktAlloc) st.1 send.eid send.tagOwner
    send.msgTag send.msg
  unfold sendStep txStep
  dsimp only
  cases hcall : mctpMessageTx (mmbiEnv port msgAlloc pktAlloc) st.1 send.eid send.tagOwner
    send.msgTag send.msg with
    | mk w' rc =>
  rw [hcall] at honly
  have hlinked := h.linked.of_sameSetup honly.toSameSetup
  dsimp only
  obtain ⟨hrc, hsent, -⟩ | ⟨hrc, htaken⟩ := mctpMessageTx_cases _ h.linked hcall
  · rw [if_neg hrc]
    refine ⟨⟨?_, ?_, h.whole, ?_, ?_⟩, hlinked, ?_, ?_, ?_⟩
    · rw [hsent.busLog]
      exact h.accepted
    · rw [hsent.busLog]
      exact h.sent
    · rw [hsent.dev]
      exact h.written
    · rw [hsent.busses]
      exact h.idle
    · rw [hsent.busses]
      exact h.enabled
    · rw [hsent.busses]
      exact h.seq
    · rw [hsent.dev, hsent.busLog]
      exact h.replays
  · rw [if_pos hrc]
    subst hrc
    exact h.taken hdev hregion hsize htaken hlinked (hfits (mctpMessageTx_alloc hcall) htaken.tag)

theorem RegionInv.fits_of_sentInFull
    (h : RegionInv (mmbiEnv port msgAlloc pktAlloc) b size memoryBinding dev region st)
    (hdev : RegionDev size dev.1) (hregion : dev.1.txStorage = some region)
    (hsize : region.length = size) {send : Send}
    (hafter : SentInFull region (sendStep (mmbiEnv port msgAlloc pktAlloc) b st send)) :
    send.Fits (mmbiEnv port msgAlloc pktAlloc) size st := by
  intro halloc htag
  have hstate : (st.1.busses 0).state ≠ .constructed := by
    rw [h.enabled]
    decide
  obtain ⟨w', hcall, htaken⟩ := mctpMessageTx_taken h.linked halloc hstate (by decide) h.idle
    send.eid send.tagOwner htag send.msg
  have haccepted := hafter.accepted
  unfold sendStep txStep at haccepted
  dsimp only at haccepted
  rw [hcall] at haccepted
  obtain ⟨s, s', hruns⟩ := htaken.runs h.linked.bus h.linked.eq (by decide) h.seq
  obtain ⟨f, fs, hcut, hpayload⟩ := cut_head (m := 4) (n := memoryBinding.chunk) (by decide) true
    (msgPackets mctpMmbiInit 0 st.2).length send.msg
  have hrest : s.bus.rest memoryBinding.chunk (msgPackets mctpMmbiInit 0 st.2).length = f :: fs :=
    hruns.rest.trans hcut
  have hsizeFrag : mctpPktbufSize (fragPkt memoryBinding s.bus.label f)
      = longestPkt send.msg.length := by
    have hmin : f.payload.length = min send.msg.length 65536 := hpayload
    rw [mctpPktbufSize_fragPkt, hmin, longestPkt]
    change 0 + 4 + f.payload.length < 2 ^ 64
    omega
  -- a packet that is too long is logged as refused
  by_contra hlong
  have hrefused : ∀ {g gs r s₁ t}, Attempt (mmbiEnv port msgAlloc pktAlloc) b memoryBinding
    (msgPackets mctpMmbiInit 0 st.2).length
      s g gs r s₁ t → r = ⟨-emsgsize, false⟩ := by
    intro g gs r s₁ t hattempt
    obtain ⟨rfl, -⟩ := List.cons.inj (hattempt.rest.symm.trans hrest)
    have hanswer := hattempt.answer
    rw [hruns.dev,
      mmbiEnv_tx_tooLong (h.regionDev hdev hregion hsize) (by rw [hsizeFrag]; omega)] at hanswer
    exact (Prod.mk.inj hanswer).2.symm
  rw [hruns.busLog] at haccepted
  cases hruns.sends with
  | idle hidle =>
      have hnone : s.bus.txMsg = none :=
        hidle.resolve_left (not_not.mpr (hruns.state.trans h.enabled))
      rw [MctpBus.rest, hnone] at hrest
      cases hrest
  | busy hattempt hbusy =>
      rw [hrefused hattempt] at hbusy
      exact absurd hbusy (by decide)
  | fail hattempt _ _ =>
      rw [hattempt.done_log, hattempt.log, hrefused hattempt] at haccepted
      exact haccepted _ (List.mem_append_right _ List.mem_cons_self) rfl
  | more hattempt hzero =>
      rw [hrefused hattempt] at hzero
      exact absurd hzero (by decide)

end Run

theorem memoryEndpoint_inv (port : MmbiPort δ) (msgAlloc pktAlloc : Nat → Bool)
    (txAddr rxAddr : List UInt8) (size now : Nat) (dev : δ) (b : Nat) (eid : UInt8) :
    RegionInv (mmbiEnv port msgAlloc pktAlloc) b size memoryBinding
      ({ txStorage := some txAddr, rxStorage := some rxAddr, memorySize := size }, dev) txAddr
      (memoryEndpoint (mmbiEnv port msgAlloc pktAlloc) txAddr rxAddr size now dev b eid, []) := by
  have hsize : ¬ mctpMmbiInit.pktSize < mctpPacketSize mctpBtu := by decide
  have hendpoint : memoryEndpoint (mmbiEnv port msgAlloc pktAlloc) txAddr rxAddr size now dev b eid
      = (((mctpSetup (fun _ => { mctpMmbiInit with txStorage := true }) now
          (({ txStorage := some txAddr, rxStorage := some rxAddr, memorySize := size } :
            MctpBindingMmbi), dev)).initBus b eid).setBus 0
        { eid := eid, binding := some b, mctp := some (), state := .txEnabled }) := by
    simp [memoryEndpoint, mctpMmbiInitMem, mctpRegisterBus, bindingStart, mmbiEnv,
      mctpBindingSetTxEnabled, Mctp.initBus, Mctp.linkBinding,
      Mctp.setBinding, Mctp.setBus, mctpSetup, hsize]
  rw [hendpoint]
  refine ⟨⟨?_, ?_, ?_, ?_, ?_⟩, ⟨?_, ?_, ?_, ?_, ?_, ?_⟩, ?_, ?_, ?_⟩
  · exact fun p hp => absurd hp List.not_mem_nil
  · rfl
  · exact fun pkt hpkt => absurd hpkt List.not_mem_nil
  · rfl
  · rfl
  · rfl
  · rfl
  · rfl
  · dsimp only [Mctp.initBus, Mctp.linkBinding, Mctp.setBinding, Mctp.setBus]
    rw [Function.update_self]
    rfl
  · rfl
  · rfl
  · rfl
  · rfl
  · rfl

/-- **Messages that reach the region in full.** -/
theorem sendRun_sentInFull_iff (port : MmbiPort δ) (msgAlloc pktAlloc : Nat → Bool)
    (txAddr rxAddr : List UInt8) (size now : Nat) (hsize : txAddr.length = size) (dev : δ) (b : Nat)
    (eid : UInt8) (sends : List Send) :
    (∀ pre, pre <+: sends →
      SentInFull txAddr (pre.foldl (sendStep (mmbiEnv port msgAlloc pktAlloc) b)
        (memoryEndpoint (mmbiEnv port msgAlloc pktAlloc) txAddr rxAddr size now dev b eid, []))) ↔
      Run.Each (sendStep (mmbiEnv port msgAlloc pktAlloc) b)
        (Send.Fits (mmbiEnv port msgAlloc pktAlloc) size)
        (memoryEndpoint (mmbiEnv port msgAlloc pktAlloc) txAddr rxAddr size now dev b eid, [])
        sends := by
  have hdev : RegionDev size
      ({ txStorage := some txAddr, rxStorage := some rxAddr, memorySize := size } :
        MctpBindingMmbi) :=
    ⟨rfl, rfl, _, rfl⟩
  apply Run.forall_along_iff_each (A := fun _ _ => True)
    (R := RegionInv (mmbiEnv port msgAlloc pktAlloc) b size memoryBinding
    ({ txStorage := some txAddr, rxStorage := some rxAddr, memorySize := size }, dev) txAddr)
  · exact fun st h => h.toSentInFull
  · exact fun st send _ h hafter => h.fits_of_sentInFull hdev rfl hsize hafter
  · exact fun st send _ h hfits => h.step hdev rfl hsize hfits
  · exact Run.Each.of_forall (fun _ _ => trivial) _ _
  · exact memoryEndpoint_inv port msgAlloc pktAlloc txAddr rxAddr size now dev b eid

/-- A handle that is never used. -/
def noPort : MmbiPort Unit :=
  ⟨fun dev _ => (dev, none), fun dev _ => (dev, .error 0), fun _ => none⟩

def memoryEnv : Env (MctpBindingMmbi × Unit) := mmbiEnv noPort (fun _ => true) fun _ => true

/-- An endpoint with EID 8 that sends into a region of 68 bytes. -/
def smallRegion : Mctp (MctpBindingMmbi × Unit) :=
  memoryEndpoint memoryEnv (List.replicate 68 0) (List.replicate 68 0) 68 0 () 0 8

/-- Two messages that fit, and one with a tag that is none. -/
def shortSends : List Send :=
  [⟨9, true, 1, List.replicate 64 7⟩, ⟨9, true, 8, List.replicate 100 7⟩, ⟨10, false, 2, [1]⟩]

theorem sendRun_sentInFull_iff_short :
    (List.replicate 68 (0 : UInt8)).length = 68 ∧
      ∀ pre, pre <+: shortSends →
        SentInFull (List.replicate 68 0) (pre.foldl (sendStep memoryEnv 0) (smallRegion, [])) := by
  refine ⟨rfl, (sendRun_sentInFull_iff noPort (fun _ => true) (fun _ => true) (List.replicate 68 0)
    (List.replicate 68 0) 68 0 rfl () 0 8 shortSends).mpr ⟨?_, ?_, ?_, trivial⟩⟩
  · exact fun _ _ => by decide
  · exact fun _ htag => absurd htag (by decide)
  · exact fun _ _ => by decide

/-- A message of 65 bytes: the call returns 0, and nothing is written. -/
theorem sendRun_not_sentInFull :
    (mctpMessageTx memoryEnv smallRegion 9 true 1 (List.replicate 65 7)).2 = 0 ∧
      ((mctpMessageTx memoryEnv smallRegion 9 true 1 (List.replicate 65 7)).1.busLog
        0).txed.map (fun p => p.2.rc) = [-emsgsize] ∧
      (mctpMessageTx memoryEnv smallRegion 9 true 1 (List.replicate 65 7)).1.dev.1.txStorage
        = some (List.replicate 68 0) ∧
      ¬ SentInFull (List.replicate 68 0)
        ([⟨9, true, 1, List.replicate 65 7⟩].foldl (sendStep memoryEnv 0) (smallRegion, [])) := by
  refine ⟨by decide +kernel, by decide +kernel, by decide +kernel, fun h => ?_⟩
  have hlogged :
    ∃ p ∈ (([⟨9, true, 1, List.replicate 65 7⟩].foldl (sendStep memoryEnv 0)
      (smallRegion, [])).1.busLog 0).txed, p.2.rc = -emsgsize := by decide +kernel
  obtain ⟨p, hp, hrc⟩ := hlogged
  exact h.accepted p hp hrc

end LibMctp
