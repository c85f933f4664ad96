import LibMctp.Lib.Parts
import LibMctp.Proof.Link.Bridge
import Mathlib.Data.Fintype.Card

/-!
# Sixteen contexts

Sixteen senders that send one message after the other never need more contexts than there are,
however their packets are mixed. But a context has no time limit: sixteen messages that are never
finished take them all, and from then on no message of several packets from anybody else is put
together.
-/

namespace LibMctp

open Fragment Reassembly

/-! ### A part of a stream -/

/-- Messages that an endpoint with buffers of this size can put together from packets of the
binding. -/
structure Streams (binding : MctpBinding) (cap : Nat) (msgs : List Message) : Prop where
  chunk : 0 < binding.chunk
  source : ∀ msg ∈ msgs, msg.src ≠ mctpEidBroadcast
  tag : ∀ msg ∈ msgs, msg.tag.toNat < 8
  fits : ∀ msg ∈ msgs, binding.chunk < msg.bytes.length → msg.bytes.length ≤ cap

/-- The machine that is given those of the packets that the endpoint takes. -/
def putTogether (cap : Nat) (eid : UInt8) (pkts : List MctpPktbuf) : State UInt8 MsgLabel MsgKey :=
  run MsgLabel.key 4 cap State.init (endpointItems eid pkts)

section Stream

variable {binding : MctpBinding} {cap start : Nat} {eid : UInt8} {msgs : List Message}
  {got : List MctpPktbuf}

theorem Streams.labelled (h : Streams binding cap msgs) :
    ∀ msg ∈ msgs.map Message.labelled, binding.chunk < msg.2.length → msg.2.length ≤ cap := by
  intro msg hmsg
  obtain ⟨msg', hmsg', rfl⟩ := List.mem_map.mp hmsg
  exact h.fits msg' hmsg'

theorem Streams.items (h : Streams binding cap msgs) (eid : UInt8) (start : Nat) :
    endpointItems eid (msgPackets binding start msgs)
      = (stream 4 binding.chunk start (msgs.map Message.labelled)).filter fun x =>
      mctpRxDestIsLocal { eid := eid } x.1.dest :=
  endpointItems_msgPackets h.chunk h.source h.tag

/-- What comes out is the beginning of what is for the endpoint, and all of it at the end of the
stream. -/
theorem Streams.out (h : Streams binding cap msgs) (hgot : got <+: msgPackets binding start msgs) :
    (putTogether cap eid got).out <+: (msgs.filter fun msg =>
      mctpRxDestIsLocal { eid := eid } msg.dest).map Message.labelled ∧
      (got = msgPackets binding start msgs → (putTogether cap eid got).out
        = (msgs.filter fun msg =>
          mctpRxDestIsLocal { eid := eid } msg.dest).map Message.labelled) := by
  have hall : (putTogether cap eid (msgPackets binding start msgs)).out
      = (msgs.filter fun msg =>
        mctpRxDestIsLocal { eid := eid } msg.dest).map Message.labelled := by
    rw [putTogether, h.items,
      run_filter_stream h.chunk (fun l : MsgLabel => mctpRxDestIsLocal { eid := eid } l.dest)
      start _
      State.init (fun _ => rfl) h.labelled, List.filter_map]
    rfl
  refine ⟨?_, fun heq => by rw [heq, hall]⟩
  rw [← hall]
  obtain ⟨rest, hrest⟩ := endpointItems_mono eid hgot
  rw [putTogether, putTogether, ← hrest]
  exact out_run_mono _ _ _

theorem Streams.one_under_way (h : Streams binding cap msgs)
    (hgot : got <+: msgPackets binding start msgs) {k k' : MsgKey}
    (hk : (putTogether cap eid got).asm k ≠ none) (hk' : (putTogether cap eid got).asm k' ≠ none) :
    k = k' := by
  have hmono := endpointItems_mono eid hgot
  rw [h.items] at hmono
  exact asm_unique_of_stream h.chunk (fun l : MsgLabel => mctpRxDestIsLocal { eid := eid } l.dest)
    start _ State.init (fun _ => rfl) h.labelled hmono hk hk'

theorem Streams.none_under_way (h : Streams binding cap msgs) {pkt : MctpPktbuf}
    (hgot : got ++ [pkt] <+: msgPackets binding start msgs) (hfirst : (pktFrag pkt).first = true)
    (k : MsgKey) : (putTogether cap eid got).asm k = none := by
  have htaken : endpointItems eid got = (got.map pktItem).filter fun x =>
      mctpRxDestIsLocal { eid := eid } x.1.dest := by
    rw [endpointItems, List.filter_map]
    congr 1
    refine List.filter_congr fun pkt hpkt => ?_
    have hmem := hgot.subset (List.mem_append_left _ hpkt)
    have hsize := size_of_mem_msgPackets h.chunk h.tag hmem
    obtain ⟨msg, hmsg, hlabel⟩ := label_of_mem_msgPackets h.chunk h.tag hmem
    have hsrc : (mctpPktbufHdr pkt).src ≠ mctpEidBroadcast := by
      rw [show (mctpPktbufHdr pkt).src = msg.src from congrArg MsgLabel.src hlabel]
      exact h.source msg hmsg
    simp [pktTaken, pktItem, pktLabel, hsize, hsrc]
  have hitems := hgot.map pktItem
  rw [map_pktItem_msgPackets h.chunk h.tag, List.map_append] at hitems
  rw [putTogether, htaken]
  exact asm_of_first h.chunk (fun l : MsgLabel => mctpRxDestIsLocal { eid := eid } l.dest) start _
    State.init (fun _ => rfl) h.labelled hfirst hitems k

end Stream

/-! ### Sixteen senders -/

def ofSource (r : UInt8) (pkts : List MctpPktbuf) : List MctpPktbuf :=
  pkts.filter fun pkt => (pktLabel pkt).src = r

/-- Each of the senders sends its messages one after the other, and the packets come in any order
that keeps those of each sender in theirs. -/
structure FromSenders (senders : Finset UInt8) (binding : UInt8 → MctpBinding) (start : UInt8 → Nat)
    (msgs : UInt8 → List Message) (cap : Nat) (pkts : List MctpPktbuf) : Prop where
  known : ∀ pkt ∈ pkts, (pktLabel pkt).src ∈ senders
  stream : ∀ r ∈ senders, ofSource r pkts <+: msgPackets (binding r) (start r) (msgs r)
  ok : ∀ r ∈ senders, Streams (binding r) cap (msgs r)
  keepsEid : ∀ r ∈ senders, ∀ msg ∈ msgs r, ¬ msg.SetsEid

section Senders

variable {δ : Type} {senders : Finset UInt8} {binding : UInt8 → MctpBinding} {start : UInt8 → Nat}
  {msgs : UInt8 → List Message}
  {cap : Nat} {pre pkts : List MctpPktbuf} {eid : UInt8} {w : Mctp δ}

theorem FromSenders.mono (h : FromSenders senders binding start msgs cap pkts)
    (hpre : pre <+: pkts) :
    FromSenders senders binding start msgs cap pre :=
  ⟨fun pkt hpkt => h.known pkt (hpre.subset hpkt), fun r hr =>
    (hpre.filter _).trans (h.stream r hr), h.ok, h.keepsEid⟩

theorem ofSource_eq_nil (h : FromSenders senders binding start msgs cap pkts) {r : UInt8}
    (hr : r ∉ senders) : ofSource r pkts = [] := by
  refine List.filter_eq_nil_iff.mpr fun pkt hpkt => ?_
  simp only [decide_eq_true_eq]
  rintro rfl
  exact hr (h.known pkt hpkt)

theorem endpointItems_ofSource (eid r : UInt8) (pkts : List MctpPktbuf) :
    endpointItems eid (ofSource r pkts) = (endpointItems eid pkts).filter fun item =>
      item.1.key.src = r := by
  rw [endpointItems, endpointItems, ofSource, List.filter_map, List.filter_filter,
    List.filter_filter]
  congr 1
  exact List.filter_congr fun pkt _ => Bool.and_comm _ _

/-- The machine does for each source what its packets alone would make it do. -/
theorem putTogether_parts (cap : Nat) (eid : UInt8) (pkts : List MctpPktbuf) :
    Parts MsgLabel.key MsgKey.src (putTogether cap eid pkts) fun r =>
      putTogether cap eid (ofSource r pkts) := by
  have hpart : (fun r => putTogether cap eid (ofSource r pkts)) = fun r =>
    run MsgLabel.key 4 cap State.init
      ((endpointItems eid pkts).filter fun item => item.1.key.src = r) := by
    funext r
    rw [putTogether, endpointItems_ofSource]
  rw [hpart]
  exact Parts.init.give_all _

/-- What came out with a source is the beginning of the messages of this sender. -/
theorem FromSenders.out (h : FromSenders senders binding start msgs cap pkts) (eid : UInt8)
    {r : UInt8} (hr : r ∈ senders) :
    ((putTogether cap eid pkts).out.filter fun o => o.1.key.src = r)
        <+: ((msgs r).filter fun msg =>
          mctpRxDestIsLocal { eid := eid } msg.dest).map Message.labelled ∧
      (ofSource r pkts = msgPackets (binding r) (start r) (msgs r) →
        ((putTogether cap eid pkts).out.filter fun o => o.1.key.src = r)
          = ((msgs r).filter fun msg =>
            mctpRxDestIsLocal { eid := eid } msg.dest).map Message.labelled) := by
  rw [(putTogether_parts cap eid pkts).out r]
  exact (h.ok r hr).out (h.stream r hr)

/-- A first packet finds a context: its sender has none in use, and the others have one each at
most. -/
theorem FromSenders.not_full {pkt : MctpPktbuf}
    (h : FromSenders senders binding start msgs cap (pre ++ [pkt])) (hsixteen : senders.card ≤ 16)
    (hsim : Sim cap w (putTogether cap eid pre)) (hfirst : (pktFrag pkt).first = true) :
    ¬ w.Full := by
  intro hfull
  have hpre := h.mono (List.prefix_append pre [pkt])
  have hthis : (pktLabel pkt).src ∈ senders := h.known pkt (by simp)
  have hkey : ∀ j, ∃ k, (w.msgCtxs j).key = some k ∧
      (putTogether cap eid (ofSource k.src pre)).asm k ≠ none := by
    intro j
    obtain ⟨buf, hbuf⟩ := Option.isSome_iff_exists.mp (hfull j)
    have hj := MctpMsgCtx.key_of_buf hbuf
    have hasm := hsim.inv.asm_of_slot hj
    rw [hsim.asm, (putTogether_parts cap eid pre).asm] at hasm
    exact ⟨_, hj, by rw [hasm]; exact Option.some_ne_none _⟩
  choose key hctx hasm using hkey
  have hsrc : ∀ j, (key j).src ∈ senders.erase (pktLabel pkt).src := by
    intro j
    refine Finset.mem_erase.mpr ⟨fun hsame => ?_, ?_⟩
    · have hgot := h.stream _ hthis
      have hconcat : ofSource (pktLabel pkt).src (pre ++ [pkt])
          = ofSource (pktLabel pkt).src pre ++ [pkt] := by
        simp [ofSource]
      rw [hconcat] at hgot
      refine hasm j ?_
      rw [hsame]
      exact (h.ok _ hthis).none_under_way hgot hfirst _
    · by_contra hunknown
      refine hasm j ?_
      rw [ofSource_eq_nil hpre hunknown]
      rfl
  have hinj : Function.Injective fun j =>
      (⟨(key j).src, hsrc j⟩ : senders.erase (pktLabel pkt).src) := by
    intro j j' hsame
    have hsame' : (key j).src = (key j').src := congrArg Subtype.val hsame
    have hmem := Finset.mem_of_mem_erase (hsrc j')
    have hj := hasm j
    rw [hsame'] at hj
    have hk := (h.ok _ hmem).one_under_way (hpre.stream _ hmem) hj (hasm j')
    have hslot := hctx j
    rw [hk] at hslot
    exact hsim.inv.distinct j j' _ hslot (hctx j')
  have hcard := Fintype.card_le_of_injective _ hinj
  rw [Fintype.card_fin, Fintype.card_coe, Finset.card_erase_of_mem hthis] at hcard
  have hpos := Finset.card_pos.mpr ⟨_, hthis⟩
  omega

end Senders

/-- **Sixteen senders at once.** However the packets of at most sixteen senders are mixed, a fresh
endpoint hands up of each of them the messages for it, in order, and all of them once it was given
all packets of that sender. -/
theorem rxRun_senders {δ : Type} (env : Env δ) (halloc : ∀ n, env.msgAlloc n = true) {b : Nat}
    {eid : UInt8} {cap : Nat} {w : Mctp δ} (hfresh : FreshEndpoint b eid cap w)
    (senders : Finset UInt8) (hsixteen : senders.card ≤ 16) (binding : UInt8 → MctpBinding)
    (start : UInt8 → Nat) (msgs : UInt8 → List Message) (pkts : List MctpPktbuf)
    (hpkts : FromSenders senders binding start msgs cap pkts) :
    ∀ r ∈ senders, ((rxRun env b w pkts).hist.handed.filter fun msg => msg.src = r)
        <+: (msgs r).filter (fun msg => mctpRxDestIsLocal { eid := eid } msg.dest) ∧
      (ofSource r pkts = msgPackets (binding r) (start r) (msgs r) →
        ((rxRun env b w pkts).hist.handed.filter fun msg => msg.src = r)
          = (msgs r).filter fun msg => mctpRxDestIsLocal { eid := eid } msg.dest) := by
  have hsim : Sim cap (rxRun env b w pkts) (putTogether cap eid pkts) := by
    refine (rxRun_sim hfresh.toRxReady hfresh.sim halloc pkts ?_ ?_).2
    · intro pre pkt hpre hsim hfirst _ _
      exact (hpkts.mono hpre).not_full hsixteen hsim hfirst
    · intro pre new hpre hsim hnew msg hmsg
      have hout : msg.labelled ∈ (putTogether cap eid pre).out := by
        rw [hfresh.nothing, List.nil_append] at hnew
        rw [putTogether, ← hsim.handed, hnew]
        exact List.mem_map_of_mem hmsg
      have hown : msg.labelled ∈ (putTogether cap eid pre).out.filter fun o =>
          o.1.key.src = msg.src :=
        List.mem_filter.mpr ⟨hout, decide_eq_true rfl⟩
      by_cases hr : msg.src ∈ senders
      · obtain ⟨msg', hmsg', heq⟩ := List.mem_map.mp (((hpkts.mono hpre).out eid hr).1.subset hown)
        rw [← Message.labelled_injective heq]
        exact hpkts.keepsEid _ hr _ (List.mem_of_mem_filter hmsg')
      · rw [(putTogether_parts cap eid pre).out, ofSource_eq_nil (hpkts.mono hpre) hr] at hown
        cases hown
  have hhanded : ∀ r, ((rxRun env b w pkts).hist.handed.filter fun msg => msg.src = r).map
    Message.labelled
      = (putTogether cap eid pkts).out.filter fun o => o.1.key.src = r := by
    intro r
    rw [← hsim.handed, List.filter_map]
    rfl
  intro r hr
  obtain ⟨hpre, hall⟩ := hpkts.out eid hr
  rw [← hhanded] at hpre hall
  exact ⟨(List.prefix_map_iff_of_injective Message.labelled_injective).mp hpre,
    fun heq => Message.labelled_injective.list_map (hall heq)⟩

def tinyBinding : MctpBinding := { smallBinding with pktSize := 6, fits := by decide }

def threeBytes (r : UInt8) : List Message := [⟨r, 9, true, 1, [1, 2, 3]⟩]

def crossedPkts : List MctpPktbuf :=
  [fragPkt tinyBinding ⟨10, 9, true, 1⟩ ⟨true, false, 0, [1, 2]⟩,
    fragPkt tinyBinding ⟨11, 9, true, 1⟩ ⟨true, false, 0, [1, 2]⟩,
    fragPkt tinyBinding ⟨10, 9, true, 1⟩ ⟨false, true, 1, [3]⟩, fragPkt tinyBinding ⟨11, 9, true, 1⟩
    ⟨false, true, 1, [3]⟩]

theorem crossedPkts_fromSenders :
    FromSenders {10, 11} (fun _ => tinyBinding) (fun _ => 0) threeBytes 33554432 crossedPkts where
  known := by decide
  stream := by decide +kernel
  ok := by
    intro r hr
    simp only [Finset.mem_insert, Finset.mem_singleton] at hr
    rcases hr with rfl | rfl
    · exact ⟨by decide, by decide, by decide, by decide⟩
    · exact ⟨by decide, by decide, by decide, by decide⟩
  keepsEid := by decide +kernel

theorem rxRun_senders_two :
    ((rxRun wire 0 wiredNine crossedPkts).hist.handed.filter fun msg => msg.src = 10)
      = threeBytes 10 :=
  (rxRun_senders wire (fun _ => rfl) wiredNine_fresh {10, 11} (by decide) (fun _ => tinyBinding)
    (fun _ => 0) threeBytes crossedPkts
    crossedPkts_fromSenders 10 (by decide)).2 (by decide +kernel)

/-! ### Messages that are never finished -/

def pktWhole (pkt : MctpPktbuf) : Bool := (pktFrag pkt).first && (pktFrag pkt).last

def wholeMessage (pkt : MctpPktbuf) : Message := (pktLabel pkt).message (pktFrag pkt).payload

section Exhausted

variable {δ : Type} (env : Env δ) {w : Mctp δ} {pkt : MctpPktbuf}

theorem busRxSingle_handed (w : Mctp δ) (i : Fin 2)
    (hflags : hdrFlags (mctpPktbufHdr pkt) = mctpHdrFlagSom ||| mctpHdrFlagEom) :
    (busRxSingle env w i pkt).hist.handed = w.hist.handed ∨
      (busRxSingle env w i pkt).hist.handed = w.hist.handed ++ [wholeMessage pkt] := by
  have hdup :=
    mctpMsgDup_txOnly env w
    (mctpPktbufData pkt (subSize (subSize pkt.end_ pkt.mctpHdrOff) mctpHdrSize)) (some ())
  unfold busRxSingle
  dsimp only
  split <;> rename_i hcase <;> rw [hcase] at hdup
  · exact .inl hdup.handed
  · rename_i w₁ p
    refine .inr ((mctpMsgFree_txOnly env _ p (some ())).handed.trans ?_)
    rw [mctpRx_handed, hdup.handed, mctpMsgDup_bytes hcase, wholeMessage, pktFrag_single hflags]
    rfl

theorem busRxEom_of_none (w : Mctp δ) (i : Fin 2)
    (hnew : ∀ j, (w.msgCtxs j).key ≠ some (pktLabel pkt).key) :
    busRxEom env w i pkt = w := by
  unfold busRxEom
  dsimp only
  rw [lookup_pkt, Table.slot_eq_none.mpr hnew]

theorem busRxMiddle_of_none (w : Mctp δ) (i : Fin 2)
    (hnew : ∀ j, (w.msgCtxs j).key ≠ some (pktLabel pkt).key) :
    busRxMiddle w i pkt = w := by
  unfold busRxMiddle
  dsimp only
  rw [lookup_pkt, Table.slot_eq_none.mpr hnew]

/-- **One packet** of a key that has no context, where none is free. -/
theorem mctpBusRx_exhausted (b : Nat) (hfull : w.Full)
    (hnew : ∀ j, (w.msgCtxs j).key ≠ some (pktLabel pkt).key) :
    (mctpBusRx env w b pkt).msgCtxs = w.msgCtxs ∧
      ((mctpBusRx env w b pkt).hist.handed = w.hist.handed ∨
        pktWhole pkt = true ∧
          (mctpBusRx env w b pkt).hist.handed = w.hist.handed ++ [wholeMessage pkt]) := by
  constructor
  · funext j
    obtain ⟨buf, hbuf⟩ := Option.isSome_iff_exists.mp (hfull j)
    have hkey := MctpMsgCtx.key_of_buf hbuf
    exact mctpBusRx_othersKept env pkt w b j _ hkey fun heq => hnew j (heq ▸ hkey)
  · by_cases hsom : hdrFlags (mctpPktbufHdr pkt) = mctpHdrFlagSom
    · exact .inl (mctpBusRx_full env pkt w b hsom hnew hfull).2
    · obtain ⟨hacc, -⟩ | ⟨i, -, -, hrx⟩ := mctpBusRx_cases_sight env w b pkt
      · obtain ⟨hist, hhanded, hrx⟩ := mctpBusRx_dropped env hacc
        rw [hrx]
        exact .inl hhanded
      · rw [hrx, ← seen_handed w b pkt]
        unfold busRxSwitch
        dsimp only
        rw [if_neg hsom]
        split_ifs with hboth heom
        · rcases busRxSingle_handed env (w.seen b pkt) i hboth with hnone | hone
          · exact .inl hnone
          · refine .inr ⟨?_, hone⟩
            rw [pktWhole, pktFrag_single hboth]
            rfl
        · rw [busRxEom_of_none env (w.seen b pkt) i hnew]
          exact .inl rfl
        · rw [busRxMiddle_of_none (w.seen b pkt) i hnew]
          exact .inl rfl

end Exhausted

/-- **Unfinished messages are never given up.** While all contexts are in use and no packet of their
keys comes, they stay as they are, and only messages of one packet are handed up, whatever else is
sent. -/
theorem rxRun_exhausted {δ : Type} (env : Env δ) (b : Nat) (w : Mctp δ) (hfull : w.Full)
    (pkts : List MctpPktbuf)
    (hnew : ∀ pkt ∈ pkts, ∀ j, (w.msgCtxs j).key ≠ some (pktLabel pkt).key) :
    (rxRun env b w pkts).msgCtxs = w.msgCtxs ∧
      ∃ msgs, (rxRun env b w pkts).hist.handed = w.hist.handed ++ msgs ∧
        msgs.Sublist ((pkts.filter pktWhole).map wholeMessage) := by
  induction pkts using List.reverseRecOn with
  | nil => exact ⟨rfl, [], (List.append_nil _).symm, List.Sublist.slnil⟩
  | append_singleton pkts pkt ih =>
      obtain ⟨hctxs, msgs, hmsgs, hsub⟩ := ih fun pkt' hpkt' =>
        hnew pkt' (List.mem_append_left _ hpkt')
      have hfull' : (rxRun env b w pkts).Full := by
        intro j
        rw [hctxs]
        exact hfull j
      have hnew' : ∀ j, ((rxRun env b w pkts).msgCtxs j).key ≠ some (pktLabel pkt).key := by
        rw [hctxs]
        exact hnew pkt (by simp)
      obtain ⟨hsame, hhanded⟩ := mctpBusRx_exhausted env b hfull' hnew'
      rw [rxRun_concat]
      refine ⟨hsame.trans hctxs, ?_⟩
      rw [List.filter_append, List.map_append]
      rcases hhanded with hnone | ⟨hwhole, hone⟩
      · exact ⟨msgs, hnone.trans hmsgs, hsub.trans (List.sublist_append_left _ _)⟩
      · refine ⟨msgs ++ [wholeMessage pkt], ?_, ?_⟩
        · rw [hone, hmsgs, List.append_assoc]
        · rw [List.filter_singleton, hwhole]
          exact hsub.append (List.Sublist.refl _)

def sixteenStarts : List MctpPktbuf :=
  (List.range 16).map fun n =>
    fragPkt tinyBinding ⟨UInt8.ofNat (16 + n), 9, true, 1⟩ ⟨true, false, 0, [1, 2]⟩

/-- After them the messages of 10 and 11 do not get through. -/
theorem rxRun_exhausted_crossed :
    (rxRun wire 0 (rxRun wire 0 wiredNine sixteenStarts) crossedPkts).hist.handed = [] := by
  obtain ⟨-, msgs, hmsgs, hsub⟩ := rxRun_exhausted wire 0 (rxRun wire 0 wiredNine sixteenStarts)
    (by unfold Mctp.Full; decide +kernel) crossedPkts (by decide +kernel)
  have hnone : (crossedPkts.filter pktWhole).map wholeMessage = [] := by decide
  rw [hnone, List.sublist_nil] at hsub
  rw [hmsgs, hsub]
  decide +kernel

end LibMctp
