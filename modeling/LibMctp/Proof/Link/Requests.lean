import LibMctp.Lib.Exchange
import LibMctp.Lib.Ledger
import LibMctp.Proof.Link.Quiesce
import LibMctp.Proof.Tags.Atomic

/-!
# Requests and their answers

A request holds its tag until the answer has come back. Two endpoints on a wire send each other
requests, and their applications answer those that the library does not answer itself. As long as no
tag expires, each end holds just the tags of its requests without an answer, whatever is on its way,
so that a ninth one has to wait and no tag is lost.
-/

namespace LibMctp

open Exchange

variable {δ : Type}

/-! ### The tags an end holds -/

def MctpReqTag.liveTag (now : Nat) (r : MctpReqTag) : Option UInt8 :=
  if r.Live now then some r.tag else none

def heldTags (w : Mctp δ) : List UInt8 :=
  Ledger.slots (MctpReqTag.liveTag w.platformNow ∘ w.reqTags)

theorem MctpReqTag.liveTag_eq_some {now : Nat} {r : MctpReqTag} {tag : UInt8} :
    r.liveTag now = some tag ↔ r.Live now ∧ r.tag = tag := by
  simp [liveTag]

theorem MctpReqTag.liveTag_eq_none {now : Nat} {r : MctpReqTag} :
    r.liveTag now = none ↔ ¬ r.Live now := by
  simp [liveTag]

theorem mem_heldTags {w : Mctp δ} {tag : UInt8} :
    tag ∈ heldTags w ↔ ∃ j, (w.reqTags j).Live w.platformNow ∧ (w.reqTags j).tag = tag := by
  simp [heldTags, Ledger.slots, MctpReqTag.liveTag_eq_some]

/-- Where every entry in use is one of `me` for `peer`, given out no earlier than at `since`, and
none of them has expired. -/
structure Holder (me peer : Side) (since : Nat) (w : Mctp δ) : Prop where
  table : TagTable w
  eid : (w.busses 0).eid = me.eid
  started : since ≤ w.platformNow
  inTime : w.platformNow ≤ since + mctpTagTimeout
  entries : ∀ j, (w.reqTags j).localEid ≠ 0 →
    (w.reqTags j).localEid = me.eid ∧ (w.reqTags j).remote = peer.eid ∧
      since + mctpTagTimeout ≤ (w.reqTags j).expiry

section Holder

variable {me peer : Side} {since : Nat} {w w' : Mctp δ} {tag : UInt8}

theorem Holder.live_iff (h : Holder me peer since w) (j : Fin 16) :
    (w.reqTags j).Live w.platformNow ↔ (w.reqTags j).localEid ≠ 0 :=
  ⟨fun hlive => hlive.1, fun hused => ⟨hused, h.inTime.trans (h.entries j hused).2.2⟩⟩

theorem Holder.carries (h : Holder me peer since w) {j : Fin 16}
    (hlive : (w.reqTags j).Live w.platformNow) :
    (w.reqTags j).carries me.eid peer.eid (w.reqTags j).tag = true := by
  obtain ⟨hlocal, hremote, -⟩ := h.entries j hlive.1
  exact MctpReqTag.carries_iff.mpr ⟨hlocal, hremote, rfl⟩

theorem Holder.unique (h : Holder me peer since w) {i j : Fin 16}
    (hi : (w.reqTags i).Live w.platformNow) (hj : (w.reqTags j).Live w.platformNow)
    (htag : (w.reqTags i).tag = (w.reqTags j).tag) : i = j := by
  obtain ⟨hlocali, hremotei, -⟩ := h.entries i hi.1
  obtain ⟨hlocalj, hremotej, -⟩ := h.entries j hj.1
  apply h.table.unique i j hi hj
  exact MctpReqTag.carries_iff.mpr ⟨hlocali.trans hlocalj.symm, hremotei.trans hremotej.symm, htag⟩

theorem Holder.nodup (h : Holder me peer since w) : (heldTags w).Nodup := by
  apply (List.nodup_finRange 16).filterMap
  intro i j tag hi hj
  obtain ⟨hlivei, rfl⟩ := MctpReqTag.liveTag_eq_some.mp hi
  obtain ⟨hlivej, htag⟩ := MctpReqTag.liveTag_eq_some.mp hj
  exact h.unique hlivei hlivej htag.symm

theorem Holder.lt (h : Holder me peer since w) : ∀ tag ∈ heldTags w, tag.toNat < 8 := by
  intro tag htag
  obtain ⟨j, -, rfl⟩ := mem_heldTags.mp htag
  exact h.table.tag_lt j

theorem heldTags_congr (htags : w'.reqTags = w.reqTags) (hnow : w'.platformNow = w.platformNow) :
    heldTags w' = heldTags w := by
  rw [heldTags, htags, hnow]
  rfl

theorem Holder.frame (h : Holder me peer since w) (heid : (w'.busses 0).eid = (w.busses 0).eid)
    (hendpoint : w'.routePolicy = w.routePolicy) (htags : w'.reqTags = w.reqTags)
    (hnow : w'.platformNow = w.platformNow) :
    Holder me peer since w' := by
  refine ⟨h.table.frame ?_ hendpoint htags hnow, heid.trans h.eid, ?_, ?_, ?_⟩
  · rw [heid]
    exact h.table.eid
  · rw [hnow]
    exact h.started
  · rw [hnow]
    exact h.inTime
  · rw [htags]
    exact h.entries

theorem Holder.give (h : Holder me peer since w) (hwrap : since + 2 * mctpTagTimeout < 2 ^ 64)
    (halloc : mctpAllocTag w (w.busses 0).eid peer.eid = (w', some tag)) :
    Holder me peer since w' ∧ (heldTags w').Perm (tag :: heldTags w) := by
  have htable := h.table.alloc halloc
  obtain ⟨-, -, j, hdead, rfl⟩ := mctpAllocTag_some halloc
  have hin := h.inTime
  have hstarted := h.started
  have hexpiry : (w.platformNow + mctpTagTimeout) % 2 ^ 64 = w.platformNow + mctpTagTimeout :=
    Nat.mod_eq_of_lt (by omega)
  refine ⟨⟨htable, h.eid, h.started, h.inTime, fun k hk => ?_⟩, ?_⟩
  · dsimp only at hk ⊢
    by_cases hkj : k = j
    · rw [hkj, Function.update_self, hexpiry]
      exact ⟨h.eid, rfl, Nat.add_le_add_right hstarted _⟩
    · rw [Function.update_of_ne hkj] at hk ⊢
      exact h.entries k hk
  · have hfill := Ledger.slots_fill (t := MctpReqTag.liveTag w.platformNow ∘ w.reqTags)
      (MctpReqTag.liveTag_eq_none.mpr hdead) tag
    have hnew : MctpReqTag.liveTag w.platformNow
      ⟨(w.busses 0).eid, peer.eid, tag, (w.platformNow + mctpTagTimeout) % 2 ^ 64⟩
        = some tag := by
      rw [MctpReqTag.liveTag_eq_some, hexpiry]
      exact ⟨⟨h.table.eid, Nat.le_add_right _ _⟩, rfl⟩
    rw [← hnew, ← Function.comp_update] at hfill
    exact hfill

theorem Holder.free (h : Holder me peer since w) (hheld : tag ∈ heldTags w)
    (heid : (w'.busses 0).eid = (w.busses 0).eid) (hendpoint : w'.routePolicy = w.routePolicy)
    (hnow : w'.platformNow = w.platformNow)
    (htags : w'.reqTags = (mctpDeallocTag w 0 me.eid peer.eid tag).reqTags) :
    Holder me peer since w' ∧ (heldTags w).Perm (tag :: heldTags w') := by
  have hne : (w'.busses 0).eid ≠ 0 := by
    rw [heid]
    exact h.table.eid
  have htable := h.table.dealloc hne hendpoint hnow htags
  obtain ⟨j, hlive, rfl⟩ := mem_heldTags.mp hheld
  have hme : me.eid ≠ 0 := by
    rw [← h.eid]
    exact h.table.eid
  have hfirst : Table.first (MctpReqTag.carries me.eid peer.eid (w.reqTags j).tag) w.reqTags
      = some j := by
    refine Table.first_eq_of_unique (h.carries hlive) fun k hk => ?_
    obtain ⟨hlocal, -, htag⟩ := MctpReqTag.carries_iff.mp hk
    refine h.unique ((h.live_iff k).mpr ?_) hlive htag
    rw [hlocal]
    exact hme
  rw [mctpDeallocTag_reqTags, if_neg hme, hfirst] at htags
  dsimp only at htags
  refine ⟨⟨htable, heid.trans h.eid, ?_, ?_, fun k hk => ?_⟩, ?_⟩
  · rw [hnow]
    exact h.started
  · rw [hnow]
    exact h.inTime
  · rw [htags] at hk ⊢
    by_cases hkj : k = j
    · rw [hkj, Function.update_self] at hk
      exact absurd rfl hk
    · rw [Function.update_of_ne hkj] at hk ⊢
      exact h.entries k hk
  · have hclear := Ledger.slots_clear (t := MctpReqTag.liveTag w.platformNow ∘ w.reqTags)
      (MctpReqTag.liveTag_eq_some.mpr ⟨hlive, rfl⟩)
    rw [← MctpReqTag.liveTag_eq_none.mpr (MctpReqTag.not_live_cleared w.platformNow),
      ← Function.comp_update, ← htags] at hclear
    rw [heldTags, heldTags, hnow]
    exact hclear

theorem Holder.elapse (h : Holder me peer since w) (ms : Nat)
    (hin : w.platformNow + ms ≤ since + mctpTagTimeout) :
    Holder me peer since { w with platformNow := w.platformNow + ms } ∧
      heldTags { w with platformNow := w.platformNow + ms } = heldTags w := by
  have hlive : ∀ j, (w.reqTags j).Live (w.platformNow + ms) ↔ (w.reqTags j).Live w.platformNow := by
    intro j
    rw [h.live_iff j]
    exact ⟨fun hl => hl.1, fun hused => ⟨hused, hin.trans (h.entries j hused).2.2⟩⟩
  refine ⟨⟨⟨h.table.eid, h.table.endpoint, h.table.tag_lt, ?_⟩, h.eid,
    h.started.trans (Nat.le_add_right _ _), hin, h.entries⟩, ?_⟩
  · intro i j hi hj
    exact h.table.unique i j ((hlive i).mp hi) ((hlive j).mp hj)
  · apply congrArg Ledger.slots
    funext j
    simp only [Function.comp_apply, MctpReqTag.liveTag, hlive j]

theorem length_eq_eight_iff {tags : List UInt8} (hnodup : tags.Nodup)
    (hlt : ∀ tag ∈ tags, tag.toNat < 8) :
    tags.length ≤ 8 ∧ (tags.length = 8 ↔ ∀ t < 8, UInt8.ofNat t ∈ tags) := by
  have hall : ((List.range 8).map UInt8.ofNat).Nodup := by decide
  have hsub : tags.Subperm ((List.range 8).map UInt8.ofNat) := by
    refine List.subperm_of_subset hnodup fun tag htag => ?_
    rw [List.mem_map]
    exact ⟨tag.toNat, List.mem_range.mpr (hlt tag htag), UInt8.ofNat_toNat⟩
  refine ⟨hsub.length_le, fun heq t ht => ?_, fun h => ?_⟩
  · have hperm := hsub.perm_of_length_le (by simp [heq])
    exact hperm.mem_iff.mpr (List.mem_map_of_mem (List.mem_range.mpr ht))
  · have hsup : ((List.range 8).map UInt8.ofNat).Subperm tags := by
      refine List.subperm_of_subset hall fun tag htag => ?_
      obtain ⟨t, ht, rfl⟩ := List.mem_map.mp htag
      exact h t (List.mem_range.mp ht)
    exact Nat.le_antisymm hsub.length_le hsup.length_le

theorem Holder.tagUsed_iff (h : Holder me peer since w) :
    w.TagUsed me.eid peer.eid tag ↔ tag ∈ heldTags w := by
  rw [mem_heldTags]
  constructor
  · rintro ⟨j, hlive, hcarries⟩
    exact ⟨j, hlive, (MctpReqTag.carries_iff.mp hcarries).2.2⟩
  · rintro ⟨j, hlive, rfl⟩
    exact ⟨j, hlive, h.carries hlive⟩

/-- **There is no tag to be had where eight are held**, and nowhere else: the sixteen slots are
enough. -/
theorem Holder.noTag_iff (h : Holder me peer since w) :
    w.NoTag (w.busses 0).eid peer.eid ↔ (heldTags w).length = 8 := by
  obtain ⟨hle, hfull⟩ := length_eq_eight_iff h.nodup h.lt
  rw [hfull, h.eid]
  simp only [Mctp.NoTag, h.tagUsed_iff, or_iff_right_iff_imp]
  intro hlive
  have hall : (heldTags w).length = (List.finRange 16).length := by
    rw [heldTags, Ledger.slots, List.filterMap_length_eq_length]
    intro j _
    rw [Function.comp_apply, MctpReqTag.liveTag, if_pos (hlive j)]
    rfl
  rw [List.length_finRange] at hall
  omega

end Holder

/-! ### Handling a request -/

section Handling

variable (env : Env δ)

theorem mctpCtrlSetEndpointId_reqTags (w : Mctp δ) (i : Fin 2) (srcEid msgTag : UInt8)
    (data : List UInt8) :
    (mctpCtrlSetEndpointId env w i srcEid msgTag data).1.reqTags = w.reqTags := by
  unfold mctpCtrlSetEndpointId
  dsimp only
  split
  · rfl
  · split
    · rfl
    · have hset := mctpBusSetEid_reqTags w ((w.busses i).binding.getD 0) (data.getD 4 0)
      split
      · exact hset
      · exact (sendResp_txOnly env _ _ _ _ _).reqTags.trans hset

theorem ctrlDispatch_reqTags (w : Mctp δ) (i : Fin 2) (srcEid msgTag : UInt8) (data : List UInt8) :
    (ctrlDispatch env w i srcEid msgTag data).1.reqTags = w.reqTags := by
  unfold ctrlDispatch
  dsimp only
  split
  · exact mctpCtrlSetEndpointId_reqTags env w i srcEid msgTag data
  · split
    · exact (mctpCtrlGetEndpointId_txOnly env w i srcEid msgTag data).reqTags
    · split
      · exact (mctpCtrlGetVersion_txOnly env w i srcEid msgTag data).reqTags
      · split
        · exact (mctpCtrlGetTypes_txOnly env w i srcEid msgTag data).reqTags
        · rfl

theorem mctpRxControl_reqTags (w : Mctp δ) (i : Fin 2) (msg : Message) :
    (mctpRxControl env w i msg).1.reqTags = w.reqTags := by
  have hdispatch := ctrlDispatch_reqTags env w i msg.src msg.tag msg.bytes
  unfold mctpRxControl mctpCtrlHandleMsg mctpControlHandler replyError
  dsimp only
  split_ifs
  all_goals first
    | rfl
    | exact (sendResp_txOnly env _ _ _ _ _).reqTags.trans hdispatch
    | exact hdispatch

/-- Only an answer frees a tag. -/
theorem mctpRx_request_reqTags (w : Mctp δ) (i : Fin 2) {msg : Message}
    (howner : msg.tagOwner = true) (hendpoint : w.routePolicy = .endpoint) :
    (mctpRx env w i msg).reqTags = w.reqTags := by
  have hendpoint' : (w.handUp msg).routePolicy = .endpoint := hendpoint
  have hcontrol := mctpRxControl_reqTags env (w.handUp msg) i msg
  unfold mctpRx
  dsimp only
  rw [hendpoint']
  dsimp only
  split
  · unfold mctpRxEndpoint
    rw [howner, Bool.not_true, if_neg Bool.false_ne_true]
    dsimp only
    split <;> rename_i hcase <;> rw [hcase] at hcontrol
    · exact hcontrol
    · split
      · exact hcontrol
      · exact hcontrol
  · rfl

end Handling

/-! ### One end of the link -/

/-- The tags of the requests among some messages, or of the answers. -/
def tagsOf (owner : Bool) (msgs : List Message) : List UInt8 :=
  (msgs.filter fun msg => msg.tagOwner == owner).map Message.tag

theorem tagsOf_concat_same (owner : Bool) (msgs : List Message) {msg : Message}
    (h : msg.tagOwner = owner) :
    tagsOf owner (msgs ++ [msg]) = tagsOf owner msgs ++ [msg.tag] := by
  simp [tagsOf, h]

theorem tagsOf_concat_other (owner : Bool) (msgs : List Message) {msg : Message}
    (h : msg.tagOwner = !owner) :
    tagsOf owner (msgs ++ [msg]) = tagsOf owner msgs := by
  simp [tagsOf, h]

theorem tagsOf_subperm {msgs msgs' : List Message} (owner : Bool) (h : msgs <+: msgs') :
    (tagsOf owner msgs).Subperm (tagsOf owner msgs') :=
  ((h.filter _).map _).sublist.subperm

/-- An end of the link that is in order, with its tags. -/
structure Exchanger (me peer : Side) (since : Nat) (types : List UInt8) (gone got : List MctpPktbuf)
    (w : Mctp (List MctpPktbuf)) : Prop
    extends EndInv me peer gone got w where
  holder : Holder me peer since w
  lists : w.control.Lists types

section Ends

variable {me peer : Side} {since : Nat} {types : List UInt8} {gone got rest : List MctpPktbuf}
  {pkt : MctpPktbuf}
  {w w' wp : Mctp (List MctpPktbuf)}

theorem EndInv.handed_prefix (h : EndInv me peer gone got w) (hpeer : TxSide peer me got wp) :
    w.hist.handed <+: (wp.busLog 0).accepted := by
  have hout := hpeer.out_mono (List.prefix_append _ _)
  rw [← h.rx.sim.handed] at hout
  obtain ⟨back, hback⟩ := hout
  obtain ⟨front, later, haccepted, hfront, -⟩ := List.map_eq_append_iff.mp hback.symm
  rw [Message.labelled_injective.list_map hfront] at haccepted
  exact ⟨later, haccepted.symm⟩

theorem EndInv.tags (h : EndInv me peer gone got w) (reqTags : Fin 16 → MctpReqTag)
    (roundRobin : UInt8) (now : Nat) :
    EndInv me peer gone got
      { w with reqTags := reqTags, tagRoundRobin := roundRobin, platformNow := now } := by
  obtain ⟨htx, hrx⟩ := h
  obtain ⟨hlinked, hqueue, hterm⟩ := htx.bus
  refine ⟨⟨⟨⟨hlinked.nBusses, hlinked.bus, hlinked.mctp, hlinked.eq, hlinked.back, hlinked.owner⟩,
    hqueue, hterm⟩, htx.size, htx.idle,
    htx.enabled, htx.eid, htx.endpoint, htx.types, htx.sent, htx.sendable⟩, ?_⟩
  obtain ⟨hready, hsim⟩ := hrx
  exact ⟨⟨hready.bus, hready.endpoint, hready.eid, hready.max⟩,
    hsim.passes (hsim.inv.passes rfl rfl)⟩

theorem TxSide.takesMessage (h : TxSide me peer gone w) : w.TakesMessage 0 where
  started := by
    rw [h.enabled]
    exact nofun
  mtu := by
    have hsize := h.size
    unfold mctpPacketSize at hsize
    rw [h.bus.linked.busBinding, mctpBodySize_eq _ (by omega), MctpBinding.chunk]
    omega
  idle := h.idle

/-- What a call of `mctp_message_tx_request` comes to: where eight tags are held it is refused, and
else a ninth message is on its way and its tag is held. -/
inductive Requested (me peer : Side) (msg : MsgBuf) (w : Mctp (List MctpPktbuf)) :
    Mctp (List MctpPktbuf) × Int × Option UInt8 → Prop
  | refused {w' : Mctp (List MctpPktbuf)} (hfull : (heldTags w).length = 8)
    (haccepted : (w'.busLog 0).accepted = (w.busLog 0).accepted)
      (hheld : heldTags w' = heldTags w) : Requested me peer msg w (w', -ebusy, none)
  | sent {w' : Mctp (List MctpPktbuf)} (tag : UInt8) (hroom : (heldTags w).length ≠ 8)
      (haccepted : (w'.busLog 0).accepted
        = (w.busLog 0).accepted ++ [⟨me.eid, peer.eid, true, tag, msg.bytes⟩])
      (hheld : (heldTags w').Perm (tag :: heldTags w)) : Requested me peer msg w (w', 0, some tag)

theorem Exchanger.request (h : Exchanger me peer since types gone got w) {msg : MsgBuf}
    (hfits : msg.bytes.length ≤ peer.cap)
    (hkeeps : ¬ Message.SetsEid ⟨me.eid, peer.eid, true, 0, msg.bytes⟩)
    (hwrap : since + 2 * mctpTagTimeout < 2 ^ 64) :
    let r := mctpMessageTxRequest wire w peer.eid msg msg.bytes.length
    Exchanger me peer since types gone got r.1 ∧ r.1.hist.handed = w.hist.handed ∧
    Requested me peer msg w r := by
  intro r
  have hfind := h.tx.bus.linked.findBusForEid peer.eid
  have hbus : w.nBusses ≠ 0 := by
    rw [h.tx.bus.linked.nBusses]
    decide
  obtain ⟨hnone, hsome⟩ := mctpAllocTag_gives_iff w h.holder.table.eid peer.eid
  by_cases hfull : w.NoTag (w.busses 0).eid peer.eid
  · have hr : r = (mctpMsgFree w msg (some ()), -ebusy, none) := by
      show mctpMessageTxRequest wire w peer.eid msg msg.bytes.length = _
      unfold mctpMessageTxRequest
      rw [hfind]
      dsimp only
      rw [hnone.mpr hfull]
    have honly := mctpMsgFree_txOnly wire w msg (some ())
    have hsent := mctpMsgFree_nothingSent w msg (some ())
    rw [hr]
    refine ⟨⟨⟨h.tx.quiet ⟨honly.toSameSetup, hsent⟩, h.rx.txOnly honly⟩, ?_, h.lists⟩,
      honly.handed, ?_⟩
    · exact h.holder.frame (honly.eid 0) honly.routePolicy honly.reqTags honly.platformNow
    · refine .refused (h.holder.noTag_iff.mp hfull) ?_
        (heldTags_congr honly.reqTags honly.platformNow)
      rw [hsent.busLog]
  · obtain ⟨w₁, tag, halloc, -, j, -, hw₁⟩ := hsome hfull
    obtain ⟨hholder, hheld⟩ := h.holder.give hwrap halloc
    have hend : EndInv me peer gone got w₁ := by
      rw [hw₁]
      exact h.tags _ _ _
    have honly := mctpMessageTxAlloced_txOnly wire w₁ peer.eid true tag msg msg.bytes.length
    cases hcall : mctpMessageTxAlloced wire w₁ peer.eid true tag msg
      msg.bytes.length with | mk w' rc =>
    have hr : r = (w', rc, some tag) := by
      show mctpMessageTxRequest wire w peer.eid msg msg.bytes.length = _
      unfold mctpMessageTxRequest
      rw [hfind]
      dsimp only
      rw [halloc]
      dsimp only
      rw [hcall]
    have hrc : r.2.1 = 0 := (mctpMessageTxRequest_tagged wire hbus halloc).2.1.mpr h.tx.takesMessage
    rw [hr] at hrc ⊢
    rw [hcall] at honly
    obtain rfl : rc = 0 := hrc
    obtain ⟨hne, -⟩ | ⟨-, htaken⟩ := mctpMessageTxAlloced_cases wire hend.tx.bus.linked rfl hcall
    · exact absurd rfl hne
    rw [hend.tx.eid] at htaken
    have hsendable : Sendable me peer ⟨me.eid, peer.eid, true, tag, msg.bytes⟩ :=
      ⟨rfl, rfl, tag_lt_of_mask htaken.tag, fun _ => hfits, hkeeps⟩
    refine ⟨⟨⟨hend.tx.taken htaken honly hsendable, hend.rx.txOnly honly⟩, ?_, ?_⟩, ?_, ?_⟩
    · exact hholder.frame (honly.eid 0) honly.routePolicy honly.reqTags honly.platformNow
    · rw [honly.control, hw₁]
      exact h.lists
    · rw [honly.handed, hw₁]
    · refine .sent tag (mt h.holder.noTag_iff.mpr hfull) ?_ ?_
      · rw [htaken.accepted, hw₁]
      · rw [heldTags_congr honly.reqTags honly.platformNow]
        exact hheld

/-- What the caller of `mctp_message_tx_request` is told, whatever the message. -/
theorem Exchanger.request_rc (h : Exchanger me peer since types gone got w) (msg : MsgBuf)
    (msgLen : Nat) :
    (mctpMessageTxRequest wire w peer.eid msg msgLen).2.1
      = if (heldTags w).length = 8 then -ebusy else 0 := by
  have hbus : w.nBusses ≠ 0 := by
    rw [h.tx.bus.linked.nBusses]
    decide
  obtain ⟨hnone, hsome⟩ := mctpAllocTag_gives_iff w h.holder.table.eid peer.eid
  split <;> rename_i hheld
  · exact (mctpMessageTxRequest_untagged wire hbus (hnone.mpr (h.holder.noTag_iff.mpr hheld))).1
  · obtain ⟨w₁, tag, halloc, -⟩ := hsome (mt h.holder.noTag_iff.mp hheld)
    exact (mctpMessageTxRequest_tagged wire hbus halloc).2.1.mpr h.tx.takesMessage

theorem Exchanger.respond (h : Exchanger me peer since types gone got w) (tag : UInt8)
    {bytes : List UInt8} (hfits : bytes.length ≤ peer.cap) :
    let w' := (mctpMessageTx wire w peer.eid false tag bytes).1
    Exchanger me peer since types gone got w' ∧ w'.hist.handed = w.hist.handed ∧
    heldTags w' = heldTags w ∧
      ((w'.busLog 0).accepted = (w.busLog 0).accepted ∨
        (w'.busLog 0).accepted
          = (w.busLog 0).accepted ++ [⟨me.eid, peer.eid, false, tag, bytes⟩]) := by
  have hend : EndInv me peer gone got (mctpMessageTx wire w peer.eid false tag bytes).1 :=
    h.toEndInv.messageTx hfits fun hset => Bool.false_ne_true hset.1
  have honly := mctpMessageTx_txOnly wire w peer.eid false tag bytes
  cases hcall : mctpMessageTx wire w peer.eid false tag bytes with | mk w' rc =>
  rw [hcall] at hend honly
  refine ⟨⟨hend, ?_, ?_⟩, honly.handed, heldTags_congr honly.reqTags honly.platformNow, ?_⟩
  · exact h.holder.frame (honly.eid 0) honly.routePolicy honly.reqTags honly.platformNow
  · rw [honly.control]
    exact h.lists
  · obtain ⟨-, hsent, -⟩ | ⟨-, htaken⟩ := mctpMessageTx_cases wire h.tx.bus.linked hcall
    · refine .inl ?_
      rw [hsent.busLog]
    · refine .inr ?_
      rw [htaken.accepted, h.tx.eid]

theorem Exchanger.elapse (h : Exchanger me peer since types gone got w) (ms : Nat)
    (hin : w.platformNow + ms ≤ since + mctpTagTimeout) :
    Exchanger me peer since types gone got { w with platformNow := w.platformNow + ms } :=
  ⟨h.tags _ _ _, (h.holder.elapse ms hin).1, h.lists⟩

theorem Exchanger.pop (h : Exchanger me peer since types gone got w) (hdev : w.dev = pkt :: rest) :
    Exchanger me peer since types (gone ++ [pkt]) got { w with dev := rest } := by
  refine ⟨h.toEndInv.pop hdev, ?_, h.lists⟩
  exact h.holder.frame rfl rfl rfl rfl

/-- What a packet does to messages and tags: it hands up nothing; or an answer, which frees its tag;
or a request, which may be answered at once. -/
inductive Receipt (me peer : Side) (w w' : Mctp (List MctpPktbuf)) : Prop
  | nothing (hhanded : w'.hist.handed = w.hist.handed)
    (haccepted : (w'.busLog 0).accepted = (w.busLog 0).accepted)
      (htags : w'.reqTags = w.reqTags)
  | answer (msg : Message) (howner : msg.tagOwner = false)
    (hhanded : w'.hist.handed = w.hist.handed ++ [msg])
      (haccepted : (w'.busLog 0).accepted = (w.busLog 0).accepted)
      (htags : w'.reqTags = (mctpDeallocTag w 0 me.eid peer.eid msg.tag).reqTags)
  | request (msg : Message) (replies : List Message) (howner : msg.tagOwner = true)
      (hhanded : w'.hist.handed = w.hist.handed ++ [msg])
      (haccepted : (w'.busLog 0).accepted = (w.busLog 0).accepted ++ replies)
      (hreplies : replies = [] ∨ ∃ reply, replies = [reply] ∧ reply.tagOwner = false ∧
        reply.tag = msg.tag)
      (htags : w'.reqTags = w.reqTags)

theorem Exchanger.receipt (h : Exchanger me peer since types gone got w)
    (hpeer : TxSide peer me got wp) (hdev : wp.dev = pkt :: rest)
    (hsrc : peer.eid ≠ mctpEidBroadcast) : Receipt me peer w (mctpBusRx wire w me.b pkt) := by
  have hsendable := (h.rx.receive hpeer hdev hsrc).2
  obtain ⟨msgs, hmsgs, hserving⟩ := (h.tx.server h.lists).serving.busRx h.tx.size
    (fun _ => rfl : ∀ n, wire.msgAlloc n = true) (fun _ _ => rfl) pkt
  rcases mctpBusRx_delivers wire w me.b
    pkt with hsilent | ⟨i, msg, hbus, hacc, hlabel, w₁, hbefore, hafter⟩
  · have hnone : msgs = [] := by
      rw [hsilent.handed] at hmsgs
      exact List.self_eq_append_right.mp hmsgs
    subst hnone
    exact .nothing hsilent.handed (by simpa using hserving.accepted) hsilent.reqTags
  · have hhanded : (mctpBusRx wire w me.b pkt).hist.handed = w.hist.handed ++ [msg] :=
      Delivers.handed ⟨w₁, hbefore, hafter⟩
    have hone : msgs = [msg] := by
      rw [hhanded] at hmsgs
      exact (List.append_cancel_left hmsgs).symm
    subst hone
    obtain rfl : i = 0 := by
      rw [h.tx.bus.linked.back_eq] at hbus
      exact (Option.some.inj hbus).symm
    have hendpoint : w₁.routePolicy = .endpoint := hbefore.setup.routePolicy.trans h.tx.endpoint
    have haccepted := hserving.accepted
    rw [List.foldl_cons, List.foldl_nil] at haccepted
    have hreplies := serve_replies ⟨me.binding.controlRx, w.messageRx, types⟩
      (w.busses 0).eid msg h.lists.le
    cases howner : msg.tagOwner with
    | true =>
        refine .request msg _ howner hhanded haccepted (hreplies.imp_right fun hreply => ?_) ?_
        · obtain ⟨-, reply, heq, hnot, htag, -⟩ := hreply
          exact ⟨reply, heq, hnot, htag⟩
        · rw [hafter.reqTags, mctpRx_request_reqTags wire w₁ 0 howner hendpoint, hbefore.reqTags]
    | false =>
        have hnone := hreplies.resolve_right fun hreply => by
          rw [howner] at hreply
          exact Bool.false_ne_true hreply.1
        rw [hnone, List.append_nil] at haccepted
        obtain ⟨hlocal, -, -⟩ := Mctp.accepts_message hacc hbus h.tx.endpoint hlabel
        have hsend := hsendable msg hhanded
        refine .answer msg howner hhanded haccepted ?_
        rw [hafter.reqTags, (mctpRx_response wire w₁ 0 msg howner hendpoint).2,
          hbefore.sent.busses, if_pos hlocal,
          hsend.src, hsend.dest, mctpDeallocTag_reqTags, mctpDeallocTag_reqTags, hbefore.reqTags]

end Ends

/-! ### The books of the exchange -/

/-- The requests that `w` sent to `wp`, by their tags. -/
def ExchangeBooks (w wp : Mctp (List MctpPktbuf)) : Prop :=
  Books (tagsOf true (w.busLog 0).accepted) (tagsOf true wp.hist.handed)
    (tagsOf false (wp.busLog 0).accepted) (tagsOf false w.hist.handed) (heldTags w)

/-- Each end is in order, and the books of both balance. -/
structure ExchangeInv (side : Bool → Side) (types : Bool → List UInt8) (since : Bool → Nat)
    (ends : Bool → Mctp (List MctpPktbuf)) : Prop where
  inOrder : ∃ gone : Bool →
    List MctpPktbuf, ∀ i, Exchanger (side i) (side !i) (since i) (types i)
      (gone i) (gone !i) (ends i)
  books : ∀ i, ExchangeBooks (ends i) (ends !i)

section Books

variable {me peer : Side} {since : Nat} {types : List UInt8} {gone got : List MctpPktbuf}
  {msg : MsgBuf} {tag : UInt8}
  {w w' wp wp' : Mctp (List MctpPktbuf)}

theorem ExchangeBooks.congr (h : ExchangeBooks w wp)
    (haccepted : (w'.busLog 0).accepted = (w.busLog 0).accepted)
    (hhanded : w'.hist.handed = w.hist.handed) (hheld : heldTags w' = heldTags w)
    (haccepted' : (wp'.busLog 0).accepted = (wp.busLog 0).accepted)
    (hhanded' : wp'.hist.handed = wp.hist.handed) :
    ExchangeBooks w' wp' := by
  unfold ExchangeBooks
  rw [haccepted, hhanded, hheld, haccepted', hhanded']
  exact h

theorem ExchangeBooks.requested {r : Mctp (List MctpPktbuf) × Int × Option UInt8}
    (h : ExchangeBooks w wp) (h' : ExchangeBooks wp w) (hr : Requested me peer msg w r)
    (hhanded : r.1.hist.handed = w.hist.handed) : ExchangeBooks r.1 wp ∧ ExchangeBooks wp r.1 := by
  cases hr with
  | refused hfull haccepted hheld =>
      exact ⟨h.congr haccepted hhanded hheld rfl rfl, h'.congr rfl rfl rfl haccepted hhanded⟩
  | sent tag hroom haccepted hheld =>
      dsimp only at hhanded
      unfold ExchangeBooks
      rw [haccepted, hhanded, tagsOf_concat_same true _ (by rfl),
        tagsOf_concat_other false _ (by rfl)]
      have hask := Books.ask h tag
      exact ⟨⟨hask.hears, hask.answers, hask.gets, (hheld.append_right _).trans hask.holds⟩, h'⟩

theorem ExchangeBooks.responded (h : ExchangeBooks w wp) (h' : ExchangeBooks wp w)
    (hopen : (tagsOf false (w.busLog 0).accepted).count tag < (tagsOf true w.hist.handed).count tag)
    (hhanded : w'.hist.handed = w.hist.handed) (hheld : heldTags w' = heldTags w) {src dest : UInt8}
    {bytes : List UInt8}
    (haccepted : (w'.busLog 0).accepted
      = (w.busLog 0).accepted ++ [⟨src, dest, false, tag, bytes⟩]) :
    ExchangeBooks w' wp ∧ ExchangeBooks wp w' := by
  unfold ExchangeBooks
  rw [haccepted, hhanded, hheld, tagsOf_concat_same false _ (by rfl),
    tagsOf_concat_other true _ (by rfl)]
  exact ⟨h, Books.answer h' hopen⟩

/-- **A packet received.** The answer it completes, if any, finds its tag held. -/
theorem ExchangeBooks.received (h : ExchangeBooks w wp) (h' : ExchangeBooks wp w)
    (hholder : Holder me peer since w) (hreceipt : Receipt me peer w w')
    (heid : (w'.busses 0).eid = (w.busses 0).eid) (hendpoint : w'.routePolicy = w.routePolicy)
    (hnow : w'.platformNow = w.platformNow) (hpre : w'.hist.handed <+: (wp.busLog 0).accepted) :
    Holder me peer since w' ∧ ExchangeBooks w' wp ∧ ExchangeBooks wp w' := by
  cases hreceipt with
  | nothing hhanded haccepted htags =>
      have hheld := heldTags_congr htags hnow
      exact ⟨hholder.frame heid hendpoint htags hnow, h.congr haccepted hhanded hheld rfl rfl,
        h'.congr rfl rfl rfl haccepted hhanded⟩
  | answer msg howner hhanded haccepted htags =>
      have hback := tagsOf_subperm false hpre
      rw [hhanded, tagsOf_concat_same false _ howner] at hback
      obtain ⟨hholder', hheld⟩ := hholder.free (Books.mem_held h hback) heid hendpoint hnow htags
      refine ⟨hholder', ?_⟩
      unfold ExchangeBooks
      rw [haccepted, hhanded, tagsOf_concat_same false _ howner, tagsOf_concat_other true _ howner]
      exact ⟨Books.get h hback hheld, h'⟩
  | request msg replies howner hhanded haccepted hreplies htags =>
      have hheld := heldTags_congr htags hnow
      have hasked := tagsOf_subperm true hpre
      rw [hhanded, tagsOf_concat_same true _ howner] at hasked
      refine ⟨hholder.frame heid hendpoint htags hnow, ?_⟩
      unfold ExchangeBooks
      rw [haccepted, hhanded, hheld, tagsOf_concat_same true _ howner,
        tagsOf_concat_other false _ howner]
      rcases hreplies with rfl | ⟨reply, rfl, hnot, htag⟩
      · rw [List.append_nil]
        exact ⟨h, Books.hear h' (List.sublist_append_left _ _).subperm hasked⟩
      · rw [tagsOf_concat_same false _ hnot, tagsOf_concat_other true _ hnot, htag]
        exact ⟨h, Books.serve h' hasked⟩

end Books

/-! ### The exchange -/

/-- What happens: an end sends a request, its application answers one with this tag, the end
receives the oldest packet on its way, or time passes there. -/
inductive ExchangeOp where
  | request (i : Bool) (msg : MsgBuf)
  | respond (i : Bool) (tag : UInt8) (msg : List UInt8)
  | receive (i : Bool)
  | elapse (i : Bool) (ms : Nat)

/-- An application answers a request that it was handed, and only one that is not answered yet. -/
def exchangeStep (side : Bool → Side) (ends : Bool → Mctp (List MctpPktbuf)) :
    ExchangeOp → Bool → Mctp (List MctpPktbuf)
  | .request i msg =>
      Function.update ends i
        (mctpMessageTxRequest wire (ends i) (side !i).eid msg msg.bytes.length).1
  | .respond i tag msg =>
    if (tagsOf false ((ends i).busLog 0).accepted).count tag
        < (tagsOf true (ends i).hist.handed).count tag then
      Function.update ends i (mctpMessageTx wire (ends i) (side !i).eid false tag msg).1
    else ends
  | .receive i => linkStep side ends (.receive i)
  | .elapse i ms => Function.update ends i { ends i with platformNow := (ends i).platformNow + ms }

/-- What is sent is no longer than the other end takes, and no request sets its endpoint id. -/
def ExchangeOp.Ok (side : Bool → Side) : ExchangeOp → Prop
  | .request i msg =>
      msg.bytes.length ≤ (side !i).cap ∧
        ¬ Message.SetsEid ⟨(side i).eid, (side !i).eid, true, 0, msg.bytes⟩
  | .respond i _ msg => msg.length ≤ (side !i).cap
  | .receive _ => True
  | .elapse _ _ => True

section Run

variable {side : Bool → Side} {types : Bool → List UInt8} {since : Bool → Nat}
  {ends : Bool → Mctp (List MctpPktbuf)}

theorem ExchangeInv.update (h : ExchangeInv side types since ends) (i : Bool)
    {w : Mctp (List MctpPktbuf)}
    (hend : ∀ {gone got}, Exchanger (side i) (side !i) (since i) (types i) gone got (ends i) →
      Exchanger (side i) (side !i) (since i) (types i) gone got w)
    (hbooks : ExchangeBooks w (ends !i) ∧ ExchangeBooks (ends !i) w) :
    ExchangeInv side types since (Function.update ends i w) := by
  obtain ⟨gone, hends⟩ := h.inOrder
  have hne : (!i) ≠ i := by simp
  constructor
  · refine ⟨gone, fun j => ?_⟩
    by_cases hj : j = i
    · subst hj
      rw [Function.update_self]
      exact hend (hends j)
    · rw [Function.update_of_ne hj]
      exact hends j
  · intro j
    by_cases hj : j = i
    · subst hj
      rw [Function.update_self, Function.update_of_ne hne]
      exact hbooks.1
    · obtain rfl : j = !i := Bool.eq_not.mpr hj
      rw [Bool.not_not, Function.update_self, Function.update_of_ne hne]
      exact hbooks.2

theorem exchangeStep_now_le (side : Bool → Side) (ends : Bool → Mctp (List MctpPktbuf))
    (op : ExchangeOp) (j : Bool) :
    (ends j).platformNow ≤ (exchangeStep side ends op j).platformNow := by
  have hupdate : ∀ {i w}, (ends i).platformNow ≤ w.platformNow →
      (ends j).platformNow ≤ (Function.update ends i w j).platformNow := by
    intro i w hle
    by_cases hj : j = i
    · subst hj
      rw [Function.update_self]
      exact hle
    · rw [Function.update_of_ne hj]
  cases op with
  | request i msg => exact hupdate (mctpMessageTxRequest_cases wire rfl).2.1.platformNow.ge
  | respond i tag msg =>
      rw [exchangeStep]
      split_ifs
      · exact hupdate (mctpMessageTx_txOnly wire _ _ _ _ _).platformNow.ge
      · exact Nat.le_refl _
  | receive i =>
      rw [exchangeStep, linkStep]
      cases (ends !i).dev with
      | nil => exact Nat.le_refl _
      | cons pkt rest =>
          dsimp only
          by_cases hj : j = i
          · subst hj
            rw [Function.update_self, (mctpBusRx_sameSetup wire _ _ _).platformNow]
          · obtain rfl : j = !i := Bool.eq_not.mpr hj
            rw [Function.update_of_ne hj, Function.update_self]
  | elapse i ms => exact hupdate (Nat.le_add_right _ _)

theorem exchangeRun_now_le (side : Bool → Side) (ops : List ExchangeOp)
    (ends : Bool → Mctp (List MctpPktbuf)) (j : Bool) :
    (ends j).platformNow ≤ (ops.foldl (exchangeStep side) ends j).platformNow := by
  induction ops generalizing ends with
  | nil => exact Nat.le_refl _
  | cons op ops ih => exact (exchangeStep_now_le side ends op j).trans (ih _)

theorem ExchangeInv.receive (h : ExchangeInv side types since ends)
    (hsrc : ∀ i, (side i).eid ≠ mctpEidBroadcast) (i : Bool) :
    ExchangeInv side types since (linkStep side ends (.receive i)) := by
  obtain ⟨gone, hends⟩ := h.inOrder
  rw [linkStep]
  split
  · exact h
  · rename_i pkt rest hdev
    have hne : (!i) ≠ i := by simp
    have hpeer := hends !i
    rw [Bool.not_not] at hpeer
    have hend := (hends i).receive hpeer.tx hdev (hsrc _)
    have hpop := hpeer.pop hdev
    have hpre := hend.handed_prefix hpop.tx
    have hsetup := mctpBusRx_sameSetup wire (ends i) (side i).b pkt
    have hbooks := h.books !i
    rw [Bool.not_not] at hbooks
    obtain ⟨hholder, hasks, hanswers⟩ := (h.books i).received hbooks (hends i).holder
      ((hends i).receipt hpeer.tx hdev (hsrc _))
      (hend.tx.eid.trans (hends i).tx.eid.symm) hsetup.routePolicy hsetup.platformNow hpre
    constructor
    · refine ⟨Function.update gone (!i) (gone (!i) ++ [pkt]), fun j => ?_⟩
      by_cases hj : j = i
      · subst hj
        rw [Function.update_self, Function.update_self, Function.update_of_ne (Ne.symm hne)]
        refine ⟨hend, hholder, ?_⟩
        rw [hsetup.control]
        exact (hends j).lists
      · obtain rfl : j = !i := Bool.eq_not.mpr hj
        rw [Function.update_of_ne hne, Function.update_self, Function.update_self, Bool.not_not,
          Function.update_of_ne (Ne.symm hne)]
        exact hpop
    · intro j
      by_cases hj : j = i
      · subst hj
        rw [Function.update_self, Function.update_of_ne hne, Function.update_self]
        exact hasks
      · obtain rfl : j = !i := Bool.eq_not.mpr hj
        rw [Bool.not_not, Function.update_self, Function.update_of_ne hne, Function.update_self]
        exact hanswers

theorem ExchangeInv.step (h : ExchangeInv side types since ends)
    (hsrc : ∀ i, (side i).eid ≠ mctpEidBroadcast)
    (hwrap : ∀ i, since i + 2 * mctpTagTimeout < 2 ^ 64) {op : ExchangeOp} (hop : op.Ok side)
    (hclock : ∀ i, (exchangeStep side ends op i).platformNow ≤ since i + mctpTagTimeout) :
    ExchangeInv side types since (exchangeStep side ends op) := by
  have hback : ∀ i, ExchangeBooks (ends !i) (ends i) := by
    intro i
    have hbooks := h.books !i
    rw [Bool.not_not] at hbooks
    exact hbooks
  cases op with
  | request i msg =>
      obtain ⟨gone, hends⟩ := h.inOrder
      obtain ⟨-, hhanded, hrequested⟩ := (hends i).request hop.1 hop.2 (hwrap i)
      exact h.update i (fun hend => (hend.request hop.1 hop.2 (hwrap i)).1)
        ((h.books i).requested (hback i) hrequested hhanded)
  | respond i tag msg =>
      rw [exchangeStep] at hclock ⊢
      split
      · rename_i hopen
        obtain ⟨gone, hends⟩ := h.inOrder
        obtain ⟨-, hhanded, hheld, hsent⟩ := (hends i).respond tag hop
        refine h.update i (fun hend => (hend.respond tag hop).1) ?_
        rcases hsent with hnot | hsent
        · exact ⟨(h.books i).congr hnot hhanded hheld rfl rfl,
            (hback i).congr rfl rfl rfl hnot hhanded⟩
        · exact (h.books i).responded (hback i) hopen hhanded hheld hsent
      · exact h
  | receive i => exact h.receive hsrc i
  | elapse i ms =>
      have hin := hclock i
      rw [exchangeStep, Function.update_self] at hin
      obtain ⟨gone, hends⟩ := h.inOrder
      have hheld := ((hends i).holder.elapse ms hin).2
      refine h.update i (fun hend => hend.elapse ms hin) ⟨?_, ?_⟩
      · exact (h.books i).congr rfl rfl hheld rfl rfl
      · exact (hback i).congr rfl rfl rfl rfl rfl

theorem ExchangeInv.run (h : ExchangeInv side types since ends)
    (hsrc : ∀ i, (side i).eid ≠ mctpEidBroadcast)
    (hwrap : ∀ i, since i + 2 * mctpTagTimeout < 2 ^ 64) (ops : List ExchangeOp)
    (hops : ∀ op ∈ ops, op.Ok side)
    (hclock : ∀ i, (ops.foldl (exchangeStep side) ends i).platformNow ≤ since i + mctpTagTimeout) :
    ExchangeInv side types since (ops.foldl (exchangeStep side) ends) := by
  induction ops generalizing ends with
  | nil => exact h
  | cons op ops ih =>
      have hnext := h.step hsrc hwrap (hops op List.mem_cons_self) fun i =>
        (exchangeRun_now_le side ops _ i).trans (hclock i)
      exact ih hnext (fun op' hop' => hops op' (List.mem_cons_of_mem _ hop')) hclock

theorem FreshSide.exchangeInv (hfresh : ∀ i, FreshSide (side i) (ends i))
    (hlists : ∀ i, (ends i).control.Lists (types i)) (heid : ∀ i, (side i).eid ≠ 0)
    (htags : ∀ i j, (ends i).reqTags j = {}) :
    ExchangeInv side types (fun i => (ends i).platformNow) ends := by
  have hdead : ∀ i j, ((ends i).reqTags j).localEid = 0 := by
    intro i j
    rw [htags]
  have hempty : ∀ i, (ends i).hist.handed = [] :=
    fun i => List.map_eq_nil_iff.mp (hfresh i).sim.handed
  have hheld : ∀ i, heldTags (ends i) = [] := by
    intro i
    refine List.eq_nil_iff_forall_not_mem.mpr fun tag htag => ?_
    obtain ⟨j, hlive, -⟩ := mem_heldTags.mp htag
    exact hlive.1 (hdead i j)
  constructor
  · refine ⟨fun _ => [], fun i =>
      ⟨(hfresh i).endInv _, ⟨⟨?_, (hfresh i).endpoint, ?_, ?_⟩, (hfresh i).eid, le_rfl, ?_, ?_⟩,
        hlists i⟩⟩
    · rw [(hfresh i).eid]
      exact heid i
    · intro j
      rw [htags]
      decide
    · intro j k hlive
      exact absurd (hdead i j) hlive.1
    · exact Nat.le_add_right _ _
    · intro j hused
      exact absurd (hdead i j) hused
  · intro i
    unfold ExchangeBooks
    rw [(hfresh i).log, (hfresh !i).log, hempty, hempty, hheld]
    exact books_nil

end Run

/-- **Each request has its answer.** Two fresh endpoints send each other requests, and their
applications answer requests they were handed, each once; no tag has the time to expire. Then each
end holds, once each, the tags of its requests whose answer has not come back; one more request is
refused exactly where these are eight; and when the wires are empty they are the tags of the
requests that the other end was handed and did not answer. -/
theorem exchangeRun_tags (side : Bool → Side) (types : Bool → List UInt8)
    (ends : Bool → Mctp (List MctpPktbuf)) (ops : List ExchangeOp)
    (hfresh : ∀ i, FreshSide (side i) (ends i)) (hlists : ∀ i, (ends i).control.Lists (types i))
    (heid : ∀ i, (side i).eid ≠ 0 ∧ (side i).eid ≠ mctpEidBroadcast)
    (htags : ∀ i j, (ends i).reqTags j = {})
    (hwrap : ∀ i, (ends i).platformNow + 2 * mctpTagTimeout < 2 ^ 64)
    (hops : ∀ op ∈ ops, op.Ok side)
    (hclock : ∀ i, (ops.foldl (exchangeStep side) ends i).platformNow ≤ (ends
      i).platformNow + mctpTagTimeout) :
    let after := ops.foldl (exchangeStep side) ends
    ∀ i, (heldTags (after i)).Nodup ∧
      (heldTags (after i) ++ tagsOf false (after i).hist.handed).Perm
        (tagsOf true ((after i).busLog 0).accepted) ∧
      (∀ msg msgLen, (mctpMessageTxRequest wire (after i) (side !i).eid msg msgLen).2.1
        = if (heldTags (after i)).length = 8 then -ebusy else 0) ∧
      ((after i).dev = [] → (after !i).dev = [] →
        (heldTags (after i) ++ tagsOf false ((after !i).busLog 0).accepted).Perm
          (tagsOf true (after !i).hist.handed)) := by
  intro after i
  have hinv : ExchangeInv side types (fun i => (ends i).platformNow) after :=
    (FreshSide.exchangeInv hfresh hlists (fun i => (heid i).1) htags).run (fun i => (heid i).2)
      hwrap ops hops hclock
  obtain ⟨gone, hends⟩ := hinv.inOrder
  refine ⟨(hends i).holder.nodup, (hinv.books i).holds, (hends i).request_rc, fun hsent hsent' =>
    ?_⟩
  have hpeer := hends !i
  rw [Bool.not_not] at hpeer
  refine Books.settled (hinv.books i) ?_ ?_
  · rw [hpeer.delivered (hends i).tx hsent]
  · rw [(hends i).delivered hpeer.tx hsent']

/-- A message of one byte that nobody answers yet, and a Get Endpoint ID request. -/
theorem exchangeRun_tags_two :
    let after :=
      ([.request false ⟨0, 1, [5]⟩, .request false ⟨1, 3, [0, 0x80, 2]⟩, .receive true,
        .elapse false 100, .receive true,
      .receive false] : List ExchangeOp).foldl (exchangeStep smallSide) smallEnd
    heldTags (after false) = [0] ∧
      (heldTags (after false) ++ tagsOf false ((after true).busLog 0).accepted).Perm
        (tagsOf true (after true).hist.handed) := by
  refine ⟨by decide +kernel, ?_⟩
  refine (exchangeRun_tags smallSide (fun _ => [0]) smallEnd _ smallEnd_fresh (fun i => ?_)
    (fun i => ?_) (fun i j => ?_) (fun i => ?_) ?_
    (fun i => ?_) false).2.2.2 (by decide +kernel) (by decide +kernel)
  · cases i <;> exact ⟨rfl, rfl, by decide, rfl, by decide⟩
  · cases i <;> decide
  · cases i <;> rfl
  · cases i <;> decide
  · intro op hop
    simp only [List.mem_cons, List.not_mem_nil, or_false] at hop
    rcases hop with rfl | rfl | rfl | rfl | rfl | rfl
    · exact ⟨by decide, by decide⟩
    · exact ⟨by decide, by decide⟩
    all_goals trivial
  · cases i <;> decide +kernel

end LibMctp
