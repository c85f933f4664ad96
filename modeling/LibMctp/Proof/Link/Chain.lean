import LibMctp.Proof.Link.Between

/-!
# A chain of bridges

Two endpoints with any number of bridges between them. On every hop the packets travel that the next
bridge, or the end, takes for those of the end they come from: each bridge puts the messages
together and cuts them anew for its other bus.
-/

namespace LibMctp

open Fragment Reassembly

variable {n : Nat}

/-! ### The chain -/

structure Chain (n : Nat) where
  ends : Fin 2 → Mctp (List MctpPktbuf)
  bridges : Fin n → Mctp (Fin 2 → List MctpPktbuf)

/-- The hop that an end is on. -/
def endHop (n : Nat) : Fin 2 → Fin (n + 1)
  | 0 => 0
  | 1 => Fin.last n

/-- The hop that bus `i` of a bridge is on. Bus 0 is the one towards end 0. -/
def busHop (q : Fin n) : Fin 2 → Fin (n + 1)
  | 0 => q.castSucc
  | 1 => q.succ

/-- Who sends to end `i` on a hop: a bridge, or the other end. -/
def hopSender (i : Fin 2) (hop : Fin (n + 1)) : Option (Fin n) :=
  (List.finRange n).find? fun q => busHop q i = hop

/-- The packets on a hop that travel to end `i`. -/
def Chain.onHop (c : Chain n) (i : Fin 2) (hop : Fin (n + 1)) : List MctpPktbuf :=
  match hopSender i hop with
  | none => (c.ends i.rev).dev
  | some q => (c.bridges q).dev i

def Chain.pop (c : Chain n) (i : Fin 2) (hop : Fin (n + 1)) (rest : List MctpPktbuf) : Chain n where
  ends := fun j => if j = i.rev ∧ hop = endHop n j then { c.ends j with dev := rest } else c.ends j
  bridges := fun q =>
    if hop = busHop q i then { c.bridges q with dev := Function.update (c.bridges q).dev i rest }
    else c.bridges q

def Chain.give (side : Fin 2 → Side) (c : Chain n) (i : Fin 2) (hop : Fin (n + 1))
    (pkt : MctpPktbuf) : Chain n where
  ends := fun j =>
    if j = i ∧ hop = endHop n j then mctpBusRx wire (c.ends j) (side j).b pkt else c.ends j
  bridges := fun q =>
    if hop = busHop q i.rev then mctpBusRx wires (c.bridges q) i.rev.val pkt else c.bridges q

/-- One end sends a message to the other, or the oldest packet to end `i` on a hop is received where
the hop ends. -/
inductive ChainOp (n : Nat) where
  | send (i : Fin 2) (tagOwner : Bool) (tag : UInt8) (msg : List UInt8)
  | carry (i : Fin 2) (hop : Fin (n + 1))

def chainStep (side : Fin 2 → Side) (c : Chain n) : ChainOp n → Chain n
  | .send i tagOwner tag msg =>
    { c with
      ends := Function.update c.ends i
        (mctpMessageTx wire (c.ends i) (side i.rev).eid tagOwner tag msg).1 }
  | .carry i hop =>
    match c.onHop i hop with
    | [] => c
    | pkt :: rest => (c.pop i hop rest).give side i hop pkt

/-- A message sent is no longer than the other end takes, and does not set its endpoint id. -/
def ChainOp.Ok (side : Fin 2 → Side) : ChainOp n → Prop
  | .send i tagOwner tag msg =>
    msg.length ≤ (side i.rev).cap ∧
      ¬ Message.SetsEid ⟨(side i).eid, (side i.rev).eid, tagOwner, tag, msg⟩
  | .carry _ _ => True

section Hops

variable {q q' : Fin n} {i j : Fin 2} {hop : Fin (n + 1)}

theorem eq_rev_of_ne : ∀ {i j : Fin 2}, j ≠ i → i = j.rev := by decide

theorem busHop_injective (i : Fin 2) (h : busHop q i = busHop q' i) : q = q' := by
  obtain rfl | rfl : i = 0 ∨ i = 1 := by omega
  · exact Fin.castSucc_injective n h
  · exact Fin.succ_injective n h

theorem busHop_ne_rev (q : Fin n) (i : Fin 2) : busHop q i ≠ busHop q i.rev := by
  intro h
  have hval := congrArg Fin.val h
  obtain rfl | rfl : i = 0 ∨ i = 1 := by omega
  · exact absurd hval (Nat.lt_succ_self q.val).ne
  · exact absurd hval (Nat.lt_succ_self q.val).ne'

theorem busHop_ne_endHop (q : Fin n) (i : Fin 2) : busHop q i ≠ endHop n i.rev := by
  intro h
  have hval := congrArg Fin.val h
  obtain rfl | rfl : i = 0 ∨ i = 1 := by omega
  · exact absurd hval q.isLt.ne
  · exact absurd hval (Nat.succ_ne_zero q.val)

theorem hopSender_busHop (q : Fin n) (i : Fin 2) : hopSender i (busHop q i) = some q := by
  cases hfind : hopSender i (busHop q i) with
  | none =>
      have hnot := List.find?_eq_none.mp hfind q (List.mem_finRange q)
      simp at hnot
  | some q' =>
      have hsame := List.find?_some hfind
      rw [busHop_injective i (of_decide_eq_true hsame)]

theorem hopSender_endHop (n : Nat) (i : Fin 2) : hopSender i (endHop n i.rev) = none := by
  apply List.find?_eq_none.mpr
  intro q _ hsame
  exact busHop_ne_endHop q i (of_decide_eq_true hsame)

theorem hop_cases (i : Fin 2) (hop : Fin (n + 1)) :
    hop = endHop n i.rev ∨ ∃ q, hop = busHop q i := by
  obtain rfl | rfl : i = 0 ∨ i = 1 := by omega
  · rcases Fin.eq_castSucc_or_eq_last hop with ⟨q, rfl⟩ | rfl
    · exact .inr ⟨q, rfl⟩
    · exact .inl rfl
  · rcases Fin.eq_zero_or_eq_succ hop with rfl | ⟨q, rfl⟩
    · exact .inl rfl
    · exact .inr ⟨q, rfl⟩

theorem Chain.onHop_endHop (c : Chain n) (i : Fin 2) :
    c.onHop i (endHop n i.rev) = (c.ends i.rev).dev := by
  rw [Chain.onHop, hopSender_endHop]

theorem Chain.onHop_busHop (c : Chain n) (q : Fin n) (i : Fin 2) :
    c.onHop i (busHop q i) = (c.bridges q).dev i := by
  rw [Chain.onHop, hopSender_busHop]

theorem Chain.carried_ends (side : Fin 2 → Side) (c : Chain n) (i j : Fin 2) (hop : Fin (n + 1))
    (pkt : MctpPktbuf) (rest : List MctpPktbuf) :
    ((c.pop i hop rest).give side i hop pkt).ends j
      = if hop = endHop n j then
          if j = i then mctpBusRx wire (c.ends j) (side j).b pkt else { c.ends j with dev := rest }
        else c.ends j := by
  have hrev : i ≠ i.rev := (Fin.rev_ne_self i).symm
  dsimp only [Chain.give, Chain.pop]
  by_cases hhop : hop = endHop n j
  · by_cases hj : j = i
    · rw [if_pos ⟨hj, hhop⟩, if_neg (fun hboth => hrev (hj.symm.trans hboth.1)),
        if_pos hhop, if_pos hj]
    · rw [if_neg (fun hboth => hj hboth.1), if_pos ⟨by rw [eq_rev_of_ne hj, Fin.rev_rev], hhop⟩,
        if_pos hhop, if_neg hj]
  · rw [if_neg (fun hboth => hhop hboth.2), if_neg (fun hboth => hhop hboth.2), if_neg hhop]

theorem Chain.carried_bridges (side : Fin 2 → Side) (c : Chain n) (i : Fin 2) (hop : Fin (n + 1))
    (pkt : MctpPktbuf) (rest : List MctpPktbuf) (q : Fin n) :
    ((c.pop i hop rest).give side i hop pkt).bridges q
      = if hop = busHop q i.rev then mctpBusRx wires (c.bridges q) i.rev.val pkt
        else if hop = busHop q i then
          { c.bridges q with dev := Function.update (c.bridges q).dev i rest }
        else c.bridges q := by
  dsimp only [Chain.give, Chain.pop]
  by_cases hin : hop = busHop q i.rev
  · rw [if_pos hin, if_neg (by rw [hin]; exact (busHop_ne_rev q i).symm), if_pos hin]
  · rw [if_neg hin, if_neg hin]

/-- How many bridges were crossed on the way to end `i`. -/
def hopsFrom (i : Fin 2) (hop : Fin (n + 1)) : Nat := if i = 0 then n - hop.val else hop.val

theorem hopsFrom_lt (q : Fin n) (i : Fin 2) :
    hopsFrom i (busHop q i.rev) < hopsFrom i (busHop q i) := by
  have hlt := q.isLt
  obtain rfl | rfl : i = 0 ∨ i = 1 := by omega
  · show n - (q.val + 1) < n - q.val
    omega
  · exact Nat.lt_succ_self q.val

end Hops

/-! ### What travels on a hop -/

/-- The other end, as it looks on a hop. -/
def hopSide (side : Fin 2 → Side) (near : Fin n → Fin 2 → MctpBinding) (i : Fin 2)
    (hop : Fin (n + 1)) : Side :=
  match hopSender i hop with
  | none => side i.rev
  | some q => beyond side (near q) i

/-- The messages whose packets travel to end `i` on a hop. -/
def Chain.sentOn (side : Fin 2 → Side) (c : Chain n) (i : Fin 2) (hop : Fin (n + 1)) :
    List Message :=
  match hopSender i hop with
  | none => ((c.ends i.rev).busLog 0).accepted
  | some q => (c.bridges q).handedFrom (side i.rev).eid

/-- The ids are two ordinary ones, an end takes any message of one packet of the other, and each
bridge takes what an end takes. -/
structure ChainSetup (side : Fin 2 → Side) (cap : Fin n → Nat) : Prop where
  source : ∀ i, (side i).eid ≠ mctpEidBroadcast
  distinct : (side 0).eid ≠ (side 1).eid
  chunk : ∀ i, (side i).binding.chunk ≤ (side i.rev).cap
  cap : ∀ q i, (side i).cap ≤ cap q

/-- Bridge `q` is in order. `gone` are the packets that were taken off each hop in each
direction. -/
def BridgeAt (side : Fin 2 → Side) (near : Fin n → Fin 2 → MctpBinding) (cap : Fin n → Nat)
    (gone : Fin 2 × Fin (n + 1) → List MctpPktbuf) (q : Fin n)
    (w : Mctp (Fin 2 → List MctpPktbuf)) : Prop :=
  ∃ taken, (∀ i, taken (side i).eid = gone (i.rev, busHop q i)) ∧
    BridgeInv side (near q) (cap q) taken (fun i => gone (i, busHop q i)) w

/-- The ends and the bridges are in order. -/
structure ChainInv (side : Fin 2 → Side) (near : Fin n → Fin 2 → MctpBinding) (cap : Fin n → Nat)
    (gone : Fin 2 × Fin (n + 1) → List MctpPktbuf) (c : Chain n) : Prop where
  ends : ∀ i, EndInv (side i) (side i.rev) (gone (i.rev, endHop n i))
    (gone (i, endHop n i)) (c.ends i)
  bridges : ∀ q, BridgeAt side near cap gone q (c.bridges q)

theorem ChainSetup.eid_injective {side : Fin 2 → Side} {cap : Fin n → Nat} (h : ChainSetup side cap)
    {i j : Fin 2} (heid : (side j).eid = (side i).eid) : j = i := by
  by_contra hne
  obtain ⟨rfl, rfl⟩ | ⟨rfl, rfl⟩ : i = 0 ∧ j = 1 ∨ i = 1 ∧ j = 0 := by omega
  · exact h.distinct heid.symm
  · exact h.distinct heid

section Invariant

variable {side : Fin 2 → Side} {near : Fin n → Fin 2 → MctpBinding} {cap : Fin n → Nat}
  {gone : Fin 2 × Fin (n + 1) → List MctpPktbuf} {c : Chain n} {i : Fin 2} {hop : Fin (n + 1)}

theorem hopSide_eid (side : Fin 2 → Side) (near : Fin n → Fin 2 → MctpBinding) (i : Fin 2)
    (hop : Fin (n + 1)) :
    (hopSide side near i hop).eid = (side i.rev).eid := by
  unfold hopSide
  split
  · rfl
  · rfl

theorem BridgeInv.of_eid {side' : Fin 2 → Side} {near : Fin 2 → MctpBinding} {cap : Nat}
    {taken : UInt8 → List MctpPktbuf} {got : Fin 2 → List MctpPktbuf}
    {w : Mctp (Fin 2 → List MctpPktbuf)} (h : BridgeInv side near cap taken got w)
    (heid : ∀ i, (side' i).eid = (side i).eid) : BridgeInv side' near cap taken got w := by
  refine ⟨⟨?_, h.bindings, ?_⟩, h.max, h.sim, ?_⟩
  · intro i
    rw [heid]
    exact h.ready i
  · intro i
    rw [heid]
    exact h.sent i
  · intro src hsrc
    apply h.others
    intro i
    rw [← heid]
    exact hsrc i

/-- The packets on a hop are those of an endpoint `v` in the place of the other end. -/
structure Carried (side : Fin 2 → Side) (near : Fin n → Fin 2 → MctpBinding)
    (gone : Fin 2 × Fin (n + 1) → List MctpPktbuf) (c : Chain n) (i : Fin 2) (hop : Fin (n + 1))
    (v : Mctp (List MctpPktbuf)) : Prop where
  sender : TxSide (hopSide side near i hop) (side i) (gone (i, hop)) v
  dev : v.dev = c.onHop i hop
  accepted : (v.busLog 0).accepted = c.sentOn side i hop
  fits : ∀ msg ∈ c.sentOn side i hop, msg.bytes.length ≤ (side i).cap
  earlier : c.sentOn side i hop <+: ((c.ends i.rev).busLog 0).accepted
  all : (∀ hop', c.onHop i hop' = []) → c.sentOn side i hop = ((c.ends i.rev).busLog 0).accepted

theorem ChainInv.carried_end (h : ChainInv side near cap gone c) (hsetup : ChainSetup side cap)
    (i : Fin 2) :
    Carried side near gone c i (endHop n i.rev) (c.ends i.rev) := by
  have htx := (h.ends i.rev).tx
  rw [Fin.rev_rev] at htx
  have hside : hopSide side near i (endHop n i.rev) = side i.rev := by
    rw [hopSide, hopSender_endHop]
  have hsent : c.sentOn side i (endHop n i.rev) = ((c.ends i.rev).busLog 0).accepted := by
    rw [Chain.sentOn, hopSender_endHop]
  refine ⟨by rw [hside]; exact htx, (c.onHop_endHop
    i).symm, hsent.symm, ?_, by rw [hsent], fun _ => hsent⟩
  rw [hsent]
  intro msg hmsg
  by_cases hlong : (side i.rev).binding.chunk < msg.bytes.length
  · exact (htx.sendable msg hmsg).fits hlong
  · have hchunk := hsetup.chunk i.rev
    rw [Fin.rev_rev] at hchunk
    omega

theorem ChainInv.carried_bridge (h : ChainInv side near cap gone c) (hsetup : ChainSetup side cap)
    {q : Fin n} {v : Mctp (List MctpPktbuf)} (hv : Carried side near gone c i (busHop q i.rev) v) :
    ∃ v', Carried side near gone c i (busHop q i) v' := by
  obtain ⟨taken, htaken, hbridge⟩ := h.bridges q
  have heid := hopSide_eid side near i (busHop q i.rev)
  have htakes : taken (hopSide side near i (busHop q i.rev)).eid = gone (i, busHop q i.rev) := by
    rw [heid, htaken, Fin.rev_rev]
  have hsender := hv.sender
  rw [← htakes] at hsender
  have hwide : TxSide _ { side i with cap := cap q } _ v := hsender.widen rfl (hsetup.cap q i)
  obtain ⟨hpre, hall⟩ := hbridge.handed hwide rfl
  rw [heid, hv.accepted] at hpre hall
  have hside : hopSide side near i (busHop q i) = beyond side (near q) i := by
    rw [hopSide, hopSender_busHop]
  have hsent : c.sentOn side i (busHop q i) = (c.bridges q).handedFrom (side i.rev).eid := by
    rw [Chain.sentOn, hopSender_busHop]
  obtain ⟨v', hv', hdev, haccepted⟩ := hbridge.exists_sender i (by
    intro msg hmsg
    have hold := hpre.subset hmsg
    have hsend := hv.sender.sendable msg (by rw [hv.accepted]; exact hold)
    exact ⟨hsend.src.trans heid, hsend.dest, hsend.tag, fun _ => hv.fits msg hold, hsend.keepsEid⟩)
  refine ⟨v', by rw [hside]; exact hv', hdev.trans (c.onHop_busHop q
    i).symm, haccepted.trans hsent.symm, ?_, ?_, ?_⟩
  · rw [hsent]
    exact fun msg hmsg => hv.fits msg (hpre.subset hmsg)
  · rw [hsent]
    exact hpre.trans hv.earlier
  · intro hempty
    rw [hsent, hall (hv.dev.trans (hempty _)), hv.all hempty]

theorem ChainInv.carried (h : ChainInv side near cap gone c) (hsetup : ChainSetup side cap)
    (i : Fin 2) (hop : Fin (n + 1)) :
    ∃ v, Carried side near gone c i hop v := by
  induction hcrossed : hopsFrom i hop using Nat.strong_induction_on generalizing hop with
  | _ crossed ih =>
      rcases hop_cases i hop with rfl | ⟨q, rfl⟩
      · exact ⟨_, h.carried_end hsetup i⟩
      · have hless := hopsFrom_lt q i
        rw [hcrossed] at hless
        obtain ⟨v, hv⟩ := ih _ hless (busHop q i.rev) rfl
        exact h.carried_bridge hsetup hv

theorem ChainInv.messageTx (h : ChainInv side near cap gone c) {tagOwner : Bool} {tag : UInt8}
    {msg : List UInt8} (hop : ChainOp.Ok (n := n) side (.send i tagOwner tag msg)) :
    ChainInv side near cap gone (chainStep side c (.send i tagOwner tag msg)) := by
  refine ⟨?_, h.bridges⟩
  intro j
  show EndInv _ _ _ _ (Function.update c.ends i _ j)
  by_cases hj : j = i
  · subst hj
    rw [Function.update_self]
    exact (h.ends j).messageTx hop.1 hop.2
  · rw [Function.update_of_ne hj]
    exact h.ends j

theorem ChainInv.carry_end (h : ChainInv side near cap gone c) (hsetup : ChainSetup side cap)
    {pkt : MctpPktbuf} {rest : List MctpPktbuf} (hdev : c.onHop i hop = pkt :: rest) (j : Fin 2) :
    EndInv (side j) (side j.rev)
      (Function.update gone (i, hop) (gone (i, hop) ++ [pkt]) (j.rev, endHop n j))
      (Function.update gone (i, hop) (gone (i, hop) ++ [pkt]) (j, endHop n j))
      (((c.pop i hop rest).give side i hop pkt).ends j) := by
  have hrev : j ≠ j.rev := (Fin.rev_ne_self j).symm
  have hend := h.ends j
  rw [Chain.carried_ends]
  by_cases hhop : hop = endHop n j
  · rw [if_pos hhop]
    by_cases hj : j = i
    · subst hj
      obtain ⟨v, hv⟩ := h.carried hsetup j hop
      have hsrc : (hopSide side near j hop).eid ≠ mctpEidBroadcast := by
        rw [hopSide_eid]
        exact hsetup.source j.rev
      rw [← hhop] at hend ⊢
      obtain ⟨hrx, hmsg⟩ := hend.rx.receive hv.sender (hv.dev.trans hdev) hsrc
      rw [if_pos rfl, Function.update_self,
        Function.update_of_ne (fun heq => hrev (Prod.mk.inj heq).1.symm)]
      refine ⟨(TxSide.kept_from _ _ _).mctpBusRx hend.tx ?_, hrx⟩
      intro msg hhanded
      exact ⟨(hmsg msg hhanded).src.trans (hopSide_eid side near j hop),
        (hmsg msg hhanded).keepsEid⟩
    · obtain rfl : i = j.rev := eq_rev_of_ne hj
      have honly := c.onHop_endHop j.rev
      rw [Fin.rev_rev, ← hhop, hdev] at honly
      have hpopped := hend.pop honly.symm
      rw [← hhop] at hpopped ⊢
      rw [if_neg hj, Function.update_self,
        Function.update_of_ne (fun heq => hrev (Prod.mk.inj heq).1)]
      exact hpopped
  · have hgone : ∀ k : Fin 2, Function.update gone (i, hop) (gone (i, hop) ++ [pkt]) (k, endHop n j)
        = gone (k, endHop n j) :=
      fun k => Function.update_of_ne (fun heq => hhop (Prod.mk.inj heq).2.symm) _ _
    rw [if_neg hhop, hgone, hgone]
    exact hend

section Bridge

variable {q : Fin n} {pkt : MctpPktbuf} {rest : List MctpPktbuf}

theorem BridgeAt.pop {w : Mctp (Fin 2 → List MctpPktbuf)} (h : BridgeAt side near cap gone q w)
    (hdev : w.dev i = pkt :: rest) :
    BridgeAt side near cap (Function.update gone (i, busHop q i) (gone (i, busHop q i) ++ [pkt])) q
      { w with dev := Function.update w.dev i rest } := by
  obtain ⟨taken, htaken, hbridge⟩ := h
  refine ⟨taken, ?_, ?_⟩
  · intro j
    rw [Function.update_of_ne, htaken]
    intro heq
    obtain ⟨hj, hhop⟩ := Prod.mk.inj heq
    rw [← hj] at hhop
    exact busHop_ne_rev q j hhop
  · have hgot : (fun j =>
      Function.update gone (i, busHop q i) (gone (i, busHop q i) ++ [pkt]) (j, busHop q j))
        = Function.update (fun j => gone (j, busHop q j)) i (gone (i, busHop q i) ++ [pkt]) := by
      funext j
      by_cases hj : j = i
      · subst hj
        rw [Function.update_self, Function.update_self]
      · rw [Function.update_of_ne hj, Function.update_of_ne (fun heq => hj (Prod.mk.inj heq).1)]
    rw [hgot]
    exact hbridge.pop hdev

theorem ChainInv.bridge_takes (h : ChainInv side near cap gone c) (hsetup : ChainSetup side cap)
    (hdev : c.onHop i (busHop q i.rev) = pkt :: rest) :
    BridgeAt side near cap
      (Function.update gone (i, busHop q i.rev) (gone (i, busHop q i.rev) ++ [pkt])) q
      (mctpBusRx wires (c.bridges q) i.rev.val pkt) := by
  obtain ⟨taken, htaken, hbridge⟩ := h.bridges q
  -- what reaches the bridge on either bus comes from an endpoint in the place of the end there
  choose v hv using fun j : Fin 2 => h.carried hsetup j.rev (busHop q j)
  have heid : ∀ j : Fin 2, (hopSide side near j.rev (busHop q j)).eid = (side j).eid := by
    intro j
    rw [hopSide_eid, Fin.rev_rev]
  have hends : ∀ j : Fin 2, TxSide (hopSide side near j.rev (busHop q j))
      { hopSide side near j.rev.rev (busHop q j.rev) with cap := cap q }
      (taken (hopSide side near j.rev (busHop q j)).eid) (v j) := by
    intro j
    rw [heid, htaken]
    exact (hv j).sender.widen (heid j.rev) (hsetup.cap q j.rev)
  have hwire : (v i.rev).dev = pkt :: rest := by
    rw [(hv i.rev).dev, Fin.rev_rev]
    exact hdev
  have hnext : BridgeInv side (near q) (cap q)
    (Function.update taken (side i.rev).eid (taken (side i.rev).eid ++ [pkt]))
      (fun j => gone (j, busHop q j)) (mctpBusRx wires (c.bridges q) i.rev.val pkt) := by
    have hrx := (hbridge.of_eid heid).busRx (by rw [heid, heid]; exact hsetup.distinct)
      (fun j => by rw [heid]; exact hsetup.source j) hends hwire
    rw [heid] at hrx
    exact hrx.of_eid fun j => (heid j).symm
  refine ⟨Function.update taken (side i.rev).eid (taken (side i.rev).eid ++ [pkt]), ?_, ?_⟩
  · intro j
    by_cases hj : j = i.rev
    · rw [hj, Function.update_self, Fin.rev_rev, Function.update_self, htaken, Fin.rev_rev]
    · rw [Function.update_of_ne (fun heq => hj (hsetup.eid_injective heq)), htaken,
        Function.update_of_ne]
      intro heq
      apply hj
      rw [← (Prod.mk.inj heq).1, Fin.rev_rev]
  · have hgot : (fun j =>
      Function.update gone (i, busHop q i.rev) (gone (i, busHop q i.rev) ++ [pkt]) (j, busHop q j))
        = fun j => gone (j, busHop q j) := by
      funext j
      apply Function.update_of_ne
      intro heq
      obtain ⟨hj, hhop⟩ := Prod.mk.inj heq
      rw [hj] at hhop
      exact busHop_ne_rev q i hhop
    rw [hgot]
    exact hnext

theorem BridgeAt.past {w : Mctp (Fin 2 → List MctpPktbuf)} (h : BridgeAt side near cap gone q w)
    (hout : hop ≠ busHop q i) (hin : hop ≠ busHop q i.rev) (pkts : List MctpPktbuf) :
    BridgeAt side near cap (Function.update gone (i, hop) pkts) q w := by
  have hgone : ∀ j k : Fin 2, Function.update gone (i, hop) pkts (k, busHop q j)
      = gone (k, busHop q j) := by
    intro j k
    apply Function.update_of_ne
    intro heq
    obtain ⟨-, hhop⟩ := Prod.mk.inj heq
    by_cases hj : j = i
    · rw [hj] at hhop
      exact hout hhop.symm
    · rw [eq_rev_of_ne hj, Fin.rev_rev] at hin
      exact hin hhop.symm
  obtain ⟨taken, htaken, hbridge⟩ := h
  refine ⟨taken, ?_, ?_⟩
  · intro j
    rw [hgone]
    exact htaken j
  · simp only [hgone]
    exact hbridge

theorem ChainInv.carry_bridge (h : ChainInv side near cap gone c) (hsetup : ChainSetup side cap)
    (hdev : c.onHop i hop = pkt :: rest) (q : Fin n) :
    BridgeAt side near cap (Function.update gone (i, hop) (gone (i, hop) ++ [pkt])) q
      (((c.pop i hop rest).give side i hop pkt).bridges q) := by
  rw [Chain.carried_bridges]
  split
  · rename_i hin
    subst hin
    exact h.bridge_takes hsetup hdev
  · rename_i hin
    split
    · rename_i hout
      subst hout
      rw [c.onHop_busHop] at hdev
      exact (h.bridges q).pop hdev
    · rename_i hout
      exact (h.bridges q).past hout hin _

end Bridge

theorem ChainInv.step (h : ∃ gone, ChainInv side near cap gone c) (hsetup : ChainSetup side cap)
    {op : ChainOp n} (hop : op.Ok side) :
    ∃ gone, ChainInv side near cap gone (chainStep side c op) := by
  obtain ⟨gone, h⟩ := h
  cases op with
  | send i tagOwner tag msg => exact ⟨gone, h.messageTx hop⟩
  | carry i hop =>
      rw [chainStep]
      split
      · exact ⟨gone, h⟩
      · rename_i pkt rest hdev
        exact ⟨_, h.carry_end hsetup hdev, h.carry_bridge hsetup hdev⟩

theorem ChainInv.run (h : ∃ gone, ChainInv side near cap gone c) (hsetup : ChainSetup side cap)
    (ops : List (ChainOp n)) (hops : ∀ op ∈ ops, op.Ok side) :
    ∃ gone, ChainInv side near cap gone (ops.foldl (chainStep side) c) := by
  induction ops generalizing c with
  | nil => exact h
  | cons op ops ih =>
      exact ih (ChainInv.step h hsetup (hops op List.mem_cons_self)) fun op' hop' =>
        hops op' (List.mem_cons_of_mem _ hop')

theorem chainInv_fresh (hfresh : ∀ i, FreshSide (side i) (c.ends i))
    (hbridges : ∀ q, FreshBridge (near q) (cap q) (c.bridges q)) :
    ChainInv side near cap (fun _ => []) c :=
  ⟨fun i => (hfresh i).endInv (side i.rev), fun q =>
    ⟨fun _ => [], fun _ => rfl, (hbridges q).bridgeInv side⟩⟩

/-- An end hands up what travelled on its hop. -/
theorem ChainInv.handed (h : ChainInv side near cap gone c) (hsetup : ChainSetup side cap)
    (i : Fin 2) :
    (c.ends i).hist.handed <+: c.sentOn side i (endHop n i) ∧
      (c.onHop i (endHop n i) = [] → (c.ends i).hist.handed = c.sentOn side i (endHop n i)) := by
  obtain ⟨v, hv⟩ := h.carried hsetup i (endHop n i)
  have hhanded := (h.ends i).rx.sim.handed
  constructor
  · have hmono := hv.sender.out_mono (List.prefix_append _ _)
    rw [← hhanded, hv.accepted] at hmono
    exact (List.prefix_map_iff_of_injective Message.labelled_injective).mp hmono
  · intro hempty
    have hout := hv.sender.out_packets
    rw [hv.dev, hempty, List.append_nil, ← hhanded, hv.accepted] at hout
    exact Message.labelled_injective.list_map hout

end Invariant

/-- Endpoints 8 and 9 with two bridges between them. -/
def twoBridges : Chain 2 where
  ends := fun i => smallEnd (i == 1)
  bridges := fun _ => smallNetwork.bridge

def acrossAndBack : List (ChainOp 2) :=
  [.send 0 true 1 [0, 0x80, 2], .carry 1 0, .carry 1 1, .carry 1 2, .carry 0 2,
    .carry 0 1, .carry 0 0]

theorem acrossAndBack_ok : ∀ op ∈ acrossAndBack, op.Ok fun i => smallSide (i == 1) := by
  intro op hop
  simp only [acrossAndBack, List.mem_cons, List.not_mem_nil, or_false] at hop
  rcases hop with rfl | rfl | rfl | rfl | rfl | rfl | rfl
  · exact ⟨by decide, by decide⟩
  all_goals trivial

end LibMctp
