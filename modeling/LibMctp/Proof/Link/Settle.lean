import LibMctp.Proof.Link.Chain
import LibMctp.Proof.Link.Quiesce
import Mathlib.Algebra.BigOperators.Fin
import Mathlib.Algebra.Order.BigOperators.Group.Finset

/-!
# The chain comes to rest

A message needs packets on every hop, and the answer to a request one more on every hop back.
Carrying a packet makes what is still to be carried less, so that rounds enough, in which a packet
is carried over every hop in each direction, leave nothing on the way: no bridge and no binding
keeps a message back.
-/

namespace LibMctp

open Fragment Reassembly

variable {n : Nat}

/-! ### What is still to be carried -/

/-- How many packets messages to end `i` need on a hop. -/
def hopPackets (side : Fin 2 → Side) (near : Fin n → Fin 2 → MctpBinding) (i : Fin 2)
    (hop : Fin (n + 1)) (msgs : List Message) : Nat :=
  (msgPackets (hopSide side near i hop).binding (hopSide side near i hop).start msgs).length

/-- The packets on a hop, and those of messages that have not got there. -/
def Chain.toCarry (side : Fin 2 → Side) (near : Fin n → Fin 2 → MctpBinding) (c : Chain n)
    (i : Fin 2) (hop : Fin (n + 1)) : Nat :=
  (c.onHop i hop).length +
    (hopPackets side near i hop ((c.ends i.rev).busLog 0).accepted - hopPackets side near i hop
      (c.sentOn side i hop))

/-- The requests that end `i` has not handed up, and may have to answer. -/
def Chain.toAnswer (c : Chain n) (i : Fin 2) : Nat :=
  ((c.ends i.rev).busLog 0).accepted.countP Message.tagOwner - (c.ends i).hist.handed.countP
    Message.tagOwner

/-- What is on its way to end `i`, and the answers of end `i` to come. -/
def Chain.loadTo (side : Fin 2 → Side) (near : Fin n → Fin 2 → MctpBinding) (c : Chain n)
    (i : Fin 2) : Nat :=
  ∑ hop, c.toCarry side near i hop + (n + 1) * c.toAnswer i

def Chain.load (side : Fin 2 → Side) (near : Fin n → Fin 2 → MctpBinding) (c : Chain n) : Nat :=
  c.loadTo side near 0 + c.loadTo side near 1

section Load

variable {side : Fin 2 → Side} {near : Fin n → Fin 2 → MctpBinding} {cap : Fin n → Nat}
  {gone : Fin 2 × Fin (n + 1) → List MctpPktbuf} {c : Chain n} {i : Fin 2} {hop : Fin (n + 1)}
  {pkt : MctpPktbuf}
  {rest : List MctpPktbuf} {types : Fin 2 → List UInt8}

theorem Chain.load_eq (side : Fin 2 → Side) (near : Fin n → Fin 2 → MctpBinding) (c : Chain n)
    (i : Fin 2) :
    c.load side near = c.loadTo side near i + c.loadTo side near i.rev := by
  obtain rfl | rfl : i = 0 ∨ i = 1 := by omega
  · rfl
  · exact Nat.add_comm _ _

theorem hopPackets_mono {msgs msgs' : List Message} (h : msgs <+: msgs') :
    hopPackets side near i hop msgs ≤ hopPackets side near i hop msgs' := by
  obtain ⟨rest, rfl⟩ := h
  unfold hopPackets msgPackets msgFrags
  rw [List.length_map, List.length_map, List.map_append, stream_append, List.length_append]
  exact Nat.le_add_right _ _

theorem hopPackets_concat
    (hsize : mctpPacketSize mctpBtu ≤ (hopSide side near i hop).binding.pktSize)
    (msgs : List Message) {msg : Message} (hshort : msg.bytes.length ≤ mctpBtu) :
    hopPackets side near i hop (msgs ++ [msg]) = hopPackets side near i hop msgs + 1 := by
  have hchunk : mctpBtu ≤ (hopSide side near i hop).binding.chunk := by
    unfold mctpPacketSize at hsize
    unfold MctpBinding.chunk
    omega
  unfold hopPackets
  rw [msgPackets_concat, List.length_append, List.length_map, cut_of_le (hshort.trans hchunk)]
  rfl

/-- What is to be carried over a hop is what messages accepted need there, less what was carried. -/
theorem ChainInv.toCarry_add (h : ChainInv side near cap gone c) (hsetup : ChainSetup side cap)
    (i : Fin 2) (hop : Fin (n + 1)) :
    c.toCarry side near i hop + (gone (i, hop)).length
      = hopPackets side near i hop ((c.ends i.rev).busLog 0).accepted := by
  obtain ⟨v, hv⟩ := h.carried hsetup i hop
  have hlen := congrArg List.length hv.sender.packets
  rw [hv.dev, hv.accepted, List.length_append] at hlen
  have hle : hopPackets side near i hop _ ≤ hopPackets side near i hop _ :=
    hopPackets_mono hv.earlier
  unfold Chain.toCarry
  unfold hopPackets at hle ⊢
  omega

/-- What carrying a packet to end `i` adds to what the ends handed up and accepted. -/
structure CarryLogs (c c' : Chain n) (i : Fin 2) (msgs replies : List Message) : Prop where
  accepted : ((c'.ends i).busLog 0).accepted = ((c.ends i).busLog 0).accepted ++ replies
  accepted_rev : ((c'.ends i.rev).busLog 0).accepted = ((c.ends i.rev).busLog 0).accepted
  handed : (c'.ends i).hist.handed = (c.ends i).hist.handed ++ msgs
  handed_rev : (c'.ends i.rev).hist.handed = (c.ends i.rev).hist.handed
  replies : replies = [] ∨ ∃ msg reply, msgs = [msg] ∧ msg.tagOwner = true ∧ replies = [reply] ∧
    reply.tagOwner = false ∧
    reply.bytes.length ≤ mctpBtu

theorem ChainInv.carry_logs (h : ChainInv side near cap gone c)
    (hlists : ∀ i, (c.ends i).control.Lists (types i)) (i : Fin 2) (hop : Fin (n + 1))
    (pkt : MctpPktbuf) (rest : List MctpPktbuf) :
    ∃ msgs replies, CarryLogs c ((c.pop i hop rest).give side i hop pkt) i msgs replies := by
  have hother : ((((c.pop i hop rest).give side i hop pkt).ends i.rev).busLog 0).accepted
    = ((c.ends i.rev).busLog 0).accepted ∧
      (((c.pop i hop rest).give side i hop pkt).ends i.rev).hist.handed
        = (c.ends i.rev).hist.handed := by
    rw [Chain.carried_ends, if_neg (Fin.rev_ne_self i)]
    split
    · exact ⟨rfl, rfl⟩
    · exact ⟨rfl, rfl⟩
  by_cases hhop : hop = endHop n i
  · obtain ⟨msgs, replies, hhanded, haccepted, -, hreplies⟩ := (h.ends i).tx.answers (hlists i) pkt
    refine ⟨msgs, replies, ?_, hother.1, ?_, hother.2, ?_⟩
    · rw [Chain.carried_ends, if_pos hhop, if_pos rfl]
      exact haccepted
    · rw [Chain.carried_ends, if_pos hhop, if_pos rfl]
      exact hhanded
    · rcases hreplies with hnone | ⟨msg, reply, hmsgs, -, howner, hreply, hnot, -, hshort⟩
      · exact .inl hnone
      · exact .inr ⟨msg, reply, hmsgs, howner, hreply, hnot, hshort⟩
  · refine ⟨[], [], ?_, hother.1, ?_, hother.2, .inl rfl⟩
    · rw [Chain.carried_ends, if_neg hhop, List.append_nil]
    · rw [Chain.carried_ends, if_neg hhop, List.append_nil]

theorem ChainInv.carry_less (h : ChainInv side near cap gone c) (hsetup : ChainSetup side cap)
    (hdev : c.onHop i hop = pkt :: rest) {msgs replies : List Message}
    (hlogs : CarryLogs c ((c.pop i hop rest).give side i hop pkt) i msgs replies) :
    ∑ hop', ((c.pop i hop rest).give side i hop pkt).toCarry side near i hop' < ∑ hop',
      c.toCarry side near i hop' := by
  have hnext : ChainInv side near cap _ _ := ⟨h.carry_end hsetup hdev, h.carry_bridge hsetup hdev⟩
  have hboth : ∀ hop', ((c.pop i hop rest).give side i hop pkt).toCarry side near i
    hop' + (if hop' = hop then 1 else 0)
      = c.toCarry side near i hop' := by
    intro hop'
    have hbefore := h.toCarry_add hsetup i hop'
    have hafter := hnext.toCarry_add hsetup i hop'
    rw [hlogs.accepted_rev] at hafter
    by_cases hhop : hop' = hop
    · subst hhop
      rw [Function.update_self, List.length_append, List.length_singleton] at hafter
      rw [if_pos rfl]
      omega
    · rw [Function.update_of_ne (fun heq => hhop (Prod.mk.inj heq).2)] at hafter
      rw [if_neg hhop]
      omega
  apply Finset.sum_lt_sum
  · intro hop' _
    rw [← hboth hop']
    exact Nat.le_add_right _ _
  · refine ⟨hop, Finset.mem_univ hop, ?_⟩
    rw [← hboth hop, if_pos rfl]
    exact Nat.lt_succ_self _

theorem ChainInv.carry_back (h : ChainInv side near cap gone c) (hsetup : ChainSetup side cap)
    (hdev : c.onHop i hop = pkt :: rest) {msgs replies : List Message}
    (hlogs : CarryLogs c ((c.pop i hop rest).give side i hop pkt) i msgs replies) :
    ∑ hop', ((c.pop i hop rest).give side i hop pkt).toCarry side near i.rev hop'
      = ∑ hop', c.toCarry side near i.rev hop' + (n + 1) * replies.length := by
  have hnext : ChainInv side near cap _ _ := ⟨h.carry_end hsetup hdev, h.carry_bridge hsetup hdev⟩
  have hboth : ∀ hop', ((c.pop i hop rest).give side i hop pkt).toCarry side near i.rev hop'
      = c.toCarry side near i.rev hop' + replies.length := by
    intro hop'
    obtain ⟨v, hv⟩ := h.carried hsetup i.rev hop'
    have hbefore := h.toCarry_add hsetup i.rev hop'
    have hafter := hnext.toCarry_add hsetup i.rev hop'
    rw [Function.update_of_ne (fun heq => Fin.rev_ne_self i (Prod.mk.inj heq).1), Fin.rev_rev,
      hlogs.accepted] at hafter
    rw [Fin.rev_rev] at hbefore
    rcases hlogs.replies with rfl | ⟨msg, reply, -, -, rfl, -, hshort⟩
    · rw [List.append_nil] at hafter
      rw [List.length_nil]
      omega
    · rw [hopPackets_concat hv.sender.size _ hshort] at hafter
      rw [List.length_singleton]
      omega
  rw [Finset.sum_congr rfl fun hop' _ => hboth hop', Finset.sum_add_distrib, Finset.sum_const,
    Finset.card_fin, smul_eq_mul]

/-- **A packet carried makes the load less.** -/
theorem ChainInv.lowers (h : ChainInv side near cap gone c) (hsetup : ChainSetup side cap)
    (hlists : ∀ i, (c.ends i).control.Lists (types i)) (hdev : c.onHop i hop = pkt :: rest) :
    ((c.pop i hop rest).give side i hop pkt).load side near < c.load side near := by
  obtain ⟨msgs, replies, hlogs⟩ := h.carry_logs hlists i hop pkt rest
  have hnext : ChainInv side near cap _ _ := ⟨h.carry_end hsetup hdev, h.carry_bridge hsetup hdev⟩
  have hless := h.carry_less hsetup hdev hlogs
  have hback := h.carry_back hsetup hdev hlogs
  have hanswer :
      ((c.pop i hop rest).give side i hop pkt).toAnswer i + replies.length ≤ c.toAnswer i := by
    obtain ⟨v, hv⟩ := hnext.carried hsetup i (endHop n i)
    have hle : List.countP Message.tagOwner _ ≤ List.countP Message.tagOwner _ :=
      ((hnext.handed hsetup i).1.trans hv.earlier).sublist.countP_le
    unfold Chain.toAnswer
    rw [hlogs.handed, hlogs.accepted_rev, List.countP_append] at hle ⊢
    rcases hlogs.replies with rfl | ⟨msg, reply, rfl, howner, rfl, -, -⟩
    · rw [List.length_nil]
      omega
    · rw [List.countP_singleton, if_pos howner] at hle ⊢
      rw [List.length_singleton]
      omega
  have hsame : ((c.pop i hop rest).give side i hop pkt).toAnswer i.rev = c.toAnswer i.rev := by
    unfold Chain.toAnswer
    rw [hlogs.handed_rev, Fin.rev_rev, hlogs.accepted, List.countP_append]
    rcases hlogs.replies with rfl | ⟨msg, reply, -, -, rfl, hnot, -⟩
    · rfl
    · rw [List.countP_singleton, hnot]
      rfl
  have hmul := Nat.mul_le_mul_left (n + 1) hanswer
  rw [Nat.mul_add] at hmul
  rw [Chain.load_eq _ _ _ i, Chain.load_eq _ _ c i]
  unfold Chain.loadTo
  rw [hback, hsame]
  omega

end Load

/-! ### Carrying until nothing is left -/

/-- The chain is in order, and the ends list these message types. -/
structure ChainServers (side : Fin 2 → Side) (near : Fin n → Fin 2 → MctpBinding)
    (cap : Fin n → Nat) (types : Fin 2 → List UInt8) (c : Chain n) : Prop where
  inv : ∃ gone, ChainInv side near cap gone c
  lists : ∀ i, (c.ends i).control.Lists (types i)

def ChainOp.IsCarry : ChainOp n → Prop
  | .send _ _ _ _ => False
  | .carry _ _ => True

def ChainOp.Pending (c : Chain n) : ChainOp n → Prop
  | .send _ _ _ _ => False
  | .carry i hop => c.onHop i hop ≠ []

section Run

variable {side : Fin 2 → Side} {near : Fin n → Fin 2 → MctpBinding} {cap : Fin n → Nat}
  {types : Fin 2 → List UInt8}
  {c : Chain n}

theorem ChainServers.step (h : ChainServers side near cap types c) (hsetup : ChainSetup side cap)
    {op : ChainOp n} (hop : op.Ok side) :
    ChainServers side near cap types (chainStep side c op) := by
  refine ⟨ChainInv.step h.inv hsetup hop, ?_⟩
  intro j
  cases op with
  | send i tagOwner tag msg =>
      show (Function.update c.ends i _ j).control.Lists _
      by_cases hj : j = i
      · subst hj
        rw [Function.update_self, (mctpMessageTx_txOnly wire _ _ _ _ _).control]
        exact h.lists j
      · rw [Function.update_of_ne hj]
        exact h.lists j
  | carry i hop =>
      rw [chainStep]
      split
      · exact h.lists j
      · rw [Chain.carried_ends]
        split
        · split
          · rw [(mctpBusRx_sameSetup wire _ _ _).control]
            exact h.lists j
          · exact h.lists j
        · exact h.lists j

theorem ChainServers.run (h : ChainServers side near cap types c) (hsetup : ChainSetup side cap)
    (ops : List (ChainOp n)) (hops : ∀ op ∈ ops, op.Ok side) :
    ChainServers side near cap types (ops.foldl (chainStep side) c) := by
  induction ops generalizing c with
  | nil => exact h
  | cons op ops ih =>
      exact ih (h.step hsetup (hops op List.mem_cons_self)) fun op' hop' =>
        hops op' (List.mem_cons_of_mem _ hop')

/-- Carrying lowers the load, and with nothing on a hop nothing happens there. -/
theorem chainServers_drains (types : Fin 2 → List UInt8) (near : Fin n → Fin 2 → MctpBinding)
    (hsetup : ChainSetup side cap) :
    Drain.Drains (chainStep side) ChainOp.IsCarry (ChainServers side near cap types) ChainOp.Pending
      (Chain.load side near) where
  keeps := by
    intro c op hkind h
    cases op with
    | send i tagOwner tag msg => exact hkind.elim
    | carry i hop => exact h.step hsetup trivial
  lowers := by
    intro c op hkind h hpending
    cases op with
    | send i tagOwner tag msg => exact hkind.elim
    | carry i hop =>
        obtain ⟨⟨gone, hinv⟩, hlists⟩ := h
        obtain ⟨pkt, rest, hdev⟩ := List.exists_cons_of_ne_nil hpending
        rw [chainStep, hdev]
        exact hinv.lowers hsetup hlists hdev
  rests := by
    intro c op hkind h hidle
    cases op with
    | send i tagOwner tag msg => exact hkind.elim
    | carry i hop =>
        have hsame : chainStep side c (.carry i hop) = c := by
          rw [chainStep, not_not.mp hidle]
        rw [hsame]
        exact ⟨rfl, fun _ => Iff.rfl⟩

end Run

def everyHop : List (ChainOp 2) :=
  (List.finRange 2).flatMap fun i => (List.finRange 3).map (.carry i)

end LibMctp
