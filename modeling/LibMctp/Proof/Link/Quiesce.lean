import LibMctp.Lib.Drain
import LibMctp.Proof.Link.Duplex
import LibMctp.Proof.Receive.Serve

/-!
# The wire falls silent

An answer to a control request is one packet and no request, so that it is not answered in turn.
Counting a packet with the owner bit twice, each packet received makes the load of the wire less.
Two endpoints that only go on receiving are done when each was given as many turns as the load, and
then all messages have arrived.
-/

namespace LibMctp

open Fragment Reassembly

/-! ### Answers -/

theorem length_answer (data types : List UInt8) (eid : UInt8) (command : CtrlCommand)
    (htypes : types.length ≤ mctpControlMaxTypes) :
    (fillResp data ++ command.answer types eid).length ≤ mctpBtu := by
  unfold mctpControlMaxTypes at htypes
  cases command
  all_goals simp [fillResp, CtrlCommand.answer, mctpProtocolVersions, mctpBtu]
  -- the count and the types
  omega

/-- A message is answered with one short message at most, and only where it has the owner bit. -/
theorem serve_replies (cfg : ServerConfig) (eid : UInt8) (msg : Message)
    (htypes : cfg.types.length ≤ mctpControlMaxTypes) :
    (Server.serve cfg ⟨eid, [], []⟩ msg).replies = [] ∨
      msg.tagOwner = true ∧ ∃ reply, (Server.serve cfg ⟨eid, [], []⟩ msg).replies = [reply] ∧
        reply.tagOwner = false ∧ reply.tag = msg.tag ∧ reply.bytes.length ≤ mctpBtu := by
  have hnotify : (Server.notify cfg ⟨eid, [], []⟩ msg).replies = [] := by
    unfold Server.notify
    split
    · rfl
    · rfl
  unfold Server.serve
  split
  · split
    · split
      · exact .inl rfl
      · exact .inl hnotify
    · split
      · exact .inl hnotify
      · rename_i howner
        split
        · exact .inl rfl
        · exact .inr ⟨by simpa using howner, _, rfl, rfl, rfl, length_answer _ _ _ _ htypes⟩
  · exact .inl hnotify

/-! ### The load of the wire -/

/-- A packet with the owner bit may belong to a request, and then one of its answer is to come. -/
def pktLoad (pkt : MctpPktbuf) : Nat := if (pktLabel pkt).tagOwner then 2 else 1

def linkLoad (ends : Bool → Mctp (List MctpPktbuf)) : Nat :=
  ((ends true).dev.map pktLoad).sum + ((ends false).dev.map pktLoad).sum

theorem linkLoad_eq (ends : Bool → Mctp (List MctpPktbuf)) (i : Bool) :
    linkLoad ends = ((ends i).dev.map pktLoad).sum + ((ends !i).dev.map pktLoad).sum := by
  cases i with
  | true => rfl
  | false => exact Nat.add_comm _ _

section Receive

variable {me peer : Side} {gone got : List MctpPktbuf} {w wp : Mctp (List MctpPktbuf)}
  {types : List UInt8} {pkt : MctpPktbuf}

theorem TxSide.server (h : TxSide me peer gone w) (hlists : w.control.Lists types) :
    ControlServer me.b me.binding ⟨me.binding.controlRx, w.messageRx, types⟩ w where
  linked := h.bus.linked
  endpoint := h.endpoint
  lists := hlists
  messageRx := rfl
  controlRx := rfl
  enabled := h.enabled
  idle := h.idle
  seq := by
    rw [h.bus.queue.seq]
    exact Nat.mod_lt _ (by decide)

theorem handed_label {env : Env (List MctpPktbuf)} {b : Nat} {msgs : List Message}
    (hhanded : (mctpBusRx env w b pkt).hist.handed = w.hist.handed ++ msgs) :
    msgs = [] ∨ ∃ msg, msgs = [msg] ∧ msg.label = pktLabel pkt := by
  rcases mctpBusRx_delivers env w b pkt with hsilent | ⟨_, msg, _, _, hlabel, hdelivers⟩
  · rw [hsilent.handed] at hhanded
    exact .inl (List.self_eq_append_right.mp hhanded)
  · rw [hdelivers.handed] at hhanded
    exact .inr ⟨msg, (List.append_cancel_left hhanded).symm, hlabel⟩

/-- What an end does with a packet: it hands up `msgs`, and accepts a short answer at most, to a
request. -/
theorem TxSide.answers (h : TxSide me peer gone w) (hlists : w.control.Lists types)
    (pkt : MctpPktbuf) :
    ∃ msgs replies, (mctpBusRx wire w me.b pkt).hist.handed = w.hist.handed ++ msgs ∧
      ((mctpBusRx wire w me.b pkt).busLog 0).accepted = (w.busLog 0).accepted ++ replies ∧
      ((mctpBusRx wire w me.b pkt).busLog 0).sentPkts
        = (w.busLog 0).sentPkts ++ msgPackets me.binding (w.busses 0).txSeq.toNat replies ∧
      (replies = [] ∨ ∃ msg reply, msgs = [msg] ∧ msg.label = pktLabel pkt ∧ msg.tagOwner = true ∧
        replies = [reply] ∧
        reply.tagOwner = false ∧ reply.tag = msg.tag ∧ reply.bytes.length ≤ mctpBtu) := by
  obtain ⟨msgs, hhanded, hserving⟩ := (h.server hlists).serving.busRx h.size
    (fun _ => rfl : ∀ n, wire.msgAlloc n = true) (fun _ _ => rfl) pkt
  refine ⟨msgs, _, hhanded, hserving.accepted, hserving.sent, ?_⟩
  have htypes : types.length ≤ mctpControlMaxTypes := hlists.le
  rcases handed_label hhanded with rfl | ⟨msg, rfl, hlabel⟩
  · exact .inl rfl
  · rcases serve_replies ⟨me.binding.controlRx, w.messageRx, types⟩ (w.busses 0).eid msg htypes with
      hnone | ⟨howner, reply, hreply, hnot, htag, hshort⟩
    · exact .inl hnone
    · exact .inr ⟨msg, reply, rfl, hlabel, howner, hreply, hnot, htag, hshort⟩

/-- **A packet puts less on the wire than it took from it.** -/
theorem EndInv.receive_load (h : EndInv me peer gone got w) (hpeer : TxSide peer me got wp)
    {rest : List MctpPktbuf} (hdev : wp.dev = pkt :: rest) (hsrc : peer.eid ≠ mctpEidBroadcast)
    (hlists : w.control.Lists types) :
    ∃ pkts, (mctpBusRx wire w me.b pkt).dev = w.dev ++ pkts ∧
      (pkts.map pktLoad).sum < pktLoad pkt := by
  have hnext := (h.receive hpeer hdev hsrc).tx
  obtain ⟨msgs, replies, -, -, hsent, hreplies⟩ := h.tx.answers hlists pkt
  have hpkts := hnext.sent
  rw [hsent, ← h.tx.sent, List.append_assoc] at hpkts
  refine ⟨_, List.append_cancel_left hpkts, ?_⟩
  rcases hreplies with rfl | ⟨msg, reply, -, hlabel, howner, rfl, hnot, htag, hshort⟩
  · show 0 < pktLoad pkt
    unfold pktLoad
    split
    · exact Nat.zero_lt_two
    · exact Nat.zero_lt_one
  · have hchunk : mctpBtu ≤ me.binding.chunk := by
      have hsize := h.tx.size
      unfold mctpPacketSize at hsize
      unfold MctpBinding.chunk
      omega
    have hlt : reply.label.tag.toNat < 8 := by
      have hmem : pkt ∈ got ++ wp.dev := by
        rw [hdev]
        exact List.mem_append_right _ List.mem_cons_self
      have hpkt := (hpeer.pkt_label hmem).2.2.1
      rw [← hlabel] at hpkt
      rw [show reply.label.tag = msg.label.tag from htag]
      exact hpkt
    rw [msgPackets_single reply _ (hshort.trans hchunk), List.map_singleton, List.sum_singleton,
      pktLoad, pktLoad, pktLabel_fragPkt hlt (Nat.mod_lt _ (by decide)), ← hlabel]
    rw [show reply.label.tagOwner = false from hnot, show msg.label.tagOwner = true from howner]
    decide

/-- With nothing left on the wire, all that the peer accepted was handed up. -/
theorem EndInv.delivered (h : EndInv me peer gone got w) (hpeer : TxSide peer me got wp)
    (hempty : wp.dev = []) :
    w.hist.handed = (wp.busLog 0).accepted := by
  have hout := hpeer.out_packets
  rw [hempty, List.append_nil, ← h.rx.sim.handed] at hout
  exact Message.labelled_injective.list_map hout

end Receive

/-! ### Receiving until nothing is left -/

/-- The ends are in order, and list these message types. -/
structure LinkServers (side : Bool → Side) (types : Bool → List UInt8)
    (ends : Bool → Mctp (List MctpPktbuf)) : Prop where
  inv : LinkInv side ends
  lists : ∀ i, (ends i).control.Lists (types i)

def LinkOp.Pending (ends : Bool → Mctp (List MctpPktbuf)) : LinkOp → Prop
  | .send _ _ _ _ => False
  | .receive i => (ends !i).dev ≠ []

def LinkOp.IsReceive : LinkOp → Prop
  | .send _ _ _ _ => False
  | .receive _ => True

section Run

variable {side : Bool → Side} {types : Bool → List UInt8} {ends : Bool → Mctp (List MctpPktbuf)}

theorem LinkServers.step (h : LinkServers side types ends)
    (heid : ∀ i, (side i).eid ≠ mctpEidBroadcast) {op : LinkOp} (hop : op.Ok side) :
    LinkServers side types (linkStep side ends op) := by
  refine ⟨h.inv.step heid hop, fun j => ?_⟩
  cases op with
  | send i tagOwner tag msg =>
      rw [linkStep]
      by_cases hj : j = i
      · subst hj
        rw [Function.update_self, (mctpMessageTx_txOnly wire _ _ _ _ _).control]
        exact h.lists j
      · rw [Function.update_of_ne hj]
        exact h.lists j
  | receive i =>
      cases hdev : (ends !i).dev with
      | nil =>
          rw [linkStep, hdev]
          exact h.lists j
      | cons pkt rest =>
          rw [linkStep, hdev]
          dsimp only
          by_cases hj : j = i
          · subst hj
            rw [Function.update_self, (mctpBusRx_sameSetup wire _ _ _).control]
            exact h.lists j
          · have hother : j = !i := Bool.eq_not.mpr hj
            subst hother
            rw [Function.update_of_ne hj, Function.update_self]
            exact h.lists !i

theorem LinkServers.run (h : LinkServers side types ends)
    (heid : ∀ i, (side i).eid ≠ mctpEidBroadcast) (ops : List LinkOp)
    (hops : ∀ op ∈ ops, op.Ok side) : LinkServers side types (ops.foldl (linkStep side) ends) := by
  induction ops generalizing ends with
  | nil => exact h
  | cons op ops ih =>
      exact ih (h.step heid (hops op List.mem_cons_self)) fun op' hop' =>
        hops op' (List.mem_cons_of_mem _ hop')

theorem LinkServers.lowers (h : LinkServers side types ends)
    (heid : ∀ i, (side i).eid ≠ mctpEidBroadcast) {i : Bool} (hpending : (ends !i).dev ≠ []) :
    linkLoad (linkStep side ends (.receive i)) < linkLoad ends := by
  obtain ⟨⟨gone, hends⟩, hlists⟩ := h
  obtain ⟨pkt, rest, hdev⟩ := List.exists_cons_of_ne_nil hpending
  have hpeer := (hends !i).tx
  rw [Bool.not_not] at hpeer
  obtain ⟨pkts, hsent, hless⟩ := (hends i).receive_load hpeer hdev (heid _) (hlists i)
  have hne : i ≠ !i := by simp
  rw [linkStep, hdev]
  dsimp only
  rw [linkLoad_eq _ i, linkLoad_eq ends i, Function.update_self,
    Function.update_of_ne (Ne.symm hne), Function.update_self, hsent, hdev,
    List.map_append, List.sum_append, List.map_cons, List.sum_cons]
  dsimp only
  omega

/-- Receiving lowers the load, and with nothing to receive nothing happens. -/
theorem linkServers_drains (types : Bool → List UInt8)
    (heid : ∀ i, (side i).eid ≠ mctpEidBroadcast) :
    Drain.Drains (linkStep side) LinkOp.IsReceive (LinkServers side types)
      LinkOp.Pending linkLoad where
  keeps := by
    intro ends op hop h
    cases op with
    | send i tagOwner tag msg => exact hop.elim
    | receive i => exact h.step heid trivial
  lowers := by
    intro ends op hop h hpending
    cases op with
    | send i tagOwner tag msg => exact hop.elim
    | receive i => exact h.lowers heid hpending
  rests := by
    intro ends op hop h hidle
    cases op with
    | send i tagOwner tag msg => exact hop.elim
    | receive i =>
        have hsame : linkStep side ends (.receive i) = ends := by
          rw [linkStep, not_not.mp hidle]
        rw [hsame]
        exact ⟨rfl, fun _ => Iff.rfl⟩

end Run

/-- **The wire falls silent, and everything has arrived.** Whatever two fresh endpoints sent each
other and received, once they only receive, in any order with as many turns for both as the load of
the wire, no packet is left, and each has handed up, in order, all messages that the other accepted,
its answers among them. -/
theorem linkRun_quiesces (side : Bool → Side) (types : Bool → List UInt8)
    (ends : Bool → Mctp (List MctpPktbuf)) (ops : List LinkOp) (rounds : List (List LinkOp))
    (hfresh : ∀ i, FreshSide (side i) (ends i)) (hlists : ∀ i, (ends i).control.Lists (types i))
    (heid : ∀ i, (side i).eid ≠ mctpEidBroadcast) (hops : ∀ op ∈ ops, op.Ok side)
    (hrounds : ∀ round ∈ rounds, (∀ op ∈ round, ∃ i, op = .receive i) ∧
      ∀ i, LinkOp.receive i ∈ round)
    (henough : linkLoad (ops.foldl (linkStep side) ends) ≤ rounds.length) :
    let after := rounds.flatten.foldl (linkStep side) (ops.foldl (linkStep side) ends)
    ∀ i, (after i).dev = [] ∧ (after i).hist.handed = ((after !i).busLog 0).accepted := by
  intro after
  have hstart : LinkServers side types ends :=
    ⟨⟨fun _ => [], fun i => (hfresh i).endInv (side !i)⟩, hlists⟩
  have hdrains := linkServers_drains types heid
  have hround : ∀ round ∈ rounds, Drain.Round LinkOp.IsReceive round := by
    intro round hmem
    obtain ⟨honly, hall⟩ := hrounds round hmem
    constructor
    · intro op hop
      obtain ⟨i, rfl⟩ := honly op hop
      trivial
    · intro op hop
      cases op with
      | send i tagOwner tag msg => exact hop.elim
      | receive i => exact hall i
  have hmid := hstart.run heid ops hops
  have hidle := hdrains.rounds rounds hround _ hmid henough
  have hempty : ∀ i, (after i).dev = [] := by
    intro i
    have hpending : ¬ (after !!i).dev ≠ [] := hidle (.receive !i) trivial
    rw [Bool.not_not] at hpending
    exact not_not.mp hpending
  obtain ⟨gone, hends⟩ := (hmid.run heid rounds.flatten (by
    intro op hop
    obtain ⟨round, hmem, hop⟩ := List.mem_flatten.mp hop
    obtain ⟨i, rfl⟩ := (hrounds round hmem).1 op hop
    trivial)).inv
  intro i
  refine ⟨hempty i, ?_⟩
  have hpeer := (hends !i).tx
  rw [Bool.not_not] at hpeer
  exact (hends i).delivered hpeer (hempty !i)

/-- A Get Endpoint ID request, and two turns for both ends: the answer is received in the second. -/
theorem linkRun_quiesces_answer :
    let after :=
      ([[.receive true, .receive false], [.receive false, .receive true]] : List
        (List LinkOp)).flatten.foldl
      (linkStep smallSide)
      (([.send false true 1 [0, 0x80, 2]] : List LinkOp).foldl (linkStep smallSide) smallEnd)
    ∀ i, (after i).dev = [] ∧ (after i).hist.handed = ((after !i).busLog 0).accepted := by
  refine linkRun_quiesces smallSide (fun _ => [0]) smallEnd _ _ smallEnd_fresh (fun i => ?_)
    (fun i => by cases i <;> decide) ?_ ?_ (by decide +kernel)
  · cases i <;> exact ⟨rfl, rfl, by decide, rfl, by decide⟩
  · intro op hop
    rw [List.mem_singleton] at hop
    subst hop
    exact ⟨by decide, by decide⟩
  · intro round hround
    simp only [List.mem_cons, List.not_mem_nil, or_false] at hround
    rcases hround with rfl | rfl <;> simp

end LibMctp
