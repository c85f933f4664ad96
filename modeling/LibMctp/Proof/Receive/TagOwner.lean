import LibMctp.Proof.Receive.Isolation

/-!
# The tag owner bit in reassembly

Contexts are told apart by source, destination and tag, and not by the tag owner bit. A message is
assembled from packets of its key alone and is handed up with the bit of its last packet, so
messages of one key must come one after the other, whichever way they go.
-/

namespace LibMctp

open Fragment Reassembly

variable {δ : Type}

/-! ### Where a message comes from -/

/-- The packets are those a message is put together from: they carry its key, the first of them
starts a message, and the last has the tag owner bit of the message. -/
structure AssembledFrom (msg : Message) (parts : List MctpPktbuf) : Prop where
  keys : ∀ pkt ∈ parts, (pktLabel pkt).key = msg.label.key
  first : ∃ pkt rest, parts = pkt :: rest ∧ (pktFrag pkt).first = true
  bytes : (parts.map fun pkt => (pktFrag pkt).payload).flatten = msg.bytes
  owner : ∃ front pkt, parts = front ++ [pkt] ∧ hdrTagOwner (mctpPktbufHdr pkt) = msg.tagOwner

theorem assembledFrom_of_sources {msg : Message} {items : List (MsgLabel × Frag UInt8)}
    {parts front : List MctpPktbuf} {pkt : MctpPktbuf}
    (h : Sources MsgLabel.key items msg.label.key msg.bytes (parts.map pktItem))
    (hparts : parts = front ++ [pkt]) (hlast : pktLabel pkt = msg.label) :
    AssembledFrom msg parts := by
  refine ⟨fun pkt' hpkt' => h.keys _ (List.mem_map_of_mem hpkt'), ?_, ?_, front, pkt, hparts, ?_⟩
  · obtain ⟨item, rest, hitems, hfirst⟩ := h.first
    cases parts with
    | nil => cases hitems
    | cons pkt' parts =>
        refine ⟨pkt', parts, rfl, ?_⟩
        rw [← (List.cons.inj hitems).1] at hfirst
        exact hfirst
  · rw [← h.data, List.map_map]
    rfl
  · exact congrArg MsgLabel.tagOwner hlast

section Owner

variable {env : Env δ} {b : Nat} {eid : UInt8} {cap : Nat} {w : Mctp δ}

theorem handed_assembledFrom (hfresh : FreshEndpoint b eid cap w) (pkts : List MctpPktbuf)
    {msg : Message} (hmsg : msg ∈ (rxRun env b w pkts).hist.handed) :
    ∃ parts, parts.Sublist pkts ∧ AssembledFrom msg parts := by
  obtain ⟨taken, htaken, hsim⟩ := rxRun_sim_some env b hfresh pkts
  have hout : msg.labelled ∈ (run MsgLabel.key 4 cap State.init (taken.map pktItem)).out := by
    rw [← hsim.handed]
    exact List.mem_map_of_mem hmsg
  obtain ⟨front, last, hsources, hlast⟩ := (sources_run (taken.map pktItem)).2 _ hout
  obtain ⟨parts, hparts, hitems⟩ := List.sublist_map_iff.mp hsources.sublist
  obtain ⟨front', lasts, rfl, _, hlasts⟩ := List.map_eq_append_iff.mp hitems.symm
  obtain ⟨pkt, rest, rfl, hpkt, hrest⟩ := List.map_eq_cons_iff.mp hlasts
  rw [List.map_eq_nil_iff.mp hrest] at hitems hparts
  rw [hitems] at hsources
  refine ⟨_, hparts.trans htaken, assembledFrom_of_sources hsources rfl ?_⟩
  rw [← hpkt] at hlast
  exact hlast

/-! ### Two messages -/

/-- The fragments of a message, each with its label. -/
def msgItems (n s : Nat) (msg : Message) : List (MsgLabel × Frag UInt8) :=
  (cut 4 n true s msg.bytes).map (Prod.mk msg.label)

/-- An endpoint in any state hands up what the machine puts out, if no message in it sets the
endpoint id. -/
theorem rxRun_hands_up (hready : RxReady b eid cap w) (hinv : RxInv cap w)
    (halloc : ∀ n, env.msgAlloc n = true) {pkts : List MctpPktbuf}
    (hfree : FindsContext env b w pkts) (htaken : ∀ pkt ∈ pkts, pktTaken eid pkt = true)
    {new : List Message} (hset : ∀ msg ∈ new, ¬ msg.SetsEid)
    (hout : (run MsgLabel.key 4 cap ⟨w.asm, w.hist.handed.map Message.labelled⟩
      (pkts.map pktItem)).out = w.hist.handed.map Message.labelled ++ new.map Message.labelled) :
    (rxRun env b w pkts).hist.handed = w.hist.handed ++ new := by
  have hitems : endpointItems eid pkts = pkts.map pktItem := by
    rw [endpointItems, List.filter_eq_self.mpr htaken]
  have hsim : Sim cap (rxRun env b w pkts)
      (run MsgLabel.key 4 cap ⟨w.asm, w.hist.handed.map Message.labelled⟩
        (endpointItems eid pkts)) := by
    refine (rxRun_sim hready ⟨hinv, rfl, rfl⟩ halloc pkts ?_ ?_).2
    · intro pre pkt hpre hsim hfirst hlast hnone
      exact hfree.at_packet hpre (flags_of_pktFrag hfirst hlast) (hsim.inv.slot_none hnone)
    · intro pre handed hpre hsim hhanded msg hmsg
      obtain ⟨rest, hrest⟩ := endpointItems_mono eid hpre
      have hmono : (rxRun env b w pre).hist.handed.map Message.labelled <+:
          w.hist.handed.map Message.labelled ++ new.map Message.labelled := by
        rw [← hout, ← hitems, ← hrest, hsim.handed]
        exact out_run_mono _ _ _
      rw [hhanded, List.map_append, List.prefix_append_right_inj] at hmono
      obtain ⟨msg', hmsg', heq⟩ := List.mem_map.mp (hmono.subset (List.mem_map_of_mem hmsg))
      rw [← Message.labelled_injective heq]
      exact hset msg' hmsg'
  refine Message.labelled_injective.list_map ?_
  rw [hsim.handed, hitems, hout, List.map_append]

end Owner

/-- **Reassembly goes by source, destination and tag.** Whatever packets come and whatever fails, a
message handed up is put together from packets of its key, and has the tag owner bit of the last of
them. Two messages of different keys are both handed up whole however their packets are merged, and
two messages of the same key when one follows the other. -/
theorem rxRun_assembles_by_key (env : Env δ) :
    (∀ b eid cap (w : Mctp δ) pkts, FreshEndpoint b eid cap w →
      ∀ msg ∈ (rxRun env b w pkts).hist.handed, ∃ parts, parts.Sublist pkts ∧
        AssembledFrom msg parts) ∧
    ∀ b eid cap (w : Mctp δ) pkts msg₁ msg₂ n₁ n₂ s₁ s₂, RxReady b eid cap w → RxInv cap w →
      (∀ n, env.msgAlloc n = true) → FindsContext env b w pkts →
      (∀ pkt ∈ pkts, pktTaken eid pkt = true) →
      w.asm msg₁.label.key = none → w.asm msg₂.label.key = none → 0 < n₁ → 0 < n₂ →
      msg₁.bytes.length ≤ cap → msg₂.bytes.length ≤ cap → ¬ msg₁.SetsEid → ¬ msg₂.SetsEid →
      (msg₁.label.key ≠ msg₂.label.key →
        Merged (msgItems n₁ s₁ msg₁) (msgItems n₂ s₂ msg₂) (pkts.map pktItem) →
        ∃ new, (rxRun env b w pkts).hist.handed = w.hist.handed ++ new ∧ new.Perm [msg₁, msg₂]) ∧
      (pkts.map pktItem = msgItems n₁ s₁ msg₁ ++ msgItems n₂ s₂ msg₂ →
        (rxRun env b w pkts).hist.handed = w.hist.handed ++ [msg₁, msg₂]) := by
  refine ⟨fun b eid cap w pkts hfresh msg hmsg => handed_assembledFrom hfresh pkts hmsg, ?_⟩
  intro b eid cap w pkts msg₁ msg₂ n₁ n₂ s₁ s₂ hready hinv halloc hfree htaken hasm₁ hasm₂ hn₁ hn₂
    hcap₁ hcap₂ hset₁ hset₂
  have hset : ∀ msg ∈ [msg₁, msg₂], ¬ msg.SetsEid := by
    intro msg hmsg
    rw [List.mem_pair] at hmsg
    cases hmsg with
    | inl h => rw [h]; exact hset₁
    | inr h => rw [h]; exact hset₂
  refine ⟨fun hkey hmerged => ?_, fun hturn => ?_⟩
  · obtain ⟨out, hout, hperm⟩ := run_merged hn₁ hn₂ hkey s₁ s₂
      ⟨w.asm, w.hist.handed.map Message.labelled⟩ hasm₁ hasm₂ (fun _ => hcap₁)
      (fun _ => hcap₂) hmerged
    have hback : (out.map fun o => o.1.message o.2).map Message.labelled = out := by
      rw [List.map_map]
      exact List.map_id out
    have hnew : (out.map fun o => o.1.message o.2).Perm [msg₁, msg₂] := hperm.map _
    refine ⟨_, rxRun_hands_up hready hinv halloc hfree htaken (fun msg hmsg =>
      hset msg (hnew.subset hmsg)) ?_, hnew⟩
    rw [hout, hback]
  · refine rxRun_hands_up hready hinv halloc hfree htaken hset ?_
    rw [hturn, run_append, msgItems, msgItems, run_cut hn₁ msg₁.label msg₁.bytes s₁ _ hasm₁ fun _ =>
      hcap₁,
      run_cut hn₂ msg₂.label msg₂.bytes s₂ _ hasm₂ fun _ => hcap₂, List.append_assoc]
    rfl

theorem msgItems_of_two {n s : Nat} {msg : Message} (hn : 0 < n) (hlt : n < msg.bytes.length)
    (hle : msg.bytes.length ≤ n + n) :
    msgItems n s msg = [(msg.label, ⟨true, false, s % 4, msg.bytes.take n⟩),
      (msg.label, ⟨false, true, (s + 1) % 4, msg.bytes.drop n⟩)] := by
  rw [msgItems, cut_of_lt hn hlt, cut_of_le (by rw [List.length_drop]; omega)]
  rfl

/-- The two packets of a message from 9, and those of one from 10 with the same tag, merged. -/
theorem rxRun_assembles_by_key_two_streams :
    ∃ new, (rxRun everyOther 0 smallEndpoint twoStreams).hist.handed = new ∧
      new.Perm [⟨9, 8, true, 1, [1, 2, 3]⟩, ⟨10, 8, true, 1, [5, 6]⟩] := by
  refine ((rxRun_assembles_by_key everyOther).2 0 8 1024 smallEndpoint twoStreams
    ⟨9, 8, true, 1, [1, 2, 3]⟩ ⟨10, 8, true, 1, [5, 6]⟩ 2 1 0 3 smallEndpoint_fresh.toRxReady
    smallEndpoint_fresh.sim.inv (fun _ => rfl)
    twoStreams_findsContext (by decide) rfl rfl (by decide) (by decide) (by decide)
    (by decide) (by decide)
    (by decide)).1 (by decide) ?_
  rw [msgItems_of_two (by decide) (by decide) (by decide),
    msgItems_of_two (by decide) (by decide) (by decide)]
  exact .left _ (.right _ (.left _ (.right _ .nil)))

/-- The packets of a request and of a response that have one key, in turn. -/
def mixedOwners : List MctpPktbuf :=
  [fragPkt smallBinding ⟨9, 8, true, 1⟩ ⟨true, false, 0, [1, 2]⟩,
    fragPkt smallBinding ⟨9, 8, false, 1⟩ ⟨true, false, 0, [5]⟩,
    fragPkt smallBinding ⟨9, 8, true, 1⟩ ⟨false, true, 1, [3]⟩, fragPkt smallBinding
    ⟨9, 8, false, 1⟩ ⟨false, true, 1, [6]⟩]

/-- What is handed up of them is the start of the response with the end of the request. -/
theorem rxRun_mixes_owners :
    FreshEndpoint 0 8 1024 smallEndpoint ∧
    Merged (msgItems 2 0 ⟨9, 8, true, 1, [1, 2, 3]⟩) (msgItems 1 0 ⟨9, 8, false, 1, [5, 6]⟩)
      (mixedOwners.map pktItem) ∧
    (rxRun everyOther 0 smallEndpoint mixedOwners).hist.handed = [⟨9, 8, true, 1, [5, 3]⟩] ∧
    ¬ ∃ parts : List MctpPktbuf, parts.Sublist mixedOwners ∧
    (∀ pkt ∈ parts, hdrTagOwner (mctpPktbufHdr pkt) = true) ∧
      (parts.map fun pkt => (pktFrag pkt).payload).flatten = [5, 3] := by
  refine ⟨smallEndpoint_fresh, ?_, by decide, ?_⟩
  · rw [msgItems_of_two (by decide) (by decide) (by decide),
      msgItems_of_two (by decide) (by decide) (by decide)]
    exact .left _ (.right _ (.left _ (.right _ .nil)))
  · rintro ⟨parts, hsub, howner, hbytes⟩
    have hnone :
      ∀ parts ∈ mixedOwners.sublists, (∀ pkt ∈ parts, hdrTagOwner (mctpPktbufHdr pkt) = true) →
        (parts.map fun pkt => (pktFrag pkt).payload).flatten ≠ [5, 3] := by decide
    exact hnone parts (List.mem_sublists.mpr hsub) howner hbytes

end LibMctp
