import LibMctp.Lib.Reassembly

/-!
# Assembling what is left of a stream

Fragments are numbered modulo `m`. A receiver that misses fewer than `m` of them in a row sees from
the number of the next one that some are missing, and drops what it has. This holds as long as no
message of one fragment passes an assembly by: such a message uses up a number of which the assembly
does not learn.
-/

namespace Reassembly

open Fragment

variable {α ι : Type*}

/-- What comes out of one assembly for a list of fragments, if no message of one fragment passes it
by. The receiver may pass over a first fragment, and may stop at any time. -/
inductive Receives (m cap : Nat) : Option (Partial α) → List (Frag α) → List (List α) → Prop
  | stop (asm : Option (Partial α)) (fs : List (Frag α)) : Receives m cap asm fs []
  | step (asm : Option (Partial α)) (f : Frag α) {fs : List (Frag α)} {outs : List (List α)} :
      (f.first = true → f.last = true → asm = none) → Receives m cap (step m cap asm f).1 fs outs →
      Receives m cap asm (f :: fs) ((step m cap asm f).2.toList ++ outs)
  | skip (f : Frag α) {fs : List (Frag α)} {outs : List (List α)} :
      Receives m cap none fs outs → Receives m cap none (f :: fs) outs

/-- What an assembly is to the message of which `xs` is left to come, numbered from `s` on, `gap`
fragments having been lost just before: nothing, all of `msg` but `xs`, or something that the next
number will end. -/
inductive Follows (m n gap s : Nat) (xs msg : List α) : Option (Partial α) → Prop
  | idle : Follows m n gap s xs msg none
  | live (p : Partial α) : gap = 0 → (p.seq + 1) % m = s % m → p.size = n → p.data ++ xs = msg →
      Follows m n gap s xs msg (some p)
  | stale (p : Partial α) : 0 < gap → gap < m → (p.seq + 1 + gap) % m = s % m →
    Follows m n gap s xs msg (some p)

section Follows

variable {m n gap s : Nat} {xs msg : List α} {asm : Option (Partial α)}

/-- One more fragment lost. -/
theorem Follows.lose (h : Follows m n gap s xs msg asm) (hgap : gap + 1 < m) (xs' msg' : List α) :
    Follows m n (gap + 1) (s + 1) xs' msg' asm := by
  have hnext : ∀ a, a % m = s % m → (a + 1) % m = (s + 1) % m :=
    fun a ha => Nat.ModEq.add_right 1 ha
  cases h with
  | idle => exact .idle
  | live p hzero hseq _ _ =>
      refine .stale p (by omega) hgap ?_
      rw [hzero]
      exact hnext _ hseq
  | stale p _ _ hseq => exact .stale p (by omega) hgap (hnext _ hseq)

/-- After a gap, the number of a later fragment is not the next one. -/
theorem seq_ne_of_gap {seq : Nat} (hpos : 0 < gap) (hlt : gap < m)
    (hseq : (seq + 1 + gap) % m = s % m) :
    (seq + 1) % m ≠ s % m := by
  intro heq
  have hmod : (seq + 1 + gap) % m = (seq + 1 + 0) % m := by
    rw [Nat.add_zero, hseq, heq]
  have hgap := Nat.ModEq.add_left_cancel' (seq + 1) hmod
  rw [Nat.ModEq, Nat.mod_eq_of_lt hlt, Nat.zero_mod] at hgap
  omega

/-- A fragment in the middle of a message. -/
theorem Follows.step_middle (cap : Nat) (h : Follows m n gap s xs msg asm) (hlt : n < xs.length) :
    Follows m n 0 (s + 1) (xs.drop n) msg (step m cap asm ⟨false, false, s % m, xs.take n⟩).1 ∧
      (step m cap asm ⟨false, false, s % m, xs.take n⟩).2 = none := by
  have htake : (xs.take n).length = n := by
    rw [List.length_take]
    omega
  cases h with
  | idle => exact ⟨.idle, rfl⟩
  | live p _ hseq hsize hdata =>
      dsimp only [step, extend]
      rw [if_neg (by decide), if_neg (not_not.mpr hseq), if_neg (by decide : ¬ false = true),
        if_pos (htake.trans hsize.symm)]
      split
      · exact ⟨.idle, rfl⟩
      · refine ⟨.live _ rfl (Nat.mod_add_mod s m 1) hsize ?_, rfl⟩
        dsimp only
        rw [List.append_assoc, List.take_append_drop, hdata]
  | stale p hpos hgap hseq =>
      dsimp only [step, extend]
      rw [if_neg (by decide), if_pos (seq_ne_of_gap hpos hgap hseq)]
      exact ⟨.idle, rfl⟩

/-- The last fragment of a message. -/
theorem Follows.step_last (cap : Nat) (h : Follows m n gap s xs msg asm) (hle : xs.length ≤ n) :
    (step m cap asm ⟨false, true, s % m, xs⟩).1 = none ∧
      ((step m cap asm ⟨false, true, s % m, xs⟩).2 = none ∨
        (step m cap asm ⟨false, true, s % m, xs⟩).2 = some msg) := by
  cases h with
  | idle => exact ⟨rfl, .inl rfl⟩
  | live p _ hseq hsize hdata =>
      dsimp only [step, extend]
      rw [if_neg (by decide), if_neg (not_not.mpr hseq), if_pos rfl,
        if_pos (hle.trans hsize.symm.le), hdata]
      split
      · exact ⟨rfl, .inl rfl⟩
      · exact ⟨rfl, .inr rfl⟩
  | stale p hpos hgap hseq =>
      dsimp only [step, extend]
      rw [if_neg (by decide), if_pos (seq_ne_of_gap hpos hgap hseq)]
      exact ⟨rfl, .inl rfl⟩

/-- The first fragment of a message of several starts over. -/
theorem follows_begin (m cap s : Nat) (asm : Option (Partial α)) (hlt : n < xs.length) :
    Follows m n 0 (s + 1) (xs.drop n) xs (step m cap asm ⟨true, false, s % m, xs.take n⟩).1 ∧
      (step m cap asm ⟨true, false, s % m, xs.take n⟩).2 = none := by
  dsimp only [step, begin]
  rw [if_pos rfl, if_neg (by decide)]
  split
  · refine ⟨.live _ rfl (Nat.mod_add_mod s m 1) ?_ ?_, rfl⟩
    · dsimp only
      rw [List.length_take]
      omega
    · exact List.take_append_drop n xs
  · exact ⟨.idle, rfl⟩

end Follows

section Stream

variable {m n cap : Nat}

theorem receives_nil {asm : Option (Partial α)} {outs : List (List α)}
    (h : Receives m cap asm [] outs) : outs = [] := by
  cases h with
  | stop => rfl

/-- With `xs` left of `msg` and `msgs` behind it, and an assembly that follows them, only whole
messages come out of what is received of the fragments sent. -/
def Faithful (m n cap gap : Nat) (sent got : List (Frag α)) (ι : Type*) : Prop :=
  ∀ (first : Bool) (s : Nat) (xs msg : List α) (msgs : List (ι × List α)) (asm : Option (Partial α))
    (outs : List (List α)),
    sent <+: cut m n first s xs ++ (stream m n (s + (cut m n first s xs).length)
      msgs).map Prod.snd →
    (first = true → msg = xs) → Follows m n gap s xs msg asm → Receives m cap asm got outs →
    outs.Sublist (msg :: msgs.map Prod.snd)

/-- Between two messages. -/
theorem Faithful.between {gap : Nat} {sent got : List (Frag α)}
    (h : Faithful m n cap gap sent got ι) (hthin : Thinned m gap sent got) {s : Nat}
    {msgs : List (ι × List α)} {asm : Option (Partial α)} {outs : List (List α)}
    (hsent : sent <+: (stream m n s msgs).map Prod.snd)
    (hfollows : ∀ xs msg, Follows m n gap s xs msg asm) (hrec : Receives m cap asm got outs) :
    outs.Sublist (msgs.map Prod.snd) := by
  cases msgs with
  | nil =>
      rw [List.prefix_nil.mp hsent] at hthin
      cases hthin
      rw [receives_nil hrec]
      exact List.nil_sublist _
  | cons msg msgs =>
      obtain ⟨l, xs⟩ := msg
      rw [stream, List.map_append, List.map_map] at hsent
      have hid : (Prod.snd ∘ Prod.mk l : Frag α → Frag α) = id := rfl
      rw [hid, List.map_id] at hsent
      exact h true s xs xs msgs asm outs hsent (fun _ => rfl) (hfollows xs xs) hrec

theorem sent_of_last {first : Bool} {s : Nat} {xs : List α} {msgs : List (ι × List α)} {f : Frag α}
    {sent : List (Frag α)} (hle : xs.length ≤ n)
    (h : f :: sent <+: cut m n first s xs ++ (stream m n (s + (cut m n first s xs).length)
      msgs).map Prod.snd) :
    f = ⟨first, true, s % m, xs⟩ ∧ sent <+: (stream m n (s + 1) msgs).map Prod.snd := by
  rw [cut_of_le hle] at h
  exact List.cons_prefix_cons.mp h

theorem sent_of_more (hn : 0 < n) {first : Bool} {s : Nat} {xs : List α} {msgs : List (ι × List α)}
    {f : Frag α} {sent : List (Frag α)} (hlt : n < xs.length)
    (h : f :: sent <+: cut m n first s xs ++ (stream m n (s + (cut m n first s xs).length)
      msgs).map Prod.snd) :
    f = ⟨first, false, s % m, xs.take n⟩ ∧ sent <+: cut m n false (s + 1) (xs.drop n) ++
      (stream m n (s + 1 + (cut m n false (s + 1) (xs.drop n)).length) msgs).map Prod.snd := by
  have hcount : s + ((cut m n false (s + 1) (xs.drop n)).length + 1)
      = s + 1 + (cut m n false (s + 1) (xs.drop n)).length := by
    omega
  rw [cut_of_lt hn hlt, List.length_cons, List.cons_append, hcount] at h
  exact List.cons_prefix_cons.mp h

theorem Faithful.keep (hn : 0 < n) {gap : Nat} {f : Frag α} {sent got : List (Frag α)}
    (hthin : Thinned m 0 sent got) (ih : Faithful m n cap 0 sent got ι) :
    Faithful m n cap gap (f :: sent) (f :: got) ι := by
  intro first s xs msg msgs asm outs hsent hmsg hfollows hrec
  by_cases hle : xs.length ≤ n
  · obtain ⟨rfl, hsent'⟩ := sent_of_last hle hsent
    have hbetween : ∀ {outs}, Receives m cap none got outs → outs.Sublist (msgs.map Prod.snd) :=
      ih.between hthin hsent' fun _ _ => .idle
    cases hrec with
    | stop => exact List.nil_sublist _
    | skip _ hrec' => exact (hbetween hrec').cons msg
    | @step _ _ _ outs' hsingle hrec' =>
        cases first with
        | true =>
            rw [hsingle rfl rfl] at hrec' ⊢
            rw [hmsg rfl]
            exact (hbetween hrec').cons_cons xs
        | false =>
            obtain ⟨hnone, hout⟩ := hfollows.step_last cap hle
            rw [hnone] at hrec'
            cases hout with
            | inl hout =>
                rw [hout]
                exact (hbetween hrec').cons msg
            | inr hout =>
                rw [hout]
                exact (hbetween hrec').cons_cons msg
  · have hlt : n < xs.length := by omega
    obtain ⟨rfl, hsent'⟩ := sent_of_more hn hlt hsent
    cases hrec with
    | stop => exact List.nil_sublist _
    | skip _ hrec' =>
        exact ih false (s + 1) (xs.drop n) msg msgs none outs hsent'
          (fun h => by cases h) .idle hrec'
    | @step _ _ _ outs' _ hrec' =>
        cases first with
        | true =>
            obtain ⟨hfollows', hout⟩ := follows_begin m cap s asm hlt
            rw [hout, hmsg rfl]
            exact ih false (s + 1) (xs.drop n) xs msgs _ outs' hsent'
              (fun h => by cases h) hfollows' hrec'
        | false =>
            obtain ⟨hfollows', hout⟩ := hfollows.step_middle cap hlt
            rw [hout]
            exact ih false (s + 1) (xs.drop n) msg msgs _ outs' hsent'
              (fun h => by cases h) hfollows' hrec'

theorem Faithful.lose (hn : 0 < n) {gap : Nat} {f : Frag α} {sent got : List (Frag α)}
    (hgap : gap + 1 < m) (hthin : Thinned m (gap + 1) sent got)
    (ih : Faithful m n cap (gap + 1) sent got ι) :
    Faithful m n cap gap (f :: sent) got ι := by
  intro first s xs msg msgs asm outs hsent hmsg hfollows hrec
  by_cases hle : xs.length ≤ n
  · obtain ⟨_, hsent'⟩ := sent_of_last hle hsent
    exact (ih.between hthin hsent' (hfollows.lose hgap) hrec).cons msg
  · obtain ⟨_, hsent'⟩ := sent_of_more hn (by omega) hsent
    exact ih false (s + 1) (xs.drop n) msg msgs asm outs hsent' (fun h => by cases h)
      (hfollows.lose hgap _ _) hrec

/-- **Only whole messages come out of a thinned stream**, in their order. -/
theorem sublist_of_thinned (hn : 0 < n) {sent got : List (Frag α)} (hthin : Thinned m 0 sent got)
    (s : Nat) (msgs : List (ι × List α)) (hsent : sent <+: (stream m n s msgs).map Prod.snd)
    {outs : List (List α)} (hrec : Receives m cap none got outs) :
    outs.Sublist (msgs.map Prod.snd) := by
  have hfaithful : ∀ {gap : Nat} {sent got : List (Frag α)}, Thinned m gap sent got →
      Faithful m n cap gap sent got ι := by
    intro gap sent got hthin
    induction hthin with
    | nil gap =>
        intro first s xs msg msgs asm outs _ _ _ hrec
        rw [receives_nil hrec]
        exact List.nil_sublist _
    | keep gap f hthin ih => exact ih.keep hn hthin
    | lose gap f hgap hthin ih => exact ih.lose hn hgap hthin
  exact (hfaithful hthin).between hthin hsent (fun _ _ => .idle) hrec

end Stream

end Reassembly
