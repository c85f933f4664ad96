import Mathlib.Data.List.Perm.Subperm
import Mathlib.Data.List.FinRange

/-!
# Requests and their answers

One party asks, another hears what was asked and answers some of it, and the answers get back. Each
request has a key, and the asker holds the keys of the requests whose answer it did not get. Nothing
is heard that was not asked, answered that was not heard, or got that was not answered, so a key
that gets back is one that is held.
-/

namespace Exchange

variable {α : Type*} {asked heard answered got held : List α} {a : α}

/-- The keys of what happened so far, in any order, and the keys that are held. -/
structure Books (asked heard answered got held : List α) : Prop where
  hears : heard.Subperm asked
  answers : answered.Subperm heard
  gets : got.Subperm answered
  holds : (held ++ got).Perm asked

theorem books_nil : Books ([] : List α) [] [] [] [] :=
  ⟨List.Subperm.refl _, List.Subperm.refl _, List.Subperm.refl _, List.Perm.refl _⟩

theorem Books.ask (h : Books asked heard answered got held) (a : α) :
    Books (asked ++ [a]) heard answered got (a :: held) where
  hears := h.hears.trans (List.sublist_append_left asked [a]).subperm
  answers := h.answers
  gets := h.gets
  holds := (h.holds.cons a).trans (List.perm_append_singleton a asked).symm

theorem Books.hear (h : Books asked heard answered got held) {heard' : List α}
    (hmore : heard.Subperm heard') (hasked : heard'.Subperm asked) :
    Books asked heard' answered got held :=
  ⟨hasked, h.answers.trans hmore, h.gets, h.holds⟩

/-- A request heard and answered at once. -/
theorem Books.serve (h : Books asked heard answered got held)
    (hasked : (heard ++ [a]).Subperm asked) :
    Books asked (heard ++ [a]) (answered ++ [a]) got held where
  hears := hasked
  answers := (List.subperm_append_right [a]).mpr h.answers
  gets := h.gets.trans (List.sublist_append_left answered [a]).subperm
  holds := h.holds

theorem Books.get (h : Books asked heard answered got held) (hback : (got ++ [a]).Subperm answered)
    {held' : List α} (hheld : held.Perm (a :: held')) :
    Books asked heard answered (got ++ [a]) held' where
  hears := h.hears
  answers := h.answers
  gets := hback
  holds := by
    have hmove : (held' ++ (got ++ [a])).Perm (a :: (held' ++ got)) := by
      rw [← List.append_assoc]
      exact List.perm_append_singleton a (held' ++ got)
    exact hmove.trans ((hheld.symm.append_right got).trans h.holds)

/-- Once all was heard and all answers got back, the keys held are those of the requests without an
answer. -/
theorem Books.settled (h : Books asked heard answered got held) (hheard : heard = asked)
    (hgot : got = answered) :
    (held ++ answered).Perm heard := by
  rw [hheard, ← hgot]
  exact h.holds

section Counting

variable [DecidableEq α]

/-- There is an `a` among `ys` for each among `xs`, and one more. -/
theorem subperm_concat_iff {xs ys : List α} :
    (xs ++ [a]).Subperm ys ↔ xs.Subperm ys ∧ xs.count a < ys.count a := by
  simp only [List.subperm_ext_iff, List.count_append]
  constructor
  · intro h
    have hself := h a (List.mem_append_right _ List.mem_cons_self)
    rw [List.count_singleton_self] at hself
    refine ⟨fun b hb => ?_, hself⟩
    exact (Nat.le_add_right _ _).trans (h b (List.mem_append_left _ hb))
  · rintro ⟨hle, hlt⟩ b hb
    by_cases heq : b = a
    · subst heq
      rw [List.count_singleton_self]
      exact hlt
    · rw [List.count_singleton, if_neg (by simpa using Ne.symm heq)]
      exact hle b ((List.mem_append.mp hb).resolve_right (by simpa using heq))

theorem Books.answer (h : Books asked heard answered got held)
    (hopen : answered.count a < heard.count a) :
    Books asked heard (answered ++ [a]) got held :=
  ⟨h.hears, subperm_concat_iff.mpr ⟨h.answers, hopen⟩,
    h.gets.trans (List.sublist_append_left answered [a]).subperm, h.holds⟩

/-- **An answer that gets back finds its key held.** -/
theorem Books.mem_held (h : Books asked heard answered got held)
    (hback : (got ++ [a]).Subperm answered) : a ∈ held := by
  have hlt := (subperm_concat_iff.mp ((hback.trans h.answers).trans h.hears)).2
  have hcount := h.holds.count_eq a
  rw [List.count_append] at hcount
  exact List.count_pos_iff.mp (by omega)

end Counting

end Exchange
