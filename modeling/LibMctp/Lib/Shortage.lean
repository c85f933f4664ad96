import LibMctp.Lib.Reassembly
import Mathlib.Data.Finset.Card

/-!
# A receiver short of memory

A receiver that passes over fragments it has no room for falls behind one that has room for all. For
each key it either has the same assembly or none, so whatever it puts out the other puts out as
well, and no fragment passed over costs more than one message.
-/

namespace Reassembly

open Fragment

variable {α ι κ : Type*}

/-- `st'` is behind `st`: it has passed over `lost` fragments, and lacks the assemblies in
`missing`. -/
structure BehindBy (st' st : State α ι κ) (lost : Nat) (missing : Finset κ) : Prop where
  same : ∀ k, k ∉ missing → st'.asm k = st.asm k
  lacks : ∀ k ∈ missing, st'.asm k = none
  out : st'.out.Sublist st.out
  count : st.out.length + missing.card ≤ st'.out.length + lost

def Behind (st' st : State α ι κ) (lost : Nat) : Prop := ∃ missing, BehindBy st' st lost missing

theorem behind_refl (st : State α ι κ) : Behind st st 0 :=
  ⟨∅, fun _ _ => rfl, fun _ hk => absurd hk (Finset.notMem_empty _), List.Sublist.refl _, by simp⟩

theorem Behind.mono {st st' : State α ι κ} {lost lost' : Nat} (h : Behind st' st lost)
    (hle : lost ≤ lost') : Behind st' st lost' := by
  obtain ⟨missing, h⟩ := h
  exact ⟨missing, h.same, h.lacks, h.out, h.count.trans (Nat.add_le_add_left hle _)⟩

/-- A message ends its assembly. -/
theorem extend_out {m cap : Nat} {p : Partial α} {f : Frag α} {bytes : List α}
    (h : (extend m cap p f).2 = some bytes) :
    (extend m cap p f).1 = none := by
  unfold extend at h ⊢
  split_ifs at h ⊢
  all_goals simp_all

/-- Without its assembly, a step comes to the same assembly with no more put out, or to none with
the same put out. -/
theorem step_of_missing (m cap : Nat) (asm : Option (Partial α)) (f : Frag α) :
    (step m cap none f).1 = (step m cap asm f).1 ∧
        ((step m cap none f).2 = (step m cap asm f).2 ∨ (step m cap none f).2 = none) ∨
      (step m cap none f).1 = none ∧ (step m cap none f).2 = (step m cap asm f).2 := by
  unfold step
  by_cases hfirst : f.first = true
  · rw [if_pos hfirst, if_pos hfirst]
    by_cases hlast : f.last = true
    · rw [if_pos hlast, if_pos hlast]
      exact .inr ⟨rfl, rfl⟩
    · rw [if_neg hlast, if_neg hlast]
      exact .inl ⟨rfl, .inl rfl⟩
  · rw [if_neg hfirst, if_neg hfirst]
    cases asm with
    | none => exact .inl ⟨rfl, .inl rfl⟩
    | some p =>
        dsimp only
        cases hout : (extend m cap p f).2 with
        | none => exact .inr ⟨rfl, rfl⟩
        | some bytes => exact .inl ⟨(extend_out hout).symm, .inr rfl⟩

section Behind

variable [DecidableEq κ] {key : ι → κ} {m cap lost : Nat} {st st' : State α ι κ}
  {missing : Finset κ}

theorem asm_machine_self (st : State α ι κ) (item : ι × Frag α) :
    (machine key m cap st item).asm (key item.1) = (step m cap (st.asm (key item.1)) item.2).1 :=
      Function.update_self ..

theorem asm_machine_of_ne (st : State α ι κ) (item : ι × Frag α) {k : κ} (hk : k ≠ key item.1) :
    (machine key m cap st item).asm k = st.asm k := Function.update_of_ne hk ..

theorem out_machine (st : State α ι κ) (item : ι × Frag α) :
    (machine key m cap st item).out = st.out ++ ((step m cap (st.asm (key item.1)) item.2).2.map
      (Prod.mk item.1)).toList := rfl

/-- One step of both, at a key that is not behind. -/
theorem BehindBy.both_same (h : BehindBy st' st lost missing) (item : ι × Frag α)
    (hkey : key item.1 ∉ missing) :
    BehindBy (machine key m cap st' item) (machine key m cap st item) lost missing := by
  have hcount := h.count
  have hasm := h.same _ hkey
  refine ⟨fun k hk => ?_, fun k hk => ?_, ?_, ?_⟩
  · by_cases heq : k = key item.1
    · subst heq
      rw [asm_machine_self, asm_machine_self, hasm]
    · rw [asm_machine_of_ne _ _ heq, asm_machine_of_ne _ _ heq]
      exact h.same k hk
  · have hne : k ≠ key item.1 := by
      rintro rfl
      exact hkey hk
    rw [asm_machine_of_ne _ _ hne]
    exact h.lacks k hk
  · rw [out_machine, out_machine, hasm]
    exact h.out.append (List.Sublist.refl _)
  · rw [out_machine, out_machine, hasm, List.length_append, List.length_append]
    omega

/-- At a key that is behind, a step may end that, or leave it so. -/
theorem BehindBy.both_missing (h : BehindBy st' st lost missing) (item : ι × Frag α)
    (hkey : key item.1 ∈ missing) :
    Behind (machine key m cap st' item) (machine key m cap st item) lost := by
  have hcount := h.count
  have hnone := h.lacks _ hkey
  rcases step_of_missing m cap (st.asm (key item.1)) item.2 with ⟨hasm, hout⟩ | ⟨hasm, hout⟩
  · -- a message may be lost, but then the key is behind no longer
    refine ⟨missing.erase (key item.1), fun k hk => ?_, fun k hk => ?_, ?_, ?_⟩
    · by_cases heq : k = key item.1
      · subst heq
        rw [asm_machine_self, asm_machine_self, hnone, hasm]
      · rw [asm_machine_of_ne _ _ heq, asm_machine_of_ne _ _ heq]
        exact h.same k fun hmem => hk (Finset.mem_erase.mpr ⟨heq, hmem⟩)
    · obtain ⟨hne, hmem⟩ := Finset.mem_erase.mp hk
      rw [asm_machine_of_ne _ _ hne]
      exact h.lacks k hmem
    · rw [out_machine, out_machine, hnone]
      apply h.out.append
      rcases hout with heq | hempty
      · rw [heq]
      · rw [hempty]
        exact List.nil_sublist _
    · have hcard := Finset.card_erase_add_one hkey
      rw [out_machine, out_machine, hnone, List.length_append, List.length_append]
      rcases hout with heq | hempty
      · rw [heq]
        omega
      · have hone :=
          Option.length_toList_le
          (o := (step m cap (st.asm (key item.1)) item.2).2.map (Prod.mk item.1))
        omega
  · refine ⟨missing, fun k hk => ?_, fun k hk => ?_, ?_, ?_⟩
    · have hne : k ≠ key item.1 := by
        rintro rfl
        exact hk hkey
      rw [asm_machine_of_ne _ _ hne, asm_machine_of_ne _ _ hne]
      exact h.same k hk
    · by_cases heq : k = key item.1
      · subst heq
        rw [asm_machine_self, hnone, hasm]
      · rw [asm_machine_of_ne _ _ heq]
        exact h.lacks k hk
    · rw [out_machine, out_machine, hnone, hout]
      exact h.out.append (List.Sublist.refl _)
    · rw [out_machine, out_machine, hnone, hout, List.length_append, List.length_append]
      omega

/-- **Both take the fragment.** -/
theorem Behind.both (h : Behind st' st lost) (item : ι × Frag α) :
    Behind (machine key m cap st' item) (machine key m cap st item) lost := by
  obtain ⟨missing, h⟩ := h
  by_cases hkey : key item.1 ∈ missing
  · exact h.both_missing item hkey
  · exact ⟨missing, h.both_same item hkey⟩

/-- **One passes over it.** It may be a message, or the start of one. -/
theorem Behind.skip (h : Behind st' st lost) (item : ι × Frag α)
    (hskips : Skips (st'.asm (key item.1)) item.2) :
    Behind st' (machine key m cap st item) (lost + 1) := by
  obtain ⟨missing, h⟩ := h
  have hcount := h.count
  have hout : st'.out.Sublist (machine key m cap st item).out :=
    h.out.trans (List.sublist_append_left _ _)
  obtain ⟨hfirst, hlast⟩ := hskips
  by_cases hone : item.2.last = true
  · have hstep : step m cap (st.asm (key item.1)) item.2
        = (st.asm (key item.1), some item.2.payload) := by
      unfold step
      rw [if_pos hfirst, if_pos hone]
    have hasm : (machine key m cap st item).asm = st.asm := by
      dsimp only [machine]
      rw [hstep, Function.update_eq_self]
    refine ⟨missing, fun k hk => ?_, h.lacks, hout, ?_⟩
    · rw [hasm]
      exact h.same k hk
    · rw [out_machine, hstep, List.length_append]
      dsimp only [Option.map_some, Option.toList_some, List.length_singleton]
      omega
  · have hnone : st'.asm (key item.1) = none := by
      rcases hlast with hlast | hnone
      · exact absurd hlast hone
      · exact hnone
    have hstep : (step m cap (st.asm (key item.1)) item.2).2 = none := by
      unfold step
      rw [if_pos hfirst, if_neg hone]
    have hcard := Finset.card_insert_le (key item.1) missing
    refine ⟨insert (key item.1) missing, fun k hk => ?_, fun k hk => ?_, hout, ?_⟩
    · rw [Finset.mem_insert, not_or] at hk
      rw [asm_machine_of_ne _ _ hk.1]
      exact h.same k hk.2
    · rcases Finset.mem_insert.mp hk with rfl | hk
      · exact hnone
      · exact h.lacks k hk
    · rw [out_machine, hstep, Option.map_none, Option.toList_none, List.append_nil]
      omega

end Behind

end Reassembly
