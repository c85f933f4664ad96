import LibMctp.Model.Control
import LibMctp.Model.Instance
import Mathlib.Data.List.Nodup

/-!
# Message types

The types an endpoint reports stand in the first entries of an array, in the order of insertion.
Adding a type looks for it first, so that no type stands there twice, and removing one rests on
that: the loop shortens the list it walks and passes over the entry that moved up.
-/

namespace LibMctp

variable {δ : Type}

/-- The control block lists these message types. -/
structure MctpControl.Lists (control : MctpControl) (types : List UInt8) : Prop where
  room : control.msgTypes.length = mctpControlMaxTypes
  num : control.numMsgTypes = types.length
  le : types.length ≤ mctpControlMaxTypes
  eq : control.msgTypes.take control.numMsgTypes = types
  nodup : types.Nodup

/-- What adding a type makes of the types listed. A full list stays as it is. -/
def withType (types : List UInt8) (msgType : UInt8) : List UInt8 :=
  if msgType ∈ types ∨ types.length = mctpControlMaxTypes then types else types ++ [msgType]

def withoutType (types : List UInt8) (msgType : UInt8) : List UInt8 :=
  types.filter fun t => t ≠ msgType

section Types

variable {control : MctpControl} {types : List UInt8} {msgType : UInt8}

theorem MctpControl.Lists.add (h : control.Lists types) (msgType : UInt8) :
    (mctpControlAddType control msgType).1.Lists (withType types msgType) := by
  have hle := h.le
  have hroom := h.room
  have hnum := h.num
  unfold mctpControlAddType withType
  rw [h.eq, h.num]
  split
  · rename_i hmem
    rw [if_pos (.inl hmem)]
    exact h
  · rename_i hmem
    split
    · rename_i hfull
      rw [if_pos (.inr hfull)]
      exact h
    · rename_i hfull
      rw [if_neg (not_or.mpr ⟨hmem, hfull⟩)]
      have hpre : control.msgTypes.take types.length = types := by
        rw [← h.num]
        exact h.eq
      have hlt : types.length < mctpControlMaxTypes := lt_of_le_of_ne h.le hfull
      have hwrite : writeBytes control.msgTypes types.length [msgType]
          = types ++ [msgType] ++ control.msgTypes.drop (types.length + 1) := by
        rw [writeBytes, hpre]
        rfl
      refine ⟨?_, ?_, ?_, ?_, ?_⟩
      · dsimp only
        rw [hwrite]
        simp only [List.length_append, List.length_singleton, List.length_drop]
        omega
      · dsimp only
        rw [List.length_append, List.length_singleton]
      · rw [List.length_append, List.length_singleton]
        exact hlt
      · dsimp only
        rw [hwrite, List.take_left' (by simp)]
      · exact List.nodup_append.mpr ⟨h.nodup, List.nodup_singleton _, by
          intro a ha b hb
          rw [List.mem_singleton.mp hb]
          exact ne_of_mem_of_not_mem ha hmem⟩

theorem withoutType_eraseIdx {i : Nat} (hi : types[i]? = some msgType) :
    withoutType (types.eraseIdx i) msgType = withoutType types msgType := by
  obtain ⟨hlt, hget⟩ := List.getElem?_eq_some_iff.mp hi
  have hsplit : types = types.take i ++ msgType :: types.drop (i + 1) := by
    rw [← hget, List.getElem_cons_drop, List.take_append_drop]
  rw [List.eraseIdx_eq_take_drop_succ]
  conv_rhs => rw [hsplit]
  unfold withoutType
  simp

theorem withoutType_of_not_mem (h : msgType ∉ types) : withoutType types msgType = types := by
  refine List.filter_eq_self.mpr fun t ht => ?_
  rw [decide_eq_true_eq]
  exact ne_of_mem_of_not_mem ht h

/-- Closing the gap left by one type. -/
theorem MctpControl.Lists.eraseIdx (h : control.Lists types) {i : Nat}
    (hi : i < control.numMsgTypes) :
    MctpControl.Lists
      { msgTypes := writeBytes control.msgTypes i
          (readBytes control.msgTypes (i + 1) (control.numMsgTypes - (i + 1)))
        numMsgTypes := control.numMsgTypes - 1 } (types.eraseIdx i) := by
  have hle := h.le
  have hroom := h.room
  have hnum := h.num
  have hread : readBytes control.msgTypes (i + 1) (control.numMsgTypes - (i + 1))
      = types.drop (i + 1) := by
    rw [readBytes_of_le (by omega), ← h.eq, List.drop_take]
  have hpre : control.msgTypes.take i = types.take i := by
    rw [← h.eq, List.take_take, Nat.min_eq_left (by omega)]
  have herase : (types.eraseIdx i).length = types.length - 1 :=
    List.length_eraseIdx_of_lt (by omega)
  have hwrite : writeBytes control.msgTypes i (types.drop (i + 1))
      = types.eraseIdx i ++ control.msgTypes.drop (i + (types.drop (i + 1)).length) := by
    rw [writeBytes, hpre, List.eraseIdx_eq_take_drop_succ]
  rw [hread, hwrite]
  refine ⟨?_, ?_, ?_, ?_, ?_⟩
  · dsimp only
    rw [List.length_append, herase, List.length_drop, List.length_drop]
    omega
  · dsimp only
    rw [herase, hnum]
  · rw [herase]
    omega
  · dsimp only
    rw [List.take_left' (by rw [herase, hnum])]
  · exact h.nodup.eraseIdx i

theorem MctpControl.Lists.removeLoop (rounds : Nat) :
    ∀ {i : Nat} {control : MctpControl} {types : List UInt8},
    control.Lists types → msgType ∉ types.take i → control.numMsgTypes ≤ i + rounds →
      (mctpControlRemoveLoop msgType rounds i control).Lists (withoutType types msgType) := by
  induction rounds with
  | zero =>
      intro i control types h hbefore hrounds
      have hnum := h.num
      rw [List.take_of_length_le (by omega)] at hbefore
      rw [mctpControlRemoveLoop, withoutType_of_not_mem hbefore]
      exact h
  | succ rounds ih =>
      intro i control types h hbefore hrounds
      have hnum := h.num
      rw [mctpControlRemoveLoop]
      split
      · rename_i hi
        have hget : types[i]? = some (control.msgTypes.getD i 0) := by
          have hroom := h.room
          have hle := h.le
          rw [← h.eq, List.getElem?_take_of_lt hi, List.getD_eq_getElem?_getD,
            List.getElem?_eq_getElem (by omega), Option.getD_some]
        split
        · rename_i hfound
          rw [hfound] at hget
          -- the types differ, so that none is left for the rounds to come
          obtain ⟨hlt, -⟩ := List.getElem?_eq_some_iff.mp hget
          have hgone : msgType ∉ types.eraseIdx i := by
            rw [List.mem_eraseIdx_iff_getElem?]
            rintro ⟨k, hk, hgetk⟩
            exact hk ((List.getElem?_inj hlt h.nodup).mp (hget.trans hgetk.symm)).symm
          rw [← withoutType_eraseIdx hget]
          exact ih (h.eraseIdx hi) (fun hmem => hgone (List.mem_of_mem_take hmem))
            (by dsimp only; omega)
        · rename_i hother
          refine ih h ?_ (by omega)
          rw [List.take_add_one, hget, List.mem_append, not_or]
          refine ⟨hbefore, ?_⟩
          simpa using Ne.symm hother
      · rename_i hi
        rw [List.take_of_length_le (by omega)] at hbefore
        rw [withoutType_of_not_mem hbefore]
        exact h

theorem MctpControl.Lists.remove (h : control.Lists types) (msgType : UInt8) :
    (mctpControlRemoveType control msgType).Lists (withoutType types msgType) :=
  h.removeLoop control.numMsgTypes (by simp) (by omega)

/-! ### What the calls answer -/

theorem MctpControl.Lists.add_rc (h : control.Lists types) (msgType : UInt8) :
    (mctpControlAddType control msgType).2 =
      if msgType ∉ types ∧ types.length = mctpControlMaxTypes then -enospc else 0 := by
  unfold mctpControlAddType
  rw [h.eq, h.num]
  split
  · rename_i hmem
    rw [if_neg fun hfull => hfull.1 hmem]
  · rename_i hmem
    split
    · rename_i hfull
      rw [if_pos ⟨hmem, hfull⟩]
    · rename_i hfull
      rw [if_neg fun hboth => hfull hboth.2]

theorem MctpControl.Lists.add_full (h : control.Lists types) (habsent : msgType ∉ types)
    (hfull : types.length = mctpControlMaxTypes) :
    (mctpControlAddType control msgType).1 = control := by
  unfold mctpControlAddType
  rw [h.eq, h.num, if_neg habsent, if_pos hfull]

/-- The loop of `mctp_control_remove_type` on an array whose bounds are checked: it fails where it
would read an entry outside, or where `memmove` would read or write there. -/
def removeLoopChecked (msgType : UInt8) : Nat → Nat → MctpControl → Option MctpControl
  | 0, _, control => some control
  | rounds + 1, i, control =>
    if i < control.numMsgTypes then
      if mctpControlMaxTypes ≤ i then none
      else if control.msgTypes.getD i 0 = msgType then
        let count := control.numMsgTypes - (i + 1)
        if mctpControlMaxTypes < i + 1 + count ∨ mctpControlMaxTypes < i + count then none
        else removeLoopChecked msgType rounds (i + 1)
          { msgTypes := writeBytes control.msgTypes i (readBytes control.msgTypes (i + 1) count)
            numMsgTypes := control.numMsgTypes - 1 }
      else removeLoopChecked msgType rounds (i + 1) control
    else some control

def removeTypeChecked (control : MctpControl) (msgType : UInt8) : Option MctpControl :=
  removeLoopChecked msgType control.numMsgTypes 0 control

/-- The number of types never grows, so that what is in bounds at first stays so. -/
theorem removeLoopChecked_eq (rounds : Nat) : ∀ (i : Nat) (control : MctpControl),
    control.numMsgTypes ≤ mctpControlMaxTypes →
      removeLoopChecked msgType rounds i control
        = some (mctpControlRemoveLoop msgType rounds i control) := by
  induction rounds with
  | zero => exact fun i control hle => rfl
  | succ rounds ih =>
      intro i control hle
      rw [removeLoopChecked, mctpControlRemoveLoop]
      split
      · rename_i hi
        rw [if_neg (by omega)]
        split
        · dsimp only
          rw [if_neg (by omega)]
          exact ih (i + 1) _ (by dsimp only; omega)
        · exact ih (i + 1) control hle
      · rfl

end Types

/-! ### Runs of calls -/

inductive TypeOp where
  | add (msgType : UInt8)
  | remove (msgType : UInt8)

def typeStep (control : MctpControl) : TypeOp → MctpControl
  | .add msgType => (mctpControlAddType control msgType).1
  | .remove msgType => mctpControlRemoveType control msgType

/-- What a call makes of the list of types. -/
def TypeOp.listed (types : List UInt8) : TypeOp → List UInt8
  | .add msgType => withType types msgType
  | .remove msgType => withoutType types msgType

theorem lists_control : (mctpControlAddType {} mctpCtrlHdrMsgType).1.Lists [mctpCtrlHdrMsgType] :=
  ⟨rfl, rfl, by decide, rfl, by decide⟩

theorem MctpControl.Lists.step {control : MctpControl} {types : List UInt8}
    (h : control.Lists types) (op : TypeOp) :
    (typeStep control op).Lists (op.listed types) := by
  cases op with
  | add msgType => exact h.add msgType
  | remove msgType => exact h.remove msgType

theorem MctpControl.Lists.run {control : MctpControl} {types : List UInt8} (h : control.Lists types)
    (ops : List TypeOp) :
    (ops.foldl typeStep control).Lists (ops.foldl TypeOp.listed types) := by
  induction ops generalizing control types with
  | nil => exact h
  | cons op ops ih => exact ih (h.step op)

/-- The message types of an instance after the calls `ops` on a new one. -/
def typeRun (bindings : Nat → MctpBinding) (now : Nat) (dev : δ) (ops : List TypeOp) :
    MctpControl :=
  ops.foldl typeStep (mctpSetup bindings now dev).control

/-- The list that the calls make of the control type. -/
def typesListed (ops : List TypeOp) : List UInt8 := ops.foldl TypeOp.listed [mctpCtrlHdrMsgType]

/-- **The message types form a bounded ordered set.** -/
theorem typeRun_boundedSet (bindings : Nat → MctpBinding) (now : Nat) (dev : δ)
    (ops : List TypeOp) :
    ((typeRun bindings now dev ops).numMsgTypes = (typesListed ops).length ∧
      (typeRun bindings now dev ops).msgTypes.take (typeRun bindings now dev ops).numMsgTypes
        = typesListed ops) ∧
    ((typesListed ops).Nodup ∧ (typesListed ops).length ≤ mctpControlMaxTypes) ∧
    (∀ msgType, (mctpControlAddType (typeRun bindings now dev ops) msgType).2 =
        (if msgType ∉ typesListed ops ∧ (typesListed ops).length = mctpControlMaxTypes then
          -enospc else 0) ∧
      ((mctpControlAddType (typeRun bindings now dev ops) msgType).2 = -enospc →
        (mctpControlAddType (typeRun bindings now dev ops) msgType).1
          = typeRun bindings now dev ops)) ∧
    ∀ msgType, msgType ∉ (mctpControlRemoveType (typeRun bindings now dev ops)
      msgType).msgTypes.take
        (mctpControlRemoveType (typeRun bindings now dev ops) msgType).numMsgTypes ∧
      removeTypeChecked (typeRun bindings now dev ops) msgType =
        some (mctpControlRemoveType (typeRun bindings now dev ops) msgType) := by
  have h : (typeRun bindings now dev ops).Lists (typesListed ops) := lists_control.run ops
  refine ⟨⟨h.num, h.eq⟩, ⟨h.nodup, h.le⟩, fun msgType => ⟨h.add_rc msgType, fun hrc => ?_⟩,
    fun msgType => ⟨?_, ?_⟩⟩
  · rw [h.add_rc msgType] at hrc
    split at hrc
    · rename_i hfull
      exact h.add_full hfull.1 hfull.2
    · exact absurd hrc (by decide)
  · rw [(h.remove msgType).eq]
    simp [withoutType]
  · apply removeLoopChecked_eq
    rw [h.num]
    exact h.le

end LibMctp
