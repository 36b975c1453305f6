/-
ApiOutline/Proofs/Declaration.lean

What declarations do to the parameters of an operation.

Design.  A parameter takes the slot of its name and its location.  All that edits
do to parameters is to declare some (`parameters_editAll`), and declaring one takes
its slot out of the list and puts it at the end (`map_slot_declare`).  So what
becomes of slots is a matter of lists without a repetition, and in the end there are
the parameters, old and new, that were not declared again (`foldl_declare_eq`).
-/
import ApiOutline.Proofs.EditedParts
import ApiOutline.Proofs.History

namespace ApiOutline

namespace Parameter

/-- The slot that a parameter takes: its name and its location. -/
def slot (p : Parameter) : String × String := (p.name, p.location)

theorem sameSlot_iff (p q : Parameter) : p.sameSlot q = true ↔ p.slot = q.slot := by
  simp [sameSlot, slot]

/-- A declared parameter has its slot at the end, and nowhere else. -/
theorem map_slot_declare (ps : List Parameter) (p : Parameter) :
    (declare ps p).map slot = ((ps.map slot).filter fun s => s ≠ p.slot) ++ [p.slot] := by
  rw [declare, List.map_append, List.filter_map]
  congr 2
  apply List.filter_congr
  intro q _
  rcases hs : q.sameSlot p with - | -
  · have hne : q.slot ≠ p.slot := by
      rw [Ne, ← sameSlot_iff, hs]
      exact Bool.false_ne_true
    simp [hne]
  · have heq : q.slot = p.slot := (sameSlot_iff q p).mp hs
    simp [heq]

/-- After declarations, the slots taken are those taken before and those declared. -/
theorem mem_map_slot_foldl_declare {ps qs : List Parameter} {s : String × String} :
    s ∈ (qs.foldl declare ps).map slot ↔ s ∈ ps.map slot ∨ s ∈ qs.map slot := by
  induction qs generalizing ps with
  | nil => simp
  | cons q qs ih =>
    rw [List.foldl_cons, ih, map_slot_declare, List.map_cons]
    by_cases hs : s = q.slot <;> simp [hs]

/-- A slot that is declared is taken once; any other as often as before. -/
theorem count_map_slot_foldl_declare (ps qs : List Parameter) (s : String × String) :
    ((qs.foldl declare ps).map slot).count s =
      if s ∈ qs.map slot then 1 else (ps.map slot).count s := by
  induction qs generalizing ps with
  | nil => simp
  | cons q qs ih =>
    rw [List.foldl_cons, ih, map_slot_declare, List.map_cons, List.count_append]
    by_cases hs : s = q.slot
    · subst hs
      simp [List.count_eq_zero]
    · simp [hs, Ne.symm hs]

/-! ### What declarations leave -/

/-- The declared parameters that are not declared again. -/
def lasting : List Parameter → List Parameter
  | [] => []
  | p :: ps => if p.slot ∈ ps.map slot then lasting ps else p :: lasting ps

/-- What is declared lastingly is declared. -/
theorem lasting_sublist (ps : List Parameter) : (lasting ps).Sublist ps := by
  induction ps with
  | nil => exact .slnil
  | cons p ps ih =>
    rw [lasting]
    split
    · exact ih.cons p
    · exact ih.cons_cons p

/-- After declarations there are the parameters that were not declared again, old and new. -/
theorem foldl_declare_eq (ps qs : List Parameter) :
    qs.foldl declare ps = (ps.filter fun p => p.slot ∉ qs.map slot) ++ lasting qs := by
  induction qs generalizing ps with
  | nil =>
    rw [lasting, List.append_nil]
    exact (List.filter_eq_self.mpr fun p _ => by simp).symm
  | cons q qs ih =>
    -- of what the first declaration leaves, the rest replaces some
    have hkept : (declare ps q).filter (fun p => p.slot ∉ qs.map slot) =
        (ps.filter fun p => p.slot ∉ (q :: qs).map slot) ++
          if q.slot ∈ qs.map slot then [] else [q] := by
      have hdeclare : declare ps q = (ps.filter fun p => p.slot ≠ q.slot) ++ [q] := by
        rw [declare]
        congr 1
        refine List.filter_congr fun p _ => ?_
        rw [Bool.eq_iff_iff]
        simp [← sameSlot_iff]
      rw [hdeclare, List.filter_append, List.filter_filter]
      congr 1
      · refine List.filter_congr fun p _ => ?_
        rw [Bool.eq_iff_iff]
        simp [and_comm]
      · by_cases hq : q.slot ∈ qs.map slot
        · simp only [List.filter_cons, List.filter_nil, hq, not_true_eq_false, decide_false,
            Bool.false_eq_true, if_false, if_true]
        · simp only [List.filter_cons, List.filter_nil, hq, not_false_eq_true, decide_true,
            if_false, if_true]
    rw [List.foldl_cons, ih, hkept, lasting, List.append_assoc]
    split <;> rfl

/-- Declaring parameters again changes nothing. -/
theorem foldl_declare_foldl_declare (ps qs : List Parameter) :
    qs.foldl declare (qs.foldl declare ps) = qs.foldl declare ps := by
  have hslot : ∀ p ∈ lasting qs, p.slot ∈ qs.map slot :=
    fun p hp => List.mem_map_of_mem ((lasting_sublist qs).subset hp)
  have hreplaced : ((lasting qs).filter fun p => p.slot ∉ qs.map slot) = [] :=
    List.filter_eq_nil_iff.mpr fun p hp => by simpa using hslot p hp
  rw [foldl_declare_eq, foldl_declare_eq, List.filter_append, List.filter_filter, hreplaced,
    List.append_nil]
  simp only [Bool.and_self]

end Parameter

/-! ### Edits -/

namespace Operation

variable {op op' : Operation}

theorem parameters_edit {e : Edit} (he : (op.edit e).result = .ok op') :
    op'.parameters = e.declared.foldl Parameter.declare op.parameters := by
  rw [edit_eq_amended he, amended, List.flatMap_singleton]

/-- Good edits declare the parameters of each, in their order. -/
theorem parameters_editAll {es : List Edit} (he : (op.editAll es).result = .ok op') :
    op'.parameters = (es.flatMap Edit.declared).foldl Parameter.declare op.parameters :=
  congrArg parameters (editAll_eq_amended he)

/-- Edits never free a slot. -/
theorem Becomes.mem_slots (h : op.Becomes op') {s : String × String}
    (hs : s ∈ op.parameters.map Parameter.slot) : s ∈ op'.parameters.map Parameter.slot := by
  have hedit : ∀ (a b : Operation) (e : Edit), s ∈ a.parameters.map Parameter.slot →
      (a.edit e).result = .ok b → s ∈ b.parameters.map Parameter.slot := by
    intro a b e ha he
    rw [parameters_edit he]
    exact Parameter.mem_map_slot_foldl_declare.mpr (.inl ha)
  exact h.induct (P := fun op => s ∈ op.parameters.map Parameter.slot) hs hedit

end Operation

end ApiOutline
