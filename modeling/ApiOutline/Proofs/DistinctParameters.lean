/-
ApiOutline/Proofs/DistinctParameters.lean

Operations that declare each parameter once.

Design.  Declaring a parameter takes its slot, and what had the slot goes; so edits
never take a slot twice.  The parameters of a template are not declared one by one:
they are taken over as they are read, and a name that the template has twice takes
its slot twice.  Such an operation becomes one without repetition only if the name
is declared again (`Opens.distinct_iff`).

Main results: the operations of a run declare each parameter once exactly if no
step opens a route in this way (`run_distinct_iff`), and a run that does
(`declares_name_twice`).
-/
import ApiOutline.Proofs.Declaration
import Mathlib.Data.List.Induction
import Mathlib.Data.List.Nodup

namespace ApiOutline

/-! ### Operations -/

namespace Operation

/-- No two parameters take one slot. -/
def Distinct (op : Operation) : Prop := (op.parameters.map Parameter.slot).Nodup

/-- Edits keep parameters distinct. -/
theorem Becomes.distinct {op op' : Operation} (h : op.Becomes op') (hop : op.Distinct) :
    op'.Distinct := by
  refine h.induct hop ?_
  intro a b e ha he
  apply List.nodup_iff_count_le_one.mpr
  intro s
  have hbefore : (a.parameters.map Parameter.slot).count s ≤ 1 :=
    List.nodup_iff_count_le_one.mp ha s
  rw [parameters_edit he, Parameter.count_map_slot_foldl_declare]
  split
  · exact Nat.le_refl 1
  · exact hbefore

end Operation

/-- A template names a parameter twice, and the edits do not declare it again. -/
def Template.Repeats (template : String) (es : List Edit) : Prop :=
  ∃ slot, 2 ≤ ((Parameter.ofTemplate template).map Parameter.slot).count slot ∧
    slot ∉ (es.flatMap Edit.declared).map Parameter.slot

namespace Session

/-! ### One step -/

/-- Every operation of the document declares each parameter once. -/
def Distinct (s : Session) : Prop := ∀ r op, s.document.operation? r = some op → op.Distinct

/-- The step opens a route from a template that names a parameter twice, and its options do not
declare the parameter again. -/
def OpensRepeated (s : Session) (st : Step) : Prop :=
  ∃ template es r op, s.Opens st template es r op ∧ Template.Repeats template es

variable {s : Session}

/-- An operation that is opened has a slot taken twice exactly if a name is repeated. -/
theorem Opens.distinct_iff {st : Step} {template : String} {es : List Edit} {r : Route}
    {op : Operation} (h : s.Opens st template es r op) :
    op.Distinct ↔ ¬ Template.Repeats template es := by
  have hcount : ∀ slot, (op.parameters.map Parameter.slot).count slot =
      if slot ∈ (es.flatMap Edit.declared).map Parameter.slot then 1
      else ((Parameter.ofTemplate template).map Parameter.slot).count slot := by
    intro slot
    rw [Operation.parameters_editAll h.edited, Parameter.count_map_slot_foldl_declare]
    rfl
  rw [Operation.Distinct, List.nodup_iff_count_le_one]
  constructor
  · rintro hdistinct ⟨slot, htwice, hfree⟩
    have hone := hdistinct slot
    rw [hcount, if_neg hfree] at hone
    omega
  · intro hrepeats slot
    rw [hcount]
    split
    · exact Nat.le_refl 1
    · rename_i hfree
      apply Nat.le_of_not_lt
      intro htwice
      exact hrepeats ⟨slot, htwice, hfree⟩

/-- An operation that is opened is stored. -/
theorem Opens.operation?_step {st : Step} {template : String} {es : List Edit} {r : Route}
    {op : Operation} (h : s.Opens st template es r op) :
    (s.step st).1.document.operation? r = some op := by
  obtain ⟨⟨name, method, options, m, o, rfl, hm, hoptions, rfl, rfl, reply, hreply⟩, habsent, hop⟩ :=
    h
  rcases step_register_cases s name template method options with
    ⟨f, hf, -⟩ | ⟨m', o', old, op', hm', hoptions', hold, hop', -, hs⟩
  · rw [hf] at hreply
    cases hreply
  · obtain rfl : m = m' := Except.ok.inj (hm.symm.trans hm')
    obtain rfl : o = o' := Except.ok.inj (hoptions.symm.trans hoptions')
    rw [habsent] at hold
    subst hold
    obtain rfl : op = op' := Except.ok.inj (hop.symm.trans hop')
    rw [hs]
    exact Document.operation?_store_self s.document _ op

/-- **One step.**  A step keeps the parameters distinct unless it opens a route whose template
names a parameter twice. -/
theorem Valid.distinct_step_iff (hs : s.Valid) (h : s.Distinct) (st : Step) :
    (s.step st).1.Distinct ↔ ¬ s.OpensRepeated st := by
  constructor
  · rintro hstep ⟨template, es, r, op, hopens, hrepeats⟩
    have hdistinct : op.Distinct := hstep r op hopens.operation?_step
    exact hopens.distinct_iff.mp hdistinct hrepeats
  · intro hopened r op' ho
    rcases hs.step_origin st ho with ⟨op, hop, hbecomes⟩ | ⟨template, es, hopens⟩
    · exact hbecomes.distinct (h r op hop)
    · have hfree : ¬ Template.Repeats template es :=
        fun hrepeats => hopened ⟨template, es, r, op', hopens, hrepeats⟩
      exact hopens.distinct_iff.mpr hfree

/-! ### Runs -/

theorem run_append (s : Session) (before after : List Step) :
    s.run (before ++ after) = (s.run before).run after := by
  induction before generalizing s with
  | nil => rfl
  | cons st before ih => exact ih (s.step st).1

theorem distinct_start (title version : String) : (start title version).Distinct := by
  intro r op ho
  cases ho

end Session

/-- **Distinct parameters.**  Throughout a run, the operations of the document declare each name
in each location once, exactly if no step opens a route from a template that names a parameter
twice without declaring that parameter again. -/
theorem run_distinct_iff (title version : String) (steps : List Step) :
    (∀ before after, steps = before ++ after →
        ((Session.start title version).run before).Distinct) ↔
      ∀ before st after, steps = before ++ st :: after →
        ¬ ((Session.start title version).run before).OpensRepeated st := by
  have hvalid : ∀ before, ((Session.start title version).run before).Valid :=
    (Session.Valid.start title version).run
  have hrun : ∀ before st, (Session.start title version).run (before ++ [st]) =
      (((Session.start title version).run before).step st).1 := by
    intro before st
    rw [Session.run_append]
    rfl
  constructor
  · intro hdistinct before st after hsteps
    have hbefore := hdistinct before (st :: after) hsteps
    have hafter := hdistinct (before ++ [st]) after (by simpa using hsteps)
    rw [hrun] at hafter
    exact ((hvalid before).distinct_step_iff hbefore st).mp hafter
  · intro hopens before
    -- by the last step taken
    induction before using List.reverseRecOn with
    | nil =>
      intro after _
      exact Session.distinct_start title version
    | append_singleton before st ih =>
      intro after hsteps
      have hsplit : steps = before ++ st :: after := by simpa using hsteps
      have hbefore := ih (st :: after) hsplit
      rw [hrun]
      exact ((hvalid before).distinct_step_iff hbefore st).mpr (hopens before st after hsplit)

/-- A template that names a parameter twice opens an operation that declares it twice. -/
theorem declares_name_twice :
    ¬ ∀ steps : List Step, ((Session.start "" "").run steps).Distinct := by
  intro hdistinct
  have hop : ∃ op, ((Session.start "" "").run
      [.register "b" "/a/{id:1}/b/{id:2}" "get" none]).document.operation?
        ⟨"/a/{id}/b/{id}", .get⟩ = some op ∧
      op.parameters.map Parameter.slot = [("id", "path"), ("id", "path")] :=
    ⟨_, rfl, rfl⟩
  obtain ⟨op, hop, hslots⟩ := hop
  have hnodup : op.Distinct := hdistinct _ _ op hop
  rw [Operation.Distinct, hslots] at hnodup
  revert hnodup
  decide

end ApiOutline
