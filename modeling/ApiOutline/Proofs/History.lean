/-
ApiOutline/Proofs/History.lean

Where the operation of a route comes from.

Design.  Whatever a step does, the operation that a route has after it either was
there before and has since been edited, perhaps by no edit at all, or it was opened
by the step, from a template with the key of the route.  This is said once
(`step_origin`), so that a property of stored operations needs two lemmas only:
edits keep it, and what a template describes has it.
-/
import ApiOutline.Proofs.RouteLookup
import ApiOutline.Proofs.Store
import Mathlib.Logic.Relation

namespace ApiOutline

/-! ### Edited operations -/

namespace Operation

/-- One good edit leads from an operation to another. -/
def EditsTo (op op' : Operation) : Prop := ∃ e, (op.edit e).result = .ok op'

/-- Good edits, one after the other, lead from an operation to another. -/
def Becomes : Operation → Operation → Prop := Relation.ReflTransGen EditsTo

variable {op op' : Operation}

theorem Becomes.refl (op : Operation) : op.Becomes op := Relation.ReflTransGen.refl

theorem Becomes.edit {e : Edit} (he : (op.edit e).result = .ok op') : op.Becomes op' :=
  Relation.ReflTransGen.single ⟨e, he⟩

theorem Becomes.editAll {es : List Edit} (he : (op.editAll es).result = .ok op') :
    op.Becomes op' := by
  induction es generalizing op with
  | nil =>
    obtain rfl := Except.ok.inj he
    exact .refl op
  | cons e es ih =>
    obtain ⟨next, hnext, he⟩ := Traced.result_bind_eq_ok_iff.mp he
    have hrest : next.Becomes op' := ih he
    exact hrest.head ⟨e, hnext⟩

/-- Edits that stop at a bad one lead to what they leave. -/
theorem Becomes.editUpTo (op : Operation) (es : List Edit) : op.Becomes (op.editUpTo es).1 := by
  induction es generalizing op with
  | nil => exact .refl op
  | cons e es ih =>
    rw [Operation.editUpTo]
    rcases he : (op.edit e).result with f | next
    · exact .refl op
    · have hrest : next.Becomes (next.editUpTo es).1 := ih next
      exact hrest.head ⟨e, he⟩

/-- Edits that are all good leave what they come to; others fail as the first bad one does. -/
theorem result_editAll (op : Operation) (es : List Edit) :
    (op.editAll es).result = (op.editUpTo es).2.result.map fun _ => (op.editUpTo es).1 := by
  induction es generalizing op with
  | nil => rfl
  | cons e es ih =>
    rw [editAll, Traced.result_bind, editUpTo]
    rcases he : (op.edit e).result with f | next
    · rfl
    · exact ih next

/-- What each good edit keeps, good edits keep. -/
theorem Becomes.induct {P : Operation → Prop} (h : op.Becomes op') (hop : P op)
    (hedit : ∀ a b e, P a → (a.edit e).result = .ok b → P b) : P op' := by
  induction h with
  | refl => exact hop
  | tail _ hlast ih =>
    obtain ⟨e, he⟩ := hlast
    exact hedit _ _ e ih he

end Operation

/-! ### Registration -/

/-- Registration edits the operation of the route, or the one that the template describes, and
stores it. -/
theorem Document.result_register (doc : Document) (template : String) (m : Method)
    (es : List Edit) :
    (doc.register template m es).result =
      (((doc.operation? (Route.of template m)).getD (Operation.ofTemplate template)).editAll
        es).result.map (doc.store (Route.of template m)) := by
  rw [Document.register]
  rcases doc.operation? (Route.of template m) with - | op
  · rw [Option.getD_none, Traced.result_bind]
    rcases ((Operation.ofTemplate template).editAll es).result with f | op <;> rfl
  · rw [Option.getD_some, Traced.result_bind]
    rcases (op.editAll es).result with f | op <;> rfl

/-- Registration stores one operation under the route: the one that was there, edited, or the one
that the template describes, edited. -/
theorem Document.register_cases {doc doc' : Document} {template : String} {m : Method}
    {es : List Edit} (h : (doc.register template m es).result = .ok doc') :
    ∃ old op, doc' = doc.store (Route.of template m) op ∧ (old.editAll es).result = .ok op ∧
      old = (doc.operation? (Route.of template m)).getD (Operation.ofTemplate template) := by
  rw [result_register] at h
  rcases hop : (Operation.editAll _ es).result with f | op
  · rw [hop] at h
    cases h
  · rw [hop] at h
    exact ⟨_, op, (Except.ok.inj h).symm, hop, rfl⟩

/-! ### Steps -/

namespace Session

variable {s : Session}

/-- The step registers a template with options that ask for the given edits. -/
def Registers (s : Session) (st : Step) (template : String) (es : List Edit) (r : Route) : Prop :=
  ∃ name method options m o, st = .register name template method options ∧
    Method.read method = .ok m ∧ readOptions options = .ok o ∧ o.edits = es ∧
    r = Route.of template m ∧ ∃ reply, (s.step st).2.result = .ok reply

/-- The step opens a route, which had no operation, with this one: what the template describes,
after the edits that the options ask for. -/
structure Opens (s : Session) (st : Step) (template : String) (es : List Edit) (r : Route)
    (op : Operation) : Prop where
  registers : s.Registers st template es r
  absent : s.document.operation? r = none
  edited : ((Operation.ofTemplate template).editAll es).result = .ok op

/-- A step that depends on a computation leaves the session, or goes on with the value. -/
theorem after_cases {α : Type} (s : Session) (x : Traced Notice Fault α)
    (f : α → Session × Reply) :
    (∃ e, x.result = .error e ∧ (s.after x f).1 = s ∧ (s.after x f).2.result = .error e) ∨
      ∃ a, x.result = .ok a ∧ (s.after x f).1 = (f a).1 ∧ (s.after x f).2.result = .ok (f a).2 := by
  rw [Session.after]
  rcases hx : x.result with e | a
  · exact .inl ⟨e, rfl, rfl, rfl⟩
  · exact .inr ⟨a, rfl, rfl, rfl⟩

/-- After a removal, a route has its operation if it is not under the key of the template and does
not carry the tag. -/
theorem operation?_removal {doc : Document} (h : doc.Valid) (template tag : Option String)
    (r : Route) :
    (removal doc template tag).operation? r =
      (doc.operation? r).filter fun op =>
        !(template.any fun t => Template.keyOf t = r.key) && !(tag.any fun t => op.carries t) := by
  rcases template with - | template
  · rcases tag with - | tag
    · rcases ho : doc.operation? r with - | op <;> simp [removal, Option.filter, ho]
    · simpa [removal] using Document.operation?_removeTag h tag r
  · have hpath := Document.operation?_removePath h template r
    rcases tag with - | tag
    · rw [removal, hpath]
      rcases doc.operation? r with - | op
      · simp
      · by_cases hkey : Template.keyOf template = r.key <;> simp [Option.filter, hkey]
    · rw [removal, Document.operation?_removeTag (h.removePath template), hpath]
      by_cases hkey : Template.keyOf template = r.key <;> simp [hkey]

/-- What the registration of a route comes to when it is not refused. -/
theorem step_register_cases (s : Session) (name template method : String)
    (options : Option Data) :
    let st := Step.register name template method options
    (∃ f, (s.step st).2.result = .error f ∧ (s.step st).1 = s) ∨
      ∃ m o old op, Method.read method = .ok m ∧ readOptions options = .ok o ∧
        old = (s.document.operation? (Route.of template m)).getD (Operation.ofTemplate template) ∧
        (old.editAll o.edits).result = .ok op ∧
        (s.step st).2.result = .ok (.opened (Route.of template m)) ∧
        (s.step st).1 =
          s.hold name (Route.of template m) (s.document.store (Route.of template m) op) := by
  intro st
  rcases after_cases s _ fun opened : Route × Document =>
      (s.hold name opened.1 opened.2, Reply.opened opened.1) with
    ⟨f, -, hs, hf⟩ | ⟨opened, ho, hs, hr⟩
  · exact .inl ⟨f, hf, hs⟩
  · -- the method, the options and the edits are all good
    obtain ⟨m, hm, ho⟩ := Traced.result_bind_eq_ok_iff.mp ho
    obtain ⟨o, hoptions, ho⟩ := Traced.result_bind_eq_ok_iff.mp ho
    obtain ⟨doc, hdoc, ho⟩ := Traced.result_bind_eq_ok_iff.mp ho
    obtain ⟨old, op, rfl, hop, hold⟩ := Document.register_cases hdoc
    obtain rfl := Except.ok.inj ho
    exact .inr ⟨m, o, old, op, hm, hoptions, hold, hop, hr, hs⟩

/-- A registration that opens a route has edited the operation of the route, or the one that the
template describes, and stored it. -/
theorem step_register_opened {name template method : String} {options : Option Data} {r : Route}
    (hr : (s.step (.register name template method options)).2.result = .ok (.opened r)) :
    ∃ m o old op, Method.read method = .ok m ∧ readOptions options = .ok o ∧
      r = Route.of template m ∧
      old = (s.document.operation? r).getD (Operation.ofTemplate template) ∧
      (old.editAll o.edits).result = .ok op ∧
      (s.step (.register name template method options)).1 =
        s.hold name r (s.document.store r op) := by
  rcases s.step_register_cases name template method options with
    ⟨f, hf, -⟩ | ⟨m, o, old, op, hm, ho, hold, hop, hanswer, hsession⟩
  · cases hf.symm.trans hr
  · obtain rfl := Reply.opened.inj (Except.ok.inj (hanswer.symm.trans hr))
    exact ⟨m, o, old, op, hm, ho, rfl, hold, hop, hsession⟩

/-- A change through a handle leaves the session, edits the operation of the handle, or removes
its route. -/
theorem change_cases (s : Session) (handle : Handle) (c : Change) :
    (s.change handle c).1 = s ∨
      (∃ old new, s.operation? handle = some old ∧ old.Becomes new ∧
        (s.change handle c).1 = s.store handle new) ∨
      (s.change handle c).1 = s.shrink (s.document.removeRoute handle.route) := by
  cases c with
  | edit e =>
    rw [Session.change]
    rcases hold : s.operation? handle with - | old
    · exact .inl rfl
    · rcases after_cases s (old.edit e) fun op => (s.store handle op, Reply.same) with
        ⟨f, -, hs, -⟩ | ⟨new, hnew, hs, -⟩
      · exact .inl hs
      · exact .inr (.inl ⟨old, new, rfl, .edit hnew, hs⟩)
  | apply options =>
    rw [Session.change]
    rcases Fault.ofChecked (Options.check options) with f | o
    · exact .inl rfl
    · rcases hold : s.operation? handle with - | old
      · exact .inl rfl
      · exact .inr (.inl ⟨old, _, rfl, .editUpTo old o.edits, rfl⟩)
  | remove => exact .inr (.inr rfl)

/-- Storing through a handle reaches the document only if the handle is live. -/
theorem store_origin {handle : Handle} {old new : Operation} (hold : s.operation? handle = some old)
    (hbecomes : old.Becomes new) {r : Route} {op' : Operation}
    (ho : (s.store handle new).document.operation? r = some op') :
    ∃ op, s.document.operation? r = some op ∧ op.Becomes op' := by
  rw [Session.operation?] at hold
  rw [Session.store] at ho
  split at ho
  · rename_i hlive
    rw [hlive] at hold
    have hdoc := Document.operation?_store s.document handle.route r new
    rw [ho] at hdoc
    split at hdoc
    · rename_i hroute
      obtain rfl := Option.some.inj hdoc
      subst hroute
      exact ⟨old, hold, hbecomes⟩
    · exact ⟨op', hdoc.symm, .refl op'⟩
  · exact ⟨op', ho, .refl op'⟩

/-- A removed route has no operation, so an operation that is found has not been removed. -/
theorem removeRoute_origin (h : s.Valid) {q r : Route} {op : Operation}
    (ho : (s.document.removeRoute q).operation? r = some op) :
    s.document.operation? r = some op := by
  rw [Document.operation?_removeRoute h.document] at ho
  split at ho
  · cases ho
  · exact ho

/-- **The origin of an operation.**  The operation that a route has after a step was there before
and has been edited, or the step opened the route. -/
theorem Valid.step_origin (h : s.Valid) (st : Step) {r : Route} {op' : Operation}
    (ho : (s.step st).1.document.operation? r = some op') :
    (∃ op, s.document.operation? r = some op ∧ op.Becomes op') ∨
      ∃ template es, s.Opens st template es r op' := by
  have hsame : s.document.operation? r = some op' →
      (∃ op, s.document.operation? r = some op ∧ op.Becomes op') ∨
        ∃ template es, s.Opens st template es r op' :=
    fun hs => .inl ⟨op', hs, .refl op'⟩
  -- a step that leaves the paths leaves the operation
  have hafter : ∀ {α : Type} (x : Traced Notice Fault α) (f : α → Session × Reply),
      (∀ a, (f a).1.document.paths = s.document.paths) →
      (s.after x f).1.document.operation? r = some op' → s.document.operation? r = some op' := by
    intro α x f hf ho
    rcases after_cases s x f with ⟨e, -, hs, -⟩ | ⟨a, -, hs, -⟩
    · rwa [hs] at ho
    · rw [hs] at ho
      rwa [Document.operation?, Document.path, hf a] at ho
  cases st with
  | server url description => exact hsame (hafter _ _ (fun _ => rfl) ho)
  | tag name description => exact hsame (hafter _ _ (fun _ => rfl) ho)
  | security name fields => exact hsame (hafter _ _ (fun _ => rfl) ho)
  | schema name outline =>
    cases outline with
    | text outline => exact hsame (hafter _ _ (fun _ => rfl) ho)
    | _ => exact hsame ho
  | register name template method options =>
    rcases step_register_cases s name template method options with
      ⟨f, -, hs⟩ | ⟨m, o, old, op, hm, hoptions, hold, hop, hreply, hs⟩
    · rw [hs] at ho
      exact hsame ho
    · rw [hs] at ho
      have hdoc : (s.document.store (Route.of template m) op).operation? r = some op' := ho
      rw [Document.operation?_store] at hdoc
      split at hdoc
      · rename_i hroute
        obtain rfl := Option.some.inj hdoc
        subst hroute
        rcases hbefore : s.document.operation? (Route.of template m) with - | before
        · -- the route had no operation: it is opened
          rw [hbefore] at hold
          subst hold
          exact .inr ⟨template, o.edits,
            ⟨name, method, options, m, o, rfl, hm, hoptions, rfl, rfl, _, hreply⟩, hbefore, hop⟩
        · rw [hbefore] at hold
          have hbecomes : old.Becomes op := .editAll hop
          exact .inl ⟨old, congrArg some hold.symm, hbecomes⟩
      · exact hsame hdoc
  | change name c =>
    rw [Session.step] at ho
    split at ho
    · exact hsame ho
    · rename_i held hheld
      rcases change_cases s held c with hs | ⟨old, new, hold, hbecomes, hs⟩ | hs
      · rw [hs] at ho
        exact hsame ho
      · rw [hs] at ho
        exact .inl (store_origin hold hbecomes ho)
      · rw [hs] at ho
        exact hsame (removeRoute_origin h ho)
  | remove template tag =>
    have hdoc : (Session.removal s.document template tag).operation? r = some op' := ho
    rw [operation?_removal h.document] at hdoc
    exact hsame (Option.filter_eq_some_iff.mp hdoc).1
  | removeOperation key method =>
    rw [Session.step] at ho
    split at ho
    · exact hsame ho
    · exact hsame (removeRoute_origin h ho)
  | reset => cases ho

end Session

end ApiOutline
