/-
ApiOutline/Proofs/InPlace.lean

Options on a copy, and options in place.

Design.  A registration with options edits a copy and writes it back when all is done; or
the route is opened first, and the options are applied to its operation as it stands in
the document.  The heaps that the two leave are not one: the first keeps the copy that
was made for it.  But both show one session (`step_open_apply`), and heaps that show one
session are told apart by no later step (`Shows.alike`).

Main result: `run_commits_in_place`.
-/
import ApiOutline.Proofs.Handles

namespace ApiOutline

/-! ### Sessions -/

theorem Document.store_store (doc : Document) (r : Route) (op op' : Operation) :
    (doc.store r op).store r op' = doc.store r op' := by
  have hpath : (doc.store r op).path r.key = (doc.path r.key).set r.method op := by
    show (Table.get? (doc.paths.set r.key _) r.key).getD [] = _
    rw [Table.get?_set_self, Option.getD_some]
  have hpaths : ((doc.store r op).store r op').paths = (doc.store r op').paths := by
    show (doc.paths.set r.key _).set r.key (((doc.store r op).path r.key).set r.method op') = _
    rw [hpath, Table.set_set, Table.set_set]
    rfl
  exact congrArg (fun paths => { doc with paths }) hpaths

namespace Session

variable (s : Session) (name template method : String)

/-- The operation that a registration edits: the one of the route, or the one of the template. -/
def draft (m : Method) : Operation :=
  (s.document.operation? (Route.of template m)).getD (Operation.ofTemplate template)

/-- The session with this operation under the route of a template, and a handle to it. -/
def enter (m : Method) (op : Operation) : Session :=
  s.hold name (Route.of template m) (s.document.store (Route.of template m) op)

/-- What a registration leaves, and what it answers. -/
theorem step_register (options : Option Data) :
    let run := s.step (.register name template method options)
    (run.2.result, run.1) =
      match Method.read method, readOptions options with
      | .error f, _ => (.error f, s)
      | .ok _, .error f => (.error f, s)
      | .ok m, .ok o =>
        let (op, run) := (s.draft template m).editUpTo o.edits
        match run.result with
        | .error f => (.error f, s)
        | .ok _ => (.ok (.opened (Route.of template m)), s.enter name template m op) := by
  rw [Session.step, Session.after]
  simp only [Traced.result_bind, Traced.result_ofExcept]
  rcases Method.read method with f | m
  · rfl
  rcases readOptions options with f | o
  · rfl
  simp only [Except.bind, bind, Document.result_register, Operation.result_editAll]
  rw [draft]
  rcases (Operation.editUpTo _ o.edits).2.result with f | u <;> rfl

/-- A route that is opened without options has the operation that a registration starts from. -/
theorem step_open {m : Method} (hm : Method.read method = .ok m) :
    let run := s.step (.register name template method none)
    (run.2.result, run.1) =
      (.ok (.opened (Route.of template m)), s.enter name template m (s.draft template m)) := by
  have hstep := s.step_register name template method none
  rw [hm] at hstep
  exact hstep

/-- Options that are applied to an operation just entered are applied in the document. -/
theorem step_apply_enter (m : Method) (op : Operation) (options : Data) :
    let run := (s.enter name template m op).step (.change name (.apply options))
    (run.2.result, run.1) =
      match Fault.ofChecked (Options.check options) with
      | .error f => (.error f, s.enter name template m op)
      | .ok o =>
        let (op', run) := op.editUpTo o.edits
        (run.result.map fun _ => Reply.same, s.enter name template m op') := by
  have hget : Table.get? (s.enter name template m op).handles name =
      some ⟨Route.of template m, .live⟩ := Table.get?_set_self _ _ _
  have hop : (s.enter name template m op).operation? ⟨Route.of template m, .live⟩ = some op :=
    Document.operation?_store_self _ _ op
  have hstore : ∀ op', (s.enter name template m op).store ⟨Route.of template m, .live⟩ op' =
      s.enter name template m op' := by
    intro op'
    rw [enter, enter, ← Document.store_store s.document _ op op']
    rfl
  rw [Session.step, hget]
  dsimp only
  rw [Session.change, hop]
  rcases Fault.ofChecked (Options.check options) with f | o
  · rfl
  · dsimp only
    rw [hstore, Traced.result_map]
    rfl

/-- **Copy and commit.**  A registration with options is refused as opening the route is, or as
applying the options is; or all three go well, and the sessions are one. -/
theorem step_open_apply (options : Data) :
    let whole := s.step (.register name template method (some options))
    let opened := s.step (.register name template method none)
    let applied := opened.1.step (.change name (.apply options))
    (∃ f, whole.2.result = .error f ∧ opened.2.result = .error f) ∨
      ∃ r, opened.2.result = .ok (.opened r) ∧
        ((∃ f, whole.2.result = .error f ∧ applied.2.result = .error f) ∨
          whole.2.result = .ok (.opened r) ∧ applied.2.result = .ok .same ∧
            whole.1 = applied.1) := by
  dsimp only
  have hwhole := s.step_register name template method (some options)
  rcases hm : Method.read method with f | m
  · have hopened := s.step_register name template method none
    rw [hm] at hwhole hopened
    dsimp only at hwhole hopened
    exact .inl ⟨f, (Prod.mk.inj hwhole).1, (Prod.mk.inj hopened).1⟩
  obtain ⟨hanswer, hsession⟩ := Prod.mk.inj (s.step_open name template method hm)
  refine .inr ⟨_, hanswer, ?_⟩
  have happlied := s.step_apply_enter name template m (s.draft template m) options
  rw [← hsession] at happlied
  rw [hm] at hwhole
  have hread : readOptions (some options) = Fault.ofChecked (Options.check options) := rfl
  rw [hread] at hwhole
  rcases hoptions : Fault.ofChecked (Options.check options) with f | o
  · rw [hoptions] at hwhole happlied
    dsimp only at hwhole happlied
    exact .inl ⟨f, (Prod.mk.inj hwhole).1, (Prod.mk.inj happlied).1⟩
  rw [hoptions] at hwhole happlied
  dsimp only at hwhole happlied
  rcases hrun : ((s.draft template m).editUpTo o.edits).2.result with f | u
  · rw [hrun] at hwhole happlied
    dsimp only [Except.map] at hwhole happlied
    exact .inl ⟨f, (Prod.mk.inj hwhole).1, (Prod.mk.inj happlied).1⟩
  · rw [hrun] at hwhole happlied
    dsimp only [Except.map] at hwhole happlied
    obtain ⟨hwholeAnswer, hwholeSession⟩ := Prod.mk.inj hwhole
    obtain ⟨happliedAnswer, happliedSession⟩ := Prod.mk.inj happlied
    exact .inr ⟨hwholeAnswer, happliedAnswer, hwholeSession.trans happliedSession.symm⟩

end Session

/-! ### Heaps -/

/-- Opens a route, and applies options through the handle to it. -/
def Program.openThenApply (name template method : String) (options : Data) : Program Reply := do
  let opened ← step (.register name template method none)
  let _ ← step (.change name (.apply options))
  pure opened

namespace Heap

variable {h h' : Heap} {s : Session}

/-- Two pointers, of one heap and of another, are bound to one route and have equal operations,
attached in both heaps or in neither. -/
structure Twins (h h' : Heap) (p q : Pointer) : Prop where
  route : p.route = q.route
  operation : h.cells p.address = h'.cells q.address
  attached : h.Attached p ↔ h'.Attached q

/-- Two heaps look alike: the documents, the handles, and what each step answers. -/
structure Alike (h h' : Heap) : Prop where
  document : h.document = h'.document
  handles : ∀ name, Option.Rel (h.Twins h') (Table.get? h.handles name) (Table.get? h'.handles name)
  answers : ∀ st, (h.step st).1 = (h'.step st).1

theorem Mirrors.alike (hm : h.Mirrors s) (hm' : h'.Mirrors s) : h.Alike h' where
  document := hm.document.trans hm'.document.symm
  answers st := (hm.answers st).trans (hm'.answers st).symm
  handles name := by
    have hrel := hm.handles name
    have hrel' := hm'.handles name
    generalize Table.get? h.handles name = x at hrel ⊢
    generalize Table.get? h'.handles name = y at hrel' ⊢
    generalize Table.get? s.handles name = z at hrel hrel'
    cases hrel with
    | none =>
      cases hrel'
      exact .none
    | some hp =>
      cases hrel' with
      | some hq =>
        exact .some
          { route := hp.route.symm.trans hq.route
            operation := Option.some.inj (hp.operation?.symm.trans hq.operation?)
            attached := hp.live.symm.trans hq.live }

/-- Heaps that show one session look alike, and no later steps change that. -/
theorem Shows.alike (hs : h.Shows s) (hs' : h'.Shows s) (hv : s.Valid) (later : List Step) :
    (h.run later).Alike (h'.run later) := by
  have hvalid := hv.run later
  have hmirrors := (hs.run hv later).mirrors hvalid
  exact hmirrors.alike ((hs'.run hv later).mirrors hvalid)

/-- What comes of opening a route and applying options then. -/
theorem exec_openThenApply (h : Heap) (name template method : String) (options : Data) :
    let opened := h.step (.register name template method none)
    let applied := opened.2.step (.change name (.apply options))
    (Program.openThenApply name template method options).exec h =
      match opened.1, applied.1 with
      | .error f, _ => (.error f, opened.2)
      | .ok _, .error f => (.error f, applied.2)
      | .ok reply, .ok _ => (.ok reply, applied.2) := by
  intro opened applied
  rw [Program.openThenApply]
  rcases hopened : opened.1 with f | reply
  · exact Program.exec_bind_of_error (Prod.ext hopened rfl) _
  rw [Program.exec_bind_of_ok (Prod.ext hopened rfl)]
  rcases happlied : applied.1 with f | reply'
  · exact Program.exec_bind_of_error (Prod.ext happlied rfl) _
  · exact Program.exec_bind_of_ok (Prod.ext happlied rfl) _

/-- The two are refused with one fault, or open one route and leave heaps that show one session. -/
theorem Shows.open_apply (hs : h.Shows s) (hv : s.Valid) (name template method : String)
    (options : Data) :
    let whole := h.step (.register name template method (some options))
    let inPlace := (Program.openThenApply name template method options).exec h
    (∃ f, whole.1 = .error f ∧ inPlace.1 = .error f) ∨
      ∃ r, whole.1 = .ok (.opened r) ∧ inPlace.1 = .ok (.opened r) ∧
        ∃ s', s'.Valid ∧ whole.2.Shows s' ∧ inPlace.2.Shows s' := by
  -- the three steps, in the heap and in the session
  obtain ⟨hwhole, hwholeAnswer⟩ := hs.step hv (.register name template method (some options))
  obtain ⟨hopened, hopenedAnswer⟩ := hs.step hv (.register name template method none)
  have hopenedValid := hv.step (.register name template method none)
  obtain ⟨happlied, happliedAnswer⟩ := hopened.step hopenedValid (.change name (.apply options))
  have hexec := h.exec_openThenApply name template method options
  have hcases := s.step_open_apply name template method options
  dsimp only at hexec hcases ⊢
  rw [← hwholeAnswer, ← hopenedAnswer, ← happliedAnswer] at hcases
  rw [hexec]
  rcases hcases with ⟨f, hf, hf'⟩ | ⟨r, hr, ⟨f, hf, hf'⟩ | ⟨hr', hsame, hsession⟩⟩
  · rw [hf']
    exact .inl ⟨f, hf, rfl⟩
  · rw [hr, hf']
    exact .inl ⟨f, hf, rfl⟩
  · rw [hr, hsame]
    rw [← hsession] at happlied
    have hvalid := hv.step (.register name template method (some options))
    exact .inr ⟨r, hr', rfl, _, hvalid, hwhole, happlied⟩

/-- A registration with options is the same as opening the route and applying them in place. -/
structure CommitsInPlace (h : Heap) (name template method : String) (options : Data) : Prop where
  /-- both succeed, or both fail with the same fault -/
  answer : (h.step (.register name template method (some options))).1 =
    ((Program.openThenApply name template method options).exec h).1
  /-- if they succeed, the handles are bound to one route and reach equal operations, both of which
  are the ones that the documents have -/
  opened :
    let whole := h.step (.register name template method (some options))
    let inPlace := (Program.openThenApply name template method options).exec h
    ∀ reply, whole.1 = .ok reply → ∃ r p q, reply = .opened r ∧ p.route = r ∧ q.route = r ∧
      Table.get? whole.2.handles name = some p ∧ Table.get? inPlace.2.handles name = some q ∧
      whole.2.Attached p ∧ inPlace.2.Attached q ∧
      whole.2.cells p.address = inPlace.2.cells q.address
  /-- if they succeed, what they leave looks alike, at once and after any later steps -/
  alike :
    let whole := h.step (.register name template method (some options))
    let inPlace := (Program.openThenApply name template method options).exec h
    ∀ reply, whole.1 = .ok reply → ∀ later, (whole.2.run later).Alike (inPlace.2.run later)

theorem Shows.commitsInPlace (hs : h.Shows s) (hv : s.Valid) (name template method : String)
    (options : Data) : h.CommitsInPlace name template method options := by
  rcases hs.open_apply hv name template method options with
    ⟨f, hf, hf'⟩ | ⟨r, hr, hr', s', hvalid, hwhole, hinPlace⟩
  · exact
      { answer := hf.trans hf'.symm
        opened := fun reply hreply => by cases hf.symm.trans hreply
        alike := fun reply hreply => by cases hf.symm.trans hreply }
  · refine ⟨hr.trans hr'.symm, ?_, fun reply _ later => hwhole.alike hinPlace hvalid later⟩
    intro whole inPlace reply hreply
    obtain rfl := Except.ok.inj (hr.symm.trans hreply)
    obtain ⟨p, hp, hroute, hattached⟩ := attached_register hr
    have hrel := (hwhole.alike hinPlace hvalid []).handles name
    rw [Heap.run, Heap.run, hp] at hrel
    rcases hq : Table.get? inPlace.2.handles name with - | q
    · rw [hq] at hrel
      cases hrel
    · rw [hq] at hrel
      obtain ⟨htwins⟩ := hrel
      exact ⟨r, p, q, rfl, hroute, htwins.route.symm.trans hroute, hp, rfl, hattached,
        htwins.attached.mp hattached, htwins.operation⟩

/-- **Copies and places.**  In every run, a registration with options succeeds exactly if opening
the route and applying the options through its handle do, and fails with the same fault otherwise;
and when it succeeds, both ways leave one document, its order included, handles to one route with
equal operations in the document, and heaps that no later steps tell apart. -/
theorem run_commits_in_place (title version : String) (steps : List Step)
    (name template method : String) (options : Data) :
    let h := (Heap.start title version).run steps
    h.Mirrors ((Session.start title version).run steps) ∧
      h.CommitsInPlace name template method options := by
  have hv := Session.Valid.start title version
  have hs := (Shows.start title version).run hv steps
  exact ⟨hs.mirrors (hv.run steps), hs.commitsInPlace (hv.run steps) name template method options⟩

end Heap

end ApiOutline
