/-
ApiOutline/Proofs/Refusal.lean

Refused steps.

Design.  In a heap, what was written before a failure stays written.  That a refused step
changes nothing therefore depends on what is computed before the first write: everything
that can fail, or else the writes go to a new object, which nobody has if the step ends
there (`step_refused`).  The exception are options that are applied through a handle: they
are written one by one, and those before the first bad one stay (`editUpTo_eq_error`).

Main result: `run_refuses`.
-/
import ApiOutline.Proofs.HeapRuns

namespace ApiOutline

/-! ### Edits up to a bad one -/

/-- Edits make an operation into another one until a bad one stops them with a fault. -/
def Operation.Halts (op : Operation) (es : List Edit) (f : Fault) (last : Operation) : Prop :=
  ∃ done bad rest, es = done ++ bad :: rest ∧ (op.editAll done).result = .ok last ∧
    (last.edit bad).result = .error f

theorem Operation.editUpTo_eq_error {op : Operation} {es : List Edit} {f : Fault}
    (hf : (op.editUpTo es).2.result = .error f) : op.Halts es f (op.editUpTo es).1 := by
  induction es generalizing op with
  | nil => cases hf
  | cons e es ih =>
    rw [editUpTo] at hf ⊢
    rcases he : (op.edit e).result with f' | next
    · rw [he] at hf
      obtain rfl := Except.error.inj hf
      exact ⟨[], e, es, rfl, rfl, he⟩
    · rw [he] at hf
      obtain ⟨done, bad, rest, hes, hdone, hbad⟩ := ih hf
      refine ⟨e :: done, bad, rest, congrArg (e :: ·) hes, ?_, hbad⟩
      exact Traced.result_bind_eq_ok_iff.mpr ⟨next, he, hdone⟩

/-! ### Refused steps of sessions -/

namespace Session

variable {s : Session} {f : Fault}

theorem after_refused {α : Type} (x : Traced Notice Fault α) (g : α → Session × Reply)
    (hf : (s.after x g).2.result = .error f) : (s.after x g).1 = s := by
  rcases after_cases s x g with ⟨-, -, hs, -⟩ | ⟨a, -, -, hok⟩
  · exact hs
  · rw [hok] at hf
    cases hf

/-- A refused step leaves the session, unless it applies options through a handle. -/
theorem step_refused (s : Session) {st : Step}
    (hst : ∀ name options, st ≠ .change name (.apply options)) :
    (s.step st).2.result = .error f → (s.step st).1 = s := by
  cases st with
  | server url description => exact after_refused _ _
  | tag name description => exact after_refused _ _
  | security name fields => exact after_refused _ _
  | schema name outline =>
    cases outline with
    | text outline => exact after_refused _ _
    | _ => exact fun _ => rfl
  | register name template method options => exact after_refused _ _
  | change name c =>
    rw [Session.step]
    rcases Table.get? s.handles name with - | handle
    · exact fun _ => rfl
    cases c with
    | edit e =>
      dsimp only [change]
      rcases s.operation? handle with - | op
      · exact fun _ => rfl
      · exact after_refused _ _
    | apply options => exact absurd rfl (hst name options)
    | remove =>
    intro hf
    cases hf
  | remove template tag =>
    intro hf
    cases hf
  | removeOperation key method =>
    rw [Session.step]
    rcases Method.named? method with - | m
    · intro hf
      cases hf
    · intro hf
      cases hf
  | reset =>
    intro hf
    cases hf

end Session

/-! ### Refused steps of heaps -/

namespace Heap

variable {h : Heap} {s : Session} {f : Fault}

/-- A refused step leaves what the heap has, unless it applies options through a handle. -/
theorem step_refused (h : Heap) {st : Step}
    (hst : ∀ name options, st ≠ .change name (.apply options)) :
    (h.step st).1 = .error f → h.Spares (h.step st).2 := by
  have hsame : h.Spares h := .inl rfl
  cases st with
  | server url description =>
    rw [step_server]
    split
    · intro hf
      cases hf
    · exact fun _ => hsame
  | tag name description =>
    rw [step_tag]
    split
    · intro hf
      cases hf
    · exact fun _ => hsame
  | security name fields =>
    rw [step_security]
    split
    · intro hf
      cases hf
    · exact fun _ => hsame
  | schema name outline =>
    cases outline with
    | text outline =>
      rw [step_schema]
      split
      · intro hf
        cases hf
      · exact fun _ => hsame
    | _ => exact fun _ => hsame
  | register name template method options =>
    intro hf
    rcases h.step_register_cases name template method options with
      ⟨f', -, hspares⟩ | ⟨r, op, -, hstep⟩ | ⟨p, op, -, hstep⟩
    · exact hspares
    · rw [hstep] at hf
      cases hf
    · rw [hstep] at hf
      cases hf
  | change name c =>
    rcases hp : Table.get? h.handles name with - | p
    · rw [step_change_unknown h hp]
      exact fun _ => hsame
    cases c with
    | edit e =>
      rw [step_edit h hp]
      split
      · intro hf
        cases hf
      · exact fun _ => hsame
    | apply options => exact absurd rfl (hst name options)
    | remove =>
      rw [step_unlink h hp]
      intro hf
      cases hf
  | remove template tag =>
    rw [step_remove]
    intro hf
    cases hf
  | removeOperation key method =>
    rw [step_removeOperation]
    intro hf
    cases hf
  | reset =>
    intro hf
    cases hf

/-! ### What refused steps leave -/

/-- All that a heap has is as it was: the document, the paths and the addresses in them, the handles,
and the operations of all handles that were ever given out. -/
structure Untouched (h h' : Heap) : Prop where
  document : h'.document = h.document
  paths : h'.paths = h.paths
  handles : h'.handles = h.handles
  cells : ∀ a, a < h.size → h'.cells a = h.cells a
  operations : ∀ name p, Table.get? h.handles name = some p →
    h'.cells p.address = h.cells p.address

theorem Shows.untouched (hs : h.Shows s) (hv : s.Valid) {h' : Heap} (hspares : h.Spares h') :
    h.Untouched h' := by
  rcases hspares with rfl | ⟨op, rfl⟩
  · exact ⟨rfl, rfl, rfl, fun _ _ => rfl, fun _ _ _ => rfl⟩
  · have hvalid : h.document.Valid := hs.document ▸ hv.document
    obtain ⟨retired, ho, -⟩ := hs
    -- the new object is at an address that nothing points to
    refine ⟨congrArg Session.document (ho.session_extend hvalid op), rfl, rfl,
      fun a ha => cells_extend_of_lt h ha op, fun name p hp => ?_⟩
    exact cells_extend_of_lt h (ho.lt_of_inUse (ho.held _ (Table.mem_of_get?_eq_some hp))) op

/-- What a step that is refused with a fault leaves of a heap and of the session that it mirrors. -/
inductive Refusal (h : Heap) (s : Session) (st : Step) (f : Fault) (h' : Heap) (s' : Session) : Prop
  /-- everything -/
  | unchanged (heap : h.Untouched h') (session : s' = s)
  /-- options were applied through a handle, and its operation, which alone has changed, is what the
  edits before the first bad one have made of it -/
  | halted {name : String} {options : Data} {o : Options} {p : Pointer} {handle : Handle}
      {last : Operation} (step : st = .change name (.apply options))
      (checked : Options.check options = .accepted o)
      (pointer : Table.get? h.handles name = some p)
      (held : Table.get? s.handles name = some handle)
      (halts : (h.cells p.address).Halts o.edits f last)
      (heap : h' = h.write p.address last) (session : s' = s.store handle last)

/-- Options that are refused, applied through a handle. -/
theorem Shows.refusal_apply (hs : h.Shows s) (hv : s.Valid) (name : String) (options : Data) :
    (h.step (.change name (.apply options))).1 = .error f →
      Refusal h s (.change name (.apply options)) f (h.step (.change name (.apply options))).2
        (s.step (.change name (.apply options))).1 := by
  have huntouched : h.Untouched h := hs.untouched hv (.inl rfl)
  have hmirrors := (hs.mirrors hv).handles name
  rcases hp : Table.get? h.handles name with - | p
  · rw [hp] at hmirrors
    rcases hheld : Table.get? s.handles name with - | handle
    · rw [step_change_unknown h hp, Session.step, hheld]
      exact fun _ => .unchanged huntouched rfl
    · rw [hheld] at hmirrors
      cases hmirrors
  · rw [hp] at hmirrors
    rcases hheld : Table.get? s.handles name with - | handle
    · rw [hheld] at hmirrors
      cases hmirrors
    rw [hheld] at hmirrors
    obtain ⟨hstands⟩ := hmirrors
    have hstep : s.step (.change name (.apply options)) = s.change handle (.apply options) := by
      rw [Session.step, hheld]
    rw [step_apply h hp, hstep, Session.change, hstands.operation?]
    rcases hchecked : Options.check options with o | places
    · intro hf
      have hrun : ∀ r : Except Fault Unit, (r.map fun _ => Reply.same) = .error f → r = .error f := by
        rintro (f' | u) hr
        · exact congrArg Except.error (Except.error.inj hr)
        · cases hr
      have hhalts := Operation.editUpTo_eq_error (hrun _ hf)
      exact .halted rfl hchecked hp hheld hhalts rfl rfl
    · exact fun _ => .unchanged huntouched rfl

/-- **Refused steps.**  In every run, a step that is refused leaves the document, the handles and
all their operations, and gives out no handle.  The one exception are options that are applied
through a handle: the operation of the handle is what the options before the first bad one have
made of it, and nothing else has changed. -/
theorem run_refuses (title version : String) (steps : List Step) (st : Step) (f : Fault)
    (hf : (((Session.start title version).run steps).step st).2.result = .error f) :
    let h := (Heap.start title version).run steps
    let s := (Session.start title version).run steps
    h.Mirrors s ∧ (h.step st).1 = .error f ∧ Refusal h s st f (h.step st).2 (s.step st).1 := by
  intro h s
  have hv : s.Valid := (Session.Valid.start title version).run steps
  have hs : h.Shows s := (Shows.start title version).run (Session.Valid.start title version) steps
  have hanswer : (h.step st).1 = .error f := (hs.step hv st).2.trans hf
  refine ⟨hs.mirrors hv, hanswer, ?_⟩
  by_cases hst : ∃ name options, st = .change name (.apply options)
  · obtain ⟨name, options, rfl⟩ := hst
    exact hs.refusal_apply hv name options hanswer
  · have hother : ∀ name options, st ≠ .change name (.apply options) :=
      fun name options heq => hst ⟨name, options, heq⟩
    exact .unchanged (hs.untouched hv (h.step_refused hother hanswer)) (s.step_refused hother hf)

/-- A header without a name comes after the query, which is kept, and before the description, which
is not given. -/
theorem refuses_header_without_name :
    let steps := [Step.register "a" "/x" "get" none]
    let st := Step.change "a" (.apply (.map
      [(.text "desc", .text "d"), (.text "header", .list [.map []]), (.text "query", .text "page")]))
    let f := Fault.invalid [[.name "name"]]
    let h := (Heap.start "" "").run steps
    let s := (Session.start "" "").run steps
    (s.step st).2.result = .error f ∧ Refusal h s st f (h.step st).2 (s.step st).1 := by
  intro steps st f h s
  have hf : (s.step st).2.result = .error f := rfl
  exact ⟨hf, (run_refuses "" "" steps st f hf).2.2⟩

end Heap

end ApiOutline
