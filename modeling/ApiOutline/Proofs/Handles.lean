/-
ApiOutline/Proofs/Handles.lean

Attached and detached handles.

Design.  A handle is attached while its route is linked to its address.  An address that
was given out is never linked again: a step takes its link away, or leaves it
(`address?_step_iff`).  So a handle is attached from the moment it is given out until the
first step that removes its route, and never again (`attached_run_iff`), although its
route may be opened anew, at another address.

An edit writes at the address of its handle.  As no address stands under two routes, the
document that shows it changes under the route of the handle and nowhere else, or not at
all if the handle is detached.

Main result: `run_keeps_handles`.
-/
import ApiOutline.Proofs.HeapRuns

namespace ApiOutline

/-! ### Writing into written documents -/

namespace Json

/-- The value with another value under names, one inside the other, all of which must be there. -/
def putAt? : Json → List String → Json → Option Json
  | _, [], v => some v
  | j, name :: names, v => do
    let inner ← j.get? name
    let inner ← inner.putAt? names v
    j.put? name inner

end Json

/-- Where the operation of a route stands in a written document. -/
def Route.fields (r : Route) : List String := ["paths", r.key, r.method.name]

/-- A method is found under its name only. -/
theorem Method.name_of_named? {name : String} {m : Method} (hm : Method.named? name = some m) :
    m.name = name := by
  rw [named?] at hm
  simpa using List.find?_some hm

namespace Document

/-- The operations of a path, written. -/
def pathJson (ops : Table Method Operation) : Json :=
  .object (ops.map fun o => (o.1.name, o.2.toJson))

theorem putAt?_pathJson {ops : Table Method Operation} {m : Method} {old : Operation}
    (hold : Table.get? ops m = some old) (op : Operation) :
    (pathJson ops).putAt? [m.name] op.toJson = some (pathJson (ops.set m op)) := by
  have hnames : Function.Injective Method.name := fun _ _ => Method.name_injective
  have hget : (pathJson ops).get? m.name = some old.toJson := by
    show Table.get? (ops.map _) _ = _
    rw [Table.get?_rename hnames Operation.toJson, hold, Option.map_some]
  have hput : (pathJson ops).put? m.name op.toJson = some (pathJson (ops.set m op)) :=
    congrArg (fun t => some (Json.object t)) (Table.set_rename hnames Operation.toJson ops m op)
  rw [Json.putAt?, hget]
  exact hput

/-- Storing an operation where there is one changes the written document there, and nowhere
else. -/
theorem putAt?_toJson {doc : Document} {r : Route} {old : Operation}
    (hold : doc.operation? r = some old) (op : Operation) (title version : Option String) :
    (doc.toJson title version).putAt? r.fields op.toJson =
      some ((doc.store r op).toJson title version) := by
  obtain ⟨ops, hops, hop⟩ : ∃ ops, Table.get? doc.paths r.key = some ops ∧
      Table.get? ops r.method = some old := by
    rw [operation?, path] at hold
    rcases hkey : Table.get? doc.paths r.key with - | ops
    · rw [hkey] at hold
      cases hold
    · rw [hkey] at hold
      exact ⟨ops, rfl, hold⟩
  have hpath : (Json.object (doc.paths.map fun p => (p.1, pathJson p.2))).putAt?
        [r.key, r.method.name] op.toJson =
      some (.object ((doc.store r op).paths.map fun p => (p.1, pathJson p.2))) := by
    have hget : (Json.object (doc.paths.map fun p => (p.1, pathJson p.2))).get? r.key =
        some (pathJson ops) := by
      show Table.get? (doc.paths.map _) _ = _
      rw [Table.get?_map pathJson, hops, Option.map_some]
    have hset := Table.set_map pathJson doc.paths r.key (ops.set r.method op)
    rw [Json.putAt?, hget, Option.bind_eq_bind, Option.bind_some, putAt?_pathJson hop]
    show some (Json.object (Table.set _ _ _)) = _
    rw [hset, store, path, hops]
    rfl
  have hpaths : (doc.toJson title version).get? "paths" =
      some (.object (doc.paths.map fun p => (p.1, pathJson p.2))) := rfl
  rw [Route.fields, Json.putAt?, hpaths, Option.bind_eq_bind, Option.bind_some, hpath]
  rfl

end Document

/-- What a change through a handle makes of the operation.  A bad edit makes nothing of it; options
with a bad one among them, what those before it do. -/
def Operation.changed (op : Operation) : Change → Operation
  | .edit e =>
    match (op.edit e).result with
    | .ok op' => op'
    | .error _ => op
  | .apply options =>
    match Fault.ofChecked (Options.check options) with
    | .ok o => (op.editUpTo o.edits).1
    | .error _ => op
  | .remove => op

namespace Heap

variable {h : Heap} {s : Session}

/-! ### Attached handles -/

/-- The step takes the operation of a route out of the document: by the key of its path or a tag
that it carries, by its key and method, through a handle to it, or with all others. -/
def Removes (h : Heap) (st : Step) (r : Route) : Prop :=
  match st with
  | .remove template tag =>
    (∃ t ∈ template, Template.keyOf t = r.key) ∨
      ∃ t ∈ tag, ∃ op ∈ h.document.operation? r, op.carries t
  | .removeOperation key method => key = r.key ∧ method = r.method.name
  | .change name .remove => ∃ p ∈ Table.get? h.handles name, p.route = r
  | .reset => True
  | _ => False

/-- No step of a run takes the operation of a route out of the document. -/
def Keeps (h : Heap) (r : Route) : List Step → Prop
  | [] => True
  | st :: steps => ¬ h.Removes st r ∧ (h.step st).2.Keeps r steps

/-- What a step does to addresses that were given out: the routes that it removes lose theirs, the
others have the one that they had. -/
structure Carries (h : Heap) (st : Step) (h' : Heap) : Prop where
  size_le : h.size ≤ h'.size
  address?_iff : ∀ r a, a < h.size →
    (h'.address? r = some a ↔ h.address? r = some a ∧ ¬ h.Removes st r)
  /-- a route that has an address does not get another one -/
  address_eq : ∀ r a b, h.address? r = some a → h'.address? r = some b → b = a

/-- A step that links nothing. -/
theorem Carries.of_iff {st : Step} {h' : Heap} (hsize : h.size ≤ h'.size)
    (hiff : ∀ r a, h'.address? r = some a ↔ h.address? r = some a ∧ ¬ h.Removes st r) :
    Carries h st h' where
  size_le := hsize
  address?_iff r a _ := hiff r a
  address_eq r a b ha hb := by
    rw [((hiff r b).mp hb).1] at ha
    exact Option.some.inj ha

/-- A step that removes nothing and leaves the paths. -/
theorem Carries.same {st : Step} {h' : Heap} (hsize : h.size ≤ h'.size)
    (hpaths : h'.paths = h.paths) (hst : ∀ r, ¬ h.Removes st r) : Carries h st h' := by
  refine .of_iff hsize fun r a => ?_
  rw [address?, address?, hpaths]
  exact ⟨fun ha => ⟨ha, hst r⟩, And.left⟩

/-- A new operation has a new address. -/
theorem Carries.opened {st : Step} (name : String) {r : Route} (hr : h.address? r = none)
    (op : Operation) (hst : ∀ r, ¬ h.Removes st r) : Carries h st (h.opened name r op) := by
  have haddress : ∀ q, (h.opened name r op).address? q =
      if r = q then some h.size else h.address? q := fun q => address?_link (h.extend op) r q h.size
  refine ⟨Nat.le_succ _, fun q a ha => ?_, fun q a b hq hq' => ?_⟩
  · rw [haddress]
    split
    · rename_i heq
      have hne : h.size ≠ a := Nat.ne_of_gt ha
      rw [← heq, hr]
      simp [hne]
    · exact ⟨fun hq => ⟨hq, hst q⟩, And.left⟩
  · rw [haddress] at hq'
    split at hq'
    · rename_i heq
      rw [← heq, hr] at hq
      cases hq
    · rw [hq] at hq'
      exact (Option.some.inj hq').symm

/-- Unlinking takes the address of one route. -/
theorem address?_unlink_iff (hv : h.document.Valid) (q r : Route) (a : Address) :
    (h.unlink q).address? r = some a ↔ h.address? r = some a ∧ ¬ q = r := by
  rw [address?_unlink hv]
  split <;> simp_all

/-- **The life of an address.**  Every step takes the links of the routes that it removes, and no
others. -/
theorem step_carries (hv : h.document.Valid) (st : Step) : Carries h st (h.step st).2 := by
  -- only a registration links an address, and a new one; only removals take links away
  cases st with
  | server url description =>
    rw [step_server]
    split <;> exact .same (Nat.le_refl _) rfl fun _ => id
  | tag name description =>
    rw [step_tag]
    split <;> exact .same (Nat.le_refl _) rfl fun _ => id
  | security name fields =>
    rw [step_security]
    split <;> exact .same (Nat.le_refl _) rfl fun _ => id
  | schema name outline =>
    cases outline with
    | text outline =>
      rw [step_schema]
      split <;> exact .same (Nat.le_refl _) rfl fun _ => id
    | _ => exact .same (Nat.le_refl _) rfl fun _ => id
  | register name template method options =>
    rcases h.step_register_cases name template method options with
      ⟨f, -, hspares⟩ | ⟨r, op, hr, hstep⟩ | ⟨p, op, -, hstep⟩
    · rcases hspares with hsame | ⟨op, hextend⟩
      · rw [hsame]
        exact .same (Nat.le_refl _) rfl fun _ => id
      · rw [hextend]
        exact .same (Nat.le_succ _) rfl fun _ => id
    · rw [hstep]
      exact .opened name hr op fun _ => id
    · rw [hstep]
      exact .same (Nat.le_succ _) rfl fun _ => id
  | change name c =>
    rcases hp : Table.get? h.handles name with - | p
    · rw [step_change_unknown h hp]
      refine .same (Nat.le_refl _) rfl fun r hr => ?_
      cases c <;> simp_all [Removes]
    · cases c with
      | edit e =>
        rw [step_edit h hp]
        split <;> exact .same (Nat.le_refl _) rfl fun _ => id
      | apply options =>
        rw [step_apply h hp]
        split <;> exact .same (Nat.le_refl _) rfl fun _ => id
      | remove =>
        rw [step_unlink h hp]
        refine .of_iff (Nat.le_refl _) fun r a => ?_
        simpa [Removes, hp] using address?_unlink_iff hv p.route r a
  | remove template tag =>
    rw [step_remove]
    have hsize : (h.removal template tag).size = h.size := by
      cases template <;> cases tag <;> rfl
    refine .of_iff (Nat.le_of_eq hsize.symm) fun r a => ?_
    rw [address?_removal hv, Option.filter_eq_some_iff, Removes]
    refine and_congr_right fun hr => ?_
    rw [operation?_document, hr]
    cases template <;> cases tag <;> simp
  | removeOperation key method =>
    rw [step_removeOperation]
    rcases hm : Method.named? method with - | m
    · refine .same (Nat.le_refl _) rfl ?_
      rintro r ⟨-, rfl⟩
      rw [Method.named?_name] at hm
      cases hm
    · obtain rfl := Method.name_of_named? hm
      refine .of_iff (Nat.le_refl _) fun r a => ?_
      have hroute : (⟨key, m⟩ : Route) = r ↔ key = r.key ∧ m.name = r.method.name := by
        obtain ⟨key', m'⟩ := r
        rw [Route.mk.injEq]
        exact and_congr_right fun _ => ⟨congrArg Method.name, Method.name_injective⟩
      rw [Removes, ← hroute]
      exact address?_unlink_iff hv ⟨key, m⟩ r a
  | reset =>
    refine .of_iff (Nat.le_refl _) fun r a => ?_
    rw [step_reset]
    simp [Removes, address?, reset, Table.at?, Table.row]

/-- A route that has an operation is without one after a step exactly if the step removes it. -/
theorem operation?_step_eq_none_iff (hs : h.Shows s) (hv : s.Valid) (st : Step) {r : Route}
    (hr : (h.document.operation? r).isSome) :
    (h.step st).2.document.operation? r = none ↔ h.Removes st r := by
  obtain ⟨a, ha⟩ : ∃ a, h.address? r = some a := by
    rw [operation?_document, Option.isSome_map] at hr
    exact Option.isSome_iff_exists.mp hr
  have hlt : a < h.size := by
    obtain ⟨retired, ho, -⟩ := hs
    exact ho.linked r a ha
  have hcarries := step_carries (hs.document ▸ hv.document) st
  have hiff := hcarries.address?_iff r a hlt
  rw [operation?_document, Option.map_eq_none_iff]
  rcases hstep : (h.step st).2.address? r with - | b
  · simpa [hstep, ha] using hiff
  · obtain rfl := hcarries.address_eq r a b ha hstep
    simpa [hstep, ha] using hiff

/-- **The life of a handle.**  A handle is attached after a run if it was so before and no step of
the run removes its route. -/
theorem attached_run_iff (hs : h.Shows s) (hv : s.Valid) {p : Pointer} (hp : p.address < h.size)
    (steps : List Step) :
    (h.run steps).Attached p ↔ h.Attached p ∧ h.Keeps p.route steps := by
  induction steps generalizing h s with
  | nil => simp [Heap.run, Keeps]
  | cons st steps ih =>
    have hcarries := step_carries (hs.document ▸ hv.document) st
    have hlt : p.address < (h.step st).2.size := Nat.lt_of_lt_of_le hp hcarries.size_le
    rw [Heap.run, ih (hs.step hv st).1 (hv.step st) hlt, Keeps, Attached,
      hcarries.address?_iff p.route p.address hp, and_assoc]
    rfl

/-- The handle that is kept under a name is found there. -/
theorem get?_handles_keep (h : Heap) (name : String) (p : Pointer) :
    Table.get? (h.keep name p).handles name = some p := Table.get?_set_self h.handles name p

/-- What a registration that goes well has opened: the route of the template, with a handle to the
address that the route has now, which is the one that it had, if it had one. -/
theorem step_register_eq_ok {name template method : String} {options : Option Data} {r : Route}
    (hr : (h.step (.register name template method options)).1 = .ok (.opened r)) :
    let h' := (h.step (.register name template method options)).2
    (∃ m, Method.read method = .ok m ∧ r = Route.of template m) ∧
      ∃ a, Table.get? h'.handles name = some ⟨r, a⟩ ∧ h'.address? r = some a ∧
        ∀ b, h.address? r = some b → b = a := by
  intro h'
  have hroute : ∃ m, Method.read method = .ok m ∧ r = Route.of template m := by
    rw [step_register] at hr
    split at hr
    · cases hr
    · cases hr
    · rename_i m o hm ho
      refine ⟨m, hm, ?_⟩
      dsimp only at hr
      split at hr
      · split at hr
        · cases hr
        · exact (Reply.opened.inj (Except.ok.inj hr)).symm
      · split at hr
        · cases hr
        · exact (Reply.opened.inj (Except.ok.inj hr)).symm
  refine ⟨hroute, ?_⟩
  rcases h.step_register_cases name template method options with
    ⟨f, hf, -⟩ | ⟨q, op, hq, hstep⟩ | ⟨p, op, hp, hstep⟩
  · rw [hf] at hr
    cases hr
  · -- the route had no operation
    have hopened : h' = h.opened name q op := congrArg Prod.snd hstep
    rw [hstep] at hr
    obtain rfl := Reply.opened.inj (Except.ok.inj hr)
    rw [hopened]
    refine ⟨h.size, get?_handles_keep _ name _, ?_, fun b hb => ?_⟩
    · show ((h.extend op).link q h.size).address? q = some h.size
      rw [address?_link, if_pos rfl]
    · rw [hq] at hb
      cases hb
  · have hreopened : h' = h.reopened name p op := congrArg Prod.snd hstep
    rw [hstep] at hr
    obtain rfl := Reply.opened.inj (Except.ok.inj hr)
    rw [hreopened]
    refine ⟨p.address, get?_handles_keep _ name p, hp, fun b hb => ?_⟩
    rw [hp] at hb
    exact (Option.some.inj hb).symm

/-- A registration gives out a handle that is attached. -/
theorem attached_register {name template method : String} {options : Option Data} {r : Route}
    (hr : (h.step (.register name template method options)).1 = .ok (.opened r)) :
    let h' := (h.step (.register name template method options)).2
    ∃ p, Table.get? h'.handles name = some p ∧ p.route = r ∧ h'.Attached p := by
  obtain ⟨-, a, hget, haddress, -⟩ := step_register_eq_ok hr
  exact ⟨⟨r, a⟩, hget, rfl, haddress⟩

/-! ### Edits through handles -/

/-- A change through a handle writes at its address, and nowhere else. -/
theorem step_change {name : String} {p : Pointer} (hp : Table.get? h.handles name = some p)
    {c : Change} (hc : c ≠ .remove) :
    (h.step (.change name c)).2 = h.write p.address ((h.cells p.address).changed c) := by
  cases c with
  | edit e =>
    rw [step_edit h hp, Operation.changed]
    rcases ((h.cells p.address).edit e).result with f | op
    · exact (h.write_self p.address).symm
    · rfl
  | apply options =>
    rw [step_apply h hp, Operation.changed]
    rcases Fault.ofChecked (Options.check options) with f | o
    · exact (h.write_self p.address).symm
    · rfl
  | remove => exact absurd rfl hc

/-- What can be relied on for the handles of a heap, which looks like a session from outside. -/
structure KeepsHandles (h : Heap) (s : Session) : Prop where
  /-- what is said of the heap is said of the session -/
  mirrors : h.Mirrors s
  /-- a step that leaves a route without the operation that it has is one of those that remove
  it -/
  removes : ∀ st r, (h.document.operation? r).isSome →
    ((h.step st).2.document.operation? r = none ↔ h.Removes st r)
  /-- the handle to a route just opened is attached as long as no step removes the route -/
  opened : ∀ name template method options r,
    let h' := (h.step (.register name template method options)).2
    (h.step (.register name template method options)).1 = .ok (.opened r) →
    ∃ p, Table.get? h'.handles name = some p ∧ p.route = r ∧
      ∀ later, (h'.run later).Attached p ↔ h'.Keeps r later
  /-- a change through an attached handle shows in the document under its route, where it shows
  for all attached handles of the route, and nowhere else -/
  attached : ∀ name p c, Table.get? h.handles name = some p → c ≠ .remove → h.Attached p →
    let h' := (h.step (.change name c)).2
    let op := (h.cells p.address).changed c
    (∀ title version, (h.document.toJson title version).putAt? p.route.fields op.toJson =
        some (h'.document.toJson title version)) ∧
      ∀ q, q.route = p.route → h.Attached q → h'.Attached q ∧ h'.cells q.address = op
  /-- a change through a detached handle does not show in the document -/
  detached : ∀ name p c, Table.get? h.handles name = some p → c ≠ .remove → ¬ h.Attached p →
    (h.step (.change name c)).2.document = h.document
  /-- a detached handle stays so, whatever is registered later -/
  gone : ∀ name p, Table.get? h.handles name = some p → ¬ h.Attached p →
    ∀ later, ¬ (h.run later).Attached p
  /-- no two routes have one operation -/
  separate : ∀ q r a, h.address? q = some a → h.address? r = some a → q = r

theorem Shows.keepsHandles (hs : h.Shows s) (hv : s.Valid) : h.KeepsHandles s := by
  have hvalid : h.document.Valid := hs.document ▸ hv.document
  have hmirrors := hs.mirrors hv
  obtain ⟨retired, ho, hsession⟩ := hs
  have hs : h.Shows s := ⟨retired, ho, hsession⟩
  have hheld : ∀ name p, Table.get? h.handles name = some p → InUse h.address? retired p :=
    fun name p hp => ho.held _ (Table.mem_of_get?_eq_some hp)
  exact
    { mirrors := hmirrors
      removes := fun st r hr => operation?_step_eq_none_iff hs hv st hr
      opened := by
        intro name template method options r h' hr
        obtain ⟨p, hp, hroute, hattached⟩ := attached_register hr
        obtain ⟨retired', ho', -⟩ := (hs.step hv (.register name template method options)).1
        have hlt : p.address < h'.size := ho'.linked _ _ hattached
        refine ⟨p, hp, hroute, fun later => ?_⟩
        rw [attached_run_iff (hs.step hv _).1 (hv.step _) hlt later, hroute]
        exact ⟨And.right, fun hkeeps => ⟨hattached, hkeeps⟩⟩
      attached := by
        intro name p c hp hc hattached h' op
        have hstep : h' = h.write p.address op := step_change hp hc
        refine ⟨fun title version => ?_, fun q hq hqattached => ?_⟩
        · have hold : h.document.operation? p.route = some (h.cells p.address) := by
            rw [operation?_document, hattached, Option.map_some]
          rw [hstep, ho.document_write_linked hvalid hattached]
          exact Document.putAt?_toJson hold op title version
        · -- the two handles have one address
          have haddress : q.address = p.address := by
            rw [Attached, hq, hattached] at hqattached
            exact (Option.some.inj hqattached).symm
          rw [hstep, haddress, cells_write_self]
          exact ⟨hqattached, rfl⟩
      detached := by
        intro name p c hp hc hdetached
        have hretired : p.address ∈ retired := (hheld name p hp).resolve_left hdetached
        rw [step_change hp hc]
        exact document_write hvalid (fun r hr => ho.apart r _ hr hretired) _
      gone := by
        intro name p hp hdetached later hattached
        have hlt := ho.lt_of_inUse (hheld name p hp)
        exact hdetached ((attached_run_iff hs hv hlt later).mp hattached).1
      separate := ho.injective }

/-- **Handles.**  In every run, a heap looks like the session, and: a handle is attached from the
registration that gave it out until a step removes its route; while it is attached, what is changed
through it changes in the document under its route only, for all attached handles of the route; once
it is detached, nothing that is changed through it shows in the document again; and no two routes
have one operation. -/
theorem run_keeps_handles (title version : String) (steps : List Step) :
    ((Heap.start title version).run steps).KeepsHandles
      ((Session.start title version).run steps) := by
  have hv := Session.Valid.start title version
  exact ((Shows.start title version).run hv steps).keepsHandles (hv.run steps)

/-- An operation that was removed keeps its address; the route, opened anew, gets another one. -/
example :
    let h := (Heap.start "" "").run
      [.register "old" "/x" "get" none, .remove (some "/x") none, .register "new" "/x" "get" none]
    Table.get? h.handles "old" = some ⟨⟨"/x", .get⟩, 0⟩ ∧
      Table.get? h.handles "new" = some ⟨⟨"/x", .get⟩, 1⟩ ∧
      h.address? ⟨"/x", .get⟩ = some 1 := ⟨rfl, rfl, rfl⟩

end Heap

end ApiOutline
