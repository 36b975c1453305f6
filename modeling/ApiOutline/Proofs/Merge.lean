/-
ApiOutline/Proofs/Merge.lean

What the options of a route that is registered again do to the operation that is there.

Design.  As part of a document an operation is a table of fields, and a good edit writes one of
them (`Operation.edit_writes`).  So good edits write the fields that they are for, one after the
other, and what is known of tables says which fields stay as they are and where new ones go.  The
responses are a table themselves, in which each response is written under its code.  What the
options say of parameters is their replacement.

Main result: `Heap.run_merges`.
-/
import ApiOutline.Proofs.Replacement

namespace ApiOutline

/-! ### Fields -/

/-- The field of an operation that an edit writes. -/
def Edit.field : Edit → String
  | .request _ => "requestBody"
  | .respond _ _ => "responses"
  | .declare _ _ => "parameters"
  | .tag _ => "tags"
  | .summarize _ => "summary"
  | .describe _ => "description"
  | .deprecate => "deprecated"
  | .secure _ => "security"

/-- The names of the fields of an object, in order. -/
def Json.names : Json → List String
  | .object fields => Table.keys fields
  | _ => []

namespace Operation

variable {op op' : Operation}

/-- The fields of an operation in a document. -/
def fields (op : Operation) : Table String Json :=
  [("parameters", .array (op.parameters.map Parameter.toJson)),
    ("responses", .object (op.responses.map fun r => (r.1, r.2.toJson))),
    ("description", .text op.description)] ++ op.details.map fun d => (d.1, d.2.toJson)

theorem toJson_eq_object (op : Operation) : op.toJson = .object op.fields := rfl

/-- To give a detail is to write its field. -/
theorem fields_give (op : Operation) (d : Detail) :
    (op.give d).fields = op.fields.set d.field d.toJson := by
  -- the details stand behind three fields, none of which has the name of a detail
  obtain ⟨hparameters, hresponses, hdescription⟩ := Json.field_ne d
  simp only [fields, give, List.cons_append, List.nil_append, Table.set,
    if_neg (Ne.symm hparameters), if_neg (Ne.symm hresponses), if_neg (Ne.symm hdescription),
    Table.set_map Detail.toJson]

/-- A good edit writes the field that it is for. -/
theorem edit_writes {e : Edit} (he : (op.edit e).result = .ok op') :
    ∃ v, op'.fields = op.fields.set e.field v := by
  cases e with
  | request outline =>
    obtain ⟨b, -, he⟩ := Traced.result_bind_eq_ok_iff.mp he
    obtain rfl := Except.ok.inj he
    exact ⟨_, op.fields_give (.requestBody b)⟩
  | respond code outline =>
    obtain ⟨r, -, he⟩ := Traced.result_bind_eq_ok_iff.mp he
    rcases hc : code.written? with - | key
    · rw [hc] at he
      cases he
    · rw [hc] at he
      obtain rfl := Except.ok.inj he
      exact ⟨_, rfl⟩
  | declare location ds =>
    obtain ⟨ps, -, he⟩ := Traced.result_bind_eq_ok_iff.mp he
    obtain rfl := Except.ok.inj he
    exact ⟨_, rfl⟩
  | tag name =>
    obtain rfl := Except.ok.inj he
    exact ⟨_, op.fields_give (.tag name)⟩
  | summarize text =>
    obtain rfl := Except.ok.inj he
    exact ⟨_, op.fields_give (.summary text)⟩
  | describe text =>
    obtain rfl := Except.ok.inj he
    exact ⟨_, rfl⟩
  | «deprecate» =>
    obtain rfl := Except.ok.inj he
    exact ⟨_, op.fields_give .deprecated⟩
  | secure scheme =>
    obtain rfl := Except.ok.inj he
    exact ⟨_, op.fields_give (.security scheme)⟩

/-- Good edits write the fields that they are for, in their order. -/
theorem editAll_writes {es : List Edit} (he : (op.editAll es).result = .ok op') :
    ∃ entries, entries.map Prod.fst = es.map Edit.field ∧
      op'.fields = op.fields.setAll entries := by
  induction es generalizing op with
  | nil =>
    obtain rfl := Except.ok.inj he
    exact ⟨[], rfl, rfl⟩
  | cons e es ih =>
    obtain ⟨next, hnext, he⟩ := Traced.result_bind_eq_ok_iff.mp he
    obtain ⟨v, hfirst⟩ := edit_writes hnext
    obtain ⟨entries, hkeys, hrest⟩ := ih he
    refine ⟨(e.field, v) :: entries, congrArg (e.field :: ·) hkeys, ?_⟩
    rw [hrest, hfirst]
    rfl

/-- Good edits leave the fields that none of them is for. -/
theorem get?_toJson_editAll {es : List Edit} (he : (op.editAll es).result = .ok op') {name : String}
    (hname : name ∉ es.map Edit.field) : op'.toJson.get? name = op.toJson.get? name := by
  obtain ⟨entries, hkeys, hfields⟩ := editAll_writes he
  -- nothing is written under the name
  have hnone : (entries.reverse.find? fun e => e.1 = name) = none := by
    refine List.find?_eq_none.mpr fun e hmem hkey => hname ?_
    rw [← hkeys, ← of_decide_eq_true hkey]
    exact List.mem_map_of_mem (List.mem_reverse.mp hmem)
  rw [toJson_eq_object, toJson_eq_object, Json.get?, Json.get?, hfields, Table.get?_setAll, hnone]
  rfl

/-- Good edits move no field, and new fields come behind those that are there. -/
theorem names_toJson_editAll {es : List Edit} (he : (op.editAll es).result = .ok op') :
    op'.toJson.names =
      op.toJson.names ++
        ((es.map Edit.field).filter fun name => name ∉ op.toJson.names).eraseDups := by
  obtain ⟨entries, hkeys, hfields⟩ := editAll_writes he
  rw [toJson_eq_object, toJson_eq_object, Json.names, Json.names, hfields, Table.keys_setAll, hkeys]

end Operation

/-! ### Responses -/

namespace Edit

/-- A good response is written under its code. -/
theorem responded_of_isGood {code : Code} {outline : String}
    (h : (Edit.respond code outline).isGood) :
    ∃ key r, code.written? = some key ∧ (Response.read outline).result = .ok r ∧
      (Edit.respond code outline).responded = [(key, r)] := by
  obtain ⟨f, hf⟩ := isGood_iff.mp h
  rw [read] at hf
  rcases hr : (Response.read outline).result with f' | r
  · rw [hr] at hf
    cases hf
  rcases hc : code.written? with - | key
  · rw [hr, hc] at hf
    cases hf
  · exact ⟨key, r, rfl, rfl, by rw [responded, hc, hr]⟩

/-- The responses that a list of codes and outlines describes. -/
def respondedBy (rs : List (Code × String)) : List (String × Response) :=
  rs.flatMap fun r => (Edit.respond r.1 r.2).responded

variable {rs : List (Code × String)}

theorem map_fst_respondedBy (h : ∀ r ∈ rs, (Edit.respond r.1 r.2).isGood) :
    (respondedBy rs).map Prod.fst = rs.filterMap fun r => r.1.written? := by
  induction rs with
  | nil => rfl
  | cons r rs ih =>
    obtain ⟨hr, hrs⟩ := List.forall_mem_cons.mp h
    obtain ⟨key, response, hkey, -, hresponded⟩ := responded_of_isGood hr
    rw [respondedBy, List.flatMap_cons, hresponded, List.filterMap_cons, hkey, ← ih hrs]
    rfl

theorem reverse_respondedBy (h : ∀ r ∈ rs, (Edit.respond r.1 r.2).isGood) :
    (respondedBy rs).reverse = respondedBy rs.reverse := by
  rw [respondedBy, respondedBy, List.reverse_flatMap]
  -- each entry of the options has one response, which is its own reverse
  refine List.flatMap_congr fun r hr => ?_
  obtain ⟨key, response, -, -, hresponded⟩ := responded_of_isGood (h r (List.mem_reverse.mp hr))
  rw [Function.comp_apply, hresponded]
  rfl

/-- The first response under a code is the one of the first entry whose code is written so. -/
theorem find?_respondedBy (h : ∀ r ∈ rs, (Edit.respond r.1 r.2).isGood) (code : String) :
    Option.Rel (fun e r => e.1 = code ∧ (Response.read r.2).result = .ok e.2)
      ((respondedBy rs).find? fun e => e.1 = code) (rs.find? fun r => r.1.written? = some code) := by
  induction rs with
  | nil => exact .none
  | cons r rs ih =>
    obtain ⟨hr, hrs⟩ := List.forall_mem_cons.mp h
    obtain ⟨key, response, hkey, hread, hresponded⟩ := responded_of_isGood hr
    have hcons : respondedBy (r :: rs) = (key, response) :: respondedBy rs := by
      rw [respondedBy, List.flatMap_cons, hresponded]
      rfl
    rw [hcons, List.find?_cons, List.find?_cons, hkey]
    by_cases hcode : key = code
    · simpa [hcode] using hread
    · simpa [hcode] using ih hrs

end Edit

/-! ### Operations -/

namespace Options

/-- The last of the responses whose code is written like this. -/
def lastResponse? (o : Options) (code : String) : Option (Code × String) :=
  o.responses.reverse.find? fun r => r.1.written? = some code

/-- An operation differs from what it was only where options say so. -/
structure Merges (o : Options) (old new : Operation) : Prop where
  /-- the fields that no option is for are as they were -/
  fields : ∀ name, name ∉ o.edits.map Edit.field → new.toJson.get? name = old.toJson.get? name
  /-- the fields stand where they stood, and new ones behind them in the order of the options -/
  order : new.toJson.names =
    old.toJson.names ++
      ((o.edits.map Edit.field).filter fun name => name ∉ old.toJson.names).eraseDups
  /-- under a code stands what the last outline for it describes, -/
  answered : ∀ code entry, o.lastResponse? code = some entry →
    ∃ r, (Response.read entry.2).result = .ok r ∧ Table.get? new.responses code = some r
  /-- or what stood there if there is none -/
  unanswered : ∀ code, o.lastResponse? code = none →
    Table.get? new.responses code = Table.get? old.responses code
  /-- the codes stand where they stood, and new ones behind them as they come first -/
  codes : Table.keys new.responses =
    Table.keys old.responses ++
      ((o.responses.filterMap fun r => r.1.written?).filter fun code =>
        code ∉ Table.keys old.responses).eraseDups
  /-- the parameters that are not named are as they were, with the named ones behind them -/
  parameters : ∃ named, o.convert = .ok named ∧
    new.parameters = (old.parameters.filter fun p => p.slot ∉ named.map Parameter.slot) ++
      Parameter.lasting named

/-- Options that are all good are merged into an operation. -/
theorem merges_of_editAll {o : Options} {old new : Operation}
    (he : (old.editAll o.edits).result = .ok new) : o.Merges old new := by
  obtain ⟨g, hread⟩ : ∃ g, Edit.readAll o.edits = .ok g := by
    have hresult := old.result_editAll_read o.edits
    rcases hread : Edit.readAll o.edits with f | g
    · rw [hread, he] at hresult
      cases hresult
    · exact ⟨g, rfl⟩
  have hgood : ∀ r ∈ o.responses, (Edit.respond r.1 r.2).isGood := by
    intro r hr
    have hmem : Edit.respond r.1 r.2 ∈ o.edits := by
      simp only [edits, List.mem_append, List.mem_map]
      grind
    exact Edit.isGood_of_readAll hread _ hmem
  have hresponses : new.responses = old.responses.setAll (Edit.respondedBy o.responses) := by
    rw [Operation.editAll_eq_amended he, Edit.respondedBy, ← responded_edits]
    rfl
  -- the last entry for a code is the first one from behind
  have hlast : ∀ code, Option.Rel (fun e r => e.1 = code ∧ (Response.read r.2).result = .ok e.2)
      ((Edit.respondedBy o.responses).reverse.find? fun e => e.1 = code) (o.lastResponse? code) := by
    intro code
    rw [Edit.reverse_respondedBy hgood]
    exact Edit.find?_respondedBy (fun r hr => hgood r (List.mem_reverse.mp hr)) code
  exact
    { fields := fun name hname => Operation.get?_toJson_editAll he hname
      order := Operation.names_toJson_editAll he
      answered := fun code entry hentry => by
        have hrel := hlast code
        rw [hresponses, Table.get?_setAll]
        generalize (Edit.respondedBy o.responses).reverse.find? _ = found at hrel ⊢
        rw [hentry] at hrel
        cases hrel with
        | some hread => exact ⟨_, hread.2, rfl⟩
      unanswered := fun code hnone => by
        have hrel := hlast code
        rw [hresponses, Table.get?_setAll]
        generalize (Edit.respondedBy o.responses).reverse.find? _ = found at hrel ⊢
        rw [hnone] at hrel
        cases hrel
        rfl
      codes := by rw [hresponses, Table.keys_setAll, Edit.map_fst_respondedBy hgood]
      parameters := by
        refine ⟨o.edits.flatMap Edit.declared, ?_, ?_⟩
        · rw [convert_eq, hread]
          rfl
        · rw [Operation.parameters_editAll he, Parameter.foldl_declare_eq] }

end Options

/-! ### Documents -/

namespace Document

/-- Two documents are the same but for the operation of one route, which both have. -/
structure SameBut (r : Route) (doc doc' : Document) : Prop where
  title : doc'.title = doc.title
  version : doc'.version = doc.version
  servers : doc'.servers = doc.servers
  tags : doc'.tags = doc.tags
  components : doc'.components = doc.components
  /-- the paths are in one order, -/
  paths : Table.keys doc'.paths = Table.keys doc.paths
  /-- and so are the methods of each -/
  methods : ∀ key, Table.keys (doc'.path key) = Table.keys (doc.path key)
  operations : ∀ q, q ≠ r → doc'.operation? q = doc.operation? q

/-- Storing an operation under a route that has one changes nothing else. -/
theorem sameBut_store {doc : Document} {r : Route} {old : Operation}
    (h : doc.operation? r = some old) (op : Operation) : doc.SameBut r (doc.store r op) := by
  obtain ⟨hpath, hmethod⟩ := mem_of_operation? h
  have hkey : r.key ∈ Table.keys doc.paths := List.mem_map_of_mem hpath
  have hname : r.method ∈ Table.keys (doc.path r.key) := List.mem_map_of_mem hmethod
  refine ⟨rfl, rfl, rfl, rfl, rfl, ?_, fun key => ?_, fun q hq => ?_⟩
  · rw [store, Table.keys_set, if_pos hkey]
  · rw [path, store, Table.get?_set]
    by_cases hr : r.key = key
    · subst hr
      rw [if_pos rfl, Option.getD_some, Table.keys_set, if_pos hname]
    · rw [if_neg hr]
      rfl
  · rw [operation?_store, if_neg (Ne.symm hq)]

end Document

/-! ### Registering a route that is there -/

namespace Session

variable {s : Session} {name template method : String} {options : Option Data} {r : Route}
  {old : Operation}

/-- A registration of a route that has an operation edits this operation, by what its options ask
for, and stores it back. -/
theorem step_register_edits (hold : s.document.operation? r = some old)
    (hr : (s.step (.register name template method options)).2.result = .ok (.opened r)) :
    ∃ o new, readOptions options = .ok o ∧ (old.editAll o.edits).result = .ok new ∧
      (s.step (.register name template method options)).1.document = s.document.store r new := by
  obtain ⟨-, o, before, new, -, ho, -, hbefore, hnew, hsession⟩ := step_register_opened hr
  -- the route has an operation, and this is what was edited
  rw [hold, Option.getD_some] at hbefore
  subst hbefore
  exact ⟨o, new, ho, hnew, congrArg Session.document hsession⟩

/-- A registration of a route that has an operation merges its options into this operation. -/
theorem step_register_merges (hold : s.document.operation? r = some old) :
    let after := s.step (.register name template method options)
    after.2.result = .ok (.opened r) →
      ∃ o new, readOptions options = .ok o ∧ after.1.document.operation? r = some new ∧
        o.Merges old new ∧ s.document.SameBut r after.1.document := by
  intro after hr
  obtain ⟨o, new, ho, hnew, hdocument⟩ := step_register_edits hold hr
  rw [hdocument]
  exact ⟨o, new, ho, Document.operation?_store_self s.document r new,
    Options.merges_of_editAll hnew, Document.sameBut_store hold new⟩

end Session

namespace Heap

/-- **Merging.**  In every run, if a route that has an operation is registered with options, then
its operation differs from the one before only where the options say so, and nothing else in the
document has changed. -/
theorem run_merges (title version : String) (steps : List Step) (name template method : String)
    (options : Option Data) (r : Route) (old : Operation)
    (hold : ((Session.start title version).run steps).document.operation? r = some old)
    (hr : (((Session.start title version).run steps).step
      (.register name template method options)).2.result = .ok (.opened r)) :
    let s := (Session.start title version).run steps
    let after := s.step (.register name template method options)
    let h := ((Heap.start title version).run steps).step (.register name template method options)
    (∃ o new, Session.readOptions options = .ok o ∧ after.1.document.operation? r = some new ∧
      o.Merges old new ∧ s.document.SameBut r after.1.document) ∧
      h.1 = .ok (.opened r) ∧ h.2.Mirrors after.1 := by
  intro s after h
  have hstart := Session.Valid.start title version
  have hvalid := hstart.run steps
  obtain ⟨hshows, hanswer⟩ := ((Shows.start title version).run hstart steps).step hvalid
    (.register name template method options)
  exact ⟨Session.step_register_merges hold hr, hanswer.trans hr, hshows.mirrors (hvalid.step _)⟩

/-- A route whose operation has a summary, two parameters and a response, and another route. -/
def renewable : List Step :=
  [.register "a" "/x/{id}" "get" (some (.map
      [(.text "summary", .text "x"), (.text "query", .text "limit"),
        (.text "responses", .map [(.text "200", .text "")])])),
    .register "b" "/y" "get" none]

/-- Options for this operation, one code of which is given as a text and as a number. -/
def renewing : Data :=
  .map
    [(.text "query", .text "limit:i:10, sort"), (.text "deprecated", .boolean true),
      (.text "responses", .map
        [(.text "200", .text "#/a"), (.integer 404, .text ""), (.integer 200, .text "#/b")])]

/-- The parameter `limit` is replaced and comes behind those that are kept, the last response under
the code 200 counts, and the summary stays. -/
theorem merges_renewing :
    let old : Operation :=
      { parameters := [{ name := "id", location := "path", required := true },
          { name := "limit", location := "query", required := true }]
        responses := [("200", ⟨none⟩)]
        details := [("summary", .summary "x")] }
    let o : Options :=
      { query := some (.text "limit:i:10, sort")
        deprecated := true
        responses := [(.text "200", "#/a"), (.integer 404, ""), (.integer 200, "#/b")] }
    let new : Operation :=
      { parameters := [{ name := "id", location := "path", required := true },
          { name := "limit", location := "query", required := true, type := "integer",
            example? := some (.integer 10) },
          { name := "sort", location := "query", required := true }]
        responses := [("200", ⟨some (.reference "#/b")⟩), ("404", ⟨none⟩)]
        details := [("summary", .summary "x"), ("deprecated", .deprecated)] }
    let r : Route := ⟨"/x/{id}", .get⟩
    let s := (Session.start "" "").run renewable
    let after := s.step (.register "c" "/x/{id:7}" "GET" (some renewing))
    let h := ((Heap.start "" "").run renewable).step
      (.register "c" "/x/{id:7}" "GET" (some renewing))
    (s.document.operation? r = some old ∧ after.2.result = .ok (.opened r)) ∧
      (Session.readOptions (some renewing) = .ok o ∧ after.1.document.operation? r = some new ∧
        o.Merges old new ∧ s.document.SameBut r after.1.document) ∧
        h.1 = .ok (.opened r) ∧ h.2.Mirrors after.1 := by
  intro old o new r
  dsimp only
  have hold : ((Session.start "" "").run renewable).document.operation? r = some old := rfl
  have hr : (((Session.start "" "").run renewable).step
      (.register "c" "/x/{id:7}" "GET" (some renewing))).2.result = .ok (.opened r) := by
    decide +kernel
  have hread : Session.readOptions (some renewing) = .ok o := rfl
  have hmerge := run_merges "" "" renewable "c" "/x/{id:7}" "GET" (some renewing) r old hold hr
  dsimp only at hmerge
  obtain ⟨⟨o', new', ho, hnew, hmerges, hsame⟩, hheap⟩ := hmerge
  obtain rfl := Except.ok.inj (hread.symm.trans ho)
  -- what results is the old operation with all that the options have for its parts
  obtain ⟨o', op, ho', hop, hdocument⟩ := Session.step_register_edits hold hr
  obtain rfl := Except.ok.inj (hread.symm.trans ho')
  have hstored : some op = some new' := by
    rw [← hnew, hdocument, Document.operation?_store_self]
  obtain rfl := Option.some.inj hstored
  have hamended := Operation.editAll_eq_amended hop
  have hnumber : (Code.integer 404).written? = some "404" := by decide +kernel
  have hsecond : (Code.integer 200).written? = some "200" := by decide +kernel
  have hresponses : o.edits.flatMap Edit.responded =
      [("200", ⟨some (.reference "#/a")⟩), ("404", ⟨none⟩),
        ("200", ⟨some (.reference "#/b")⟩)] := by
    rw [Options.responded_edits]
    simp only [o, List.flatMap_cons, List.flatMap_nil, Edit.responded, hnumber, hsecond]
    rfl
  have hdeclared : (o.edits.flatMap Edit.declared).foldl Parameter.declare old.parameters =
      new.parameters := by
    decide +kernel
  rw [Operation.amended, hdeclared, hresponses] at hamended
  obtain rfl : op = new := hamended
  exact ⟨⟨hold, hr⟩, ⟨hread, hnew, hmerges, hsame⟩, hheap⟩

end Heap

end ApiOutline
