/-
ApiOutline/Proofs/EditedParts.lean

What edits do to each part of an operation.

Design.  What an edit reads it writes into one part: the parameters, the responses, the
description or the details.  So good edits amend the four parts apart from each other, each by
what the edits have for it (`Operation.editAll_eq_amended`); where the edits for one part stand
among those for others does not count.  The options of a registration ask for edits in a fixed
order, and so the entries for each part can be read off them.
-/
import ApiOutline.Route.Options

namespace ApiOutline

/-! ### Entries of edits -/

/-- A detail under the name of its field. -/
def Detail.entry (d : Detail) : String × Detail := (d.field, d)

namespace Edit

/-- The parameters that an edit declares. -/
def declared : Edit → List Parameter
  | .declare location ds => (Parameter.ofDeclarations location ds).toOption.getD []
  | _ => []

/-- The response that an edit writes, under its code. -/
def responded : Edit → List (String × Response)
  | .respond code outline =>
    match code.written?, (Response.read outline).result with
    | some key, .ok r => [(key, r)]
    | _, _ => []
  | _ => []

/-- The description that an edit writes. -/
def described : Edit → List String
  | .describe text => [text]
  | _ => []

/-- The details that an edit gives. -/
def given : Edit → List Detail
  | .request outline =>
    match (Body.read outline).result with
    | .ok b => [.requestBody b]
    | .error _ => []
  | .tag name => [.tag name]
  | .summarize text => [.summary text]
  | .deprecate => [.deprecated]
  | .secure scheme => [.security scheme]
  | _ => []

end Edit

namespace Operation

variable {op op' : Operation}

/-- The operation with what the edits have for each of its parts. -/
def amended (op : Operation) (es : List Edit) : Operation where
  parameters := (es.flatMap Edit.declared).foldl Parameter.declare op.parameters
  responses := op.responses.setAll (es.flatMap Edit.responded)
  description := (es.flatMap Edit.described).getLast?.getD op.description
  details := op.details.setAll ((es.flatMap Edit.given).map Detail.entry)

/-- A good edit amends the part that it is for. -/
theorem edit_eq_amended {e : Edit} (he : (op.edit e).result = .ok op') : op' = op.amended [e] := by
  cases e with
  | request outline =>
    obtain ⟨b, hb, he⟩ := Traced.result_bind_eq_ok_iff.mp he
    obtain rfl := Except.ok.inj he
    simp only [amended, Edit.given, hb, List.flatMap_singleton]
    rfl
  | respond code outline =>
    obtain ⟨r, hr, he⟩ := Traced.result_bind_eq_ok_iff.mp he
    rcases hc : code.written? with - | key
    · rw [hc] at he
      cases he
    · rw [hc] at he
      obtain rfl := Except.ok.inj he
      simp only [amended, Edit.responded, hc, hr, List.flatMap_singleton]
      rfl
  | declare location ds =>
    obtain ⟨ps, hps, he⟩ := Traced.result_bind_eq_ok_iff.mp he
    obtain rfl := Except.ok.inj he
    have hread : Parameter.ofDeclarations location ds = .ok ps := hps
    simp only [amended, Edit.declared, hread, List.flatMap_singleton]
    rfl
  | tag name =>
    obtain rfl := Except.ok.inj he
    rfl
  | summarize text =>
    obtain rfl := Except.ok.inj he
    rfl
  | describe text =>
    obtain rfl := Except.ok.inj he
    rfl
  | «deprecate» =>
    obtain rfl := Except.ok.inj he
    rfl
  | secure scheme =>
    obtain rfl := Except.ok.inj he
    rfl

theorem amended_cons (op : Operation) (e : Edit) (es : List Edit) :
    op.amended (e :: es) = (op.amended [e]).amended es := by
  simp [amended, Table.setAll, List.getLast?_append]

/-- **Parts.**  Good edits amend each part by what they have for it. -/
theorem editAll_eq_amended {es : List Edit} (he : (op.editAll es).result = .ok op') :
    op' = op.amended es := by
  induction es generalizing op with
  | nil =>
    obtain rfl := Except.ok.inj he
    rfl
  | cons e es ih =>
    obtain ⟨next, hnext, he⟩ := Traced.result_bind_eq_ok_iff.mp he
    rw [ih he, edit_eq_amended hnext, ← amended_cons]

end Operation

/-! ### Entries of options -/

namespace Options

/-- The parameters that an option declares, if it is given. -/
def declaredIn (location : String) (option : Option Data) : List Parameter :=
  option.toList.flatMap fun d => Edit.declared (.declare location (Parameter.split d))

/-- What is read off the edits of options is read off each option, in the fixed order. -/
theorem flatMap_edits {α : Type} (f : Edit → List α) (o : Options) :
    o.edits.flatMap f =
      o.req.toList.flatMap (fun outline => f (.request outline)) ++
      o.responses.flatMap (fun r => f (.respond r.1 r.2)) ++
      o.query.toList.flatMap (fun d => f (.declare "query" (Parameter.split d))) ++
      o.header.toList.flatMap (fun d => f (.declare "header" (Parameter.split d))) ++
      o.tag.toList.flatMap (fun name => f (.tag name)) ++
      o.summary.toList.flatMap (fun text => f (.summarize text)) ++
      o.desc.toList.flatMap (fun text => f (.describe text)) ++
      (if o.deprecated then f .deprecate else []) ++
      o.security.toList.flatMap (fun scheme => f (.secure scheme)) := by
  rcases hd : o.deprecated with - | - <;>
    simp [edits, hd, List.flatMap_map]

/-- Options that say nothing of a part have no entries for it. -/
theorem flatMap_nothing {α β : Type} (l : List α) : (l.flatMap fun _ => ([] : List β)) = [] :=
  List.flatMap_eq_nil_iff.mpr fun _ _ => rfl

theorem declared_edits (o : Options) :
    o.edits.flatMap Edit.declared = declaredIn "query" o.query ++ declaredIn "header" o.header := by
  rw [flatMap_edits]
  simp [Edit.declared, declaredIn, flatMap_nothing]

theorem responded_edits (o : Options) :
    o.edits.flatMap Edit.responded =
      o.responses.flatMap fun r => Edit.responded (.respond r.1 r.2) := by
  rw [flatMap_edits]
  simp [Edit.responded, flatMap_nothing]

end Options

end ApiOutline
