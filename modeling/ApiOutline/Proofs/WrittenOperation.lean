/-
ApiOutline/Proofs/WrittenOperation.lean

Operations as the objects that a document shows, and edits of these objects.

Design.  An edit of an object takes the fields that it changes by their names,
and so it comes to nothing if one is missing (`respondAt?`, `declareIn?`).  An
operation keeps its details under names of their own (`Operation.Valid`), which
no edit changes; hence none of them hides the fields that are always there.

Main results: what an operation is written as has the form of an operation
(`isOperation_toJson`), and edits of the object find all that they look for and
do what the edits of the operation do (`respondAt?_toJson`, `declareIn?_toJson`).
-/
import ApiOutline.Proofs.EditedParts

namespace ApiOutline

/-! ### Operations that can be written -/

/-- Each detail stands under the name of its field, and no name comes twice. -/
structure Operation.Valid (op : Operation) : Prop where
  details : ∀ d ∈ op.details, d.1 = d.2.field
  nodup : (Table.keys op.details).Nodup
  responses : (Table.keys op.responses).Nodup

namespace Operation.Valid

theorem ofTemplate (template : String) : (Operation.ofTemplate template).Valid where
  details := by simp [Operation.ofTemplate]
  nodup := List.nodup_nil
  responses := List.nodup_nil

variable {op op' : Operation}

/-- What edits have for the parts of an operation keeps it valid. -/
theorem amended (h : op.Valid) (es : List Edit) : (op.amended es).Valid := by
  refine ⟨fun d hd => ?_, Table.nodup_keys_setAll h.nodup _, Table.nodup_keys_setAll h.responses _⟩
  rcases Table.mem_of_mem_setAll hd with hd | hd
  · obtain ⟨given, -, rfl⟩ := List.mem_map.mp hd
    rfl
  · exact h.details d hd

/-- Every edit keeps an operation valid. -/
theorem edit (h : op.Valid) {e : Edit} (he : (op.edit e).result = .ok op') : op'.Valid :=
  Operation.edit_eq_amended he ▸ h.amended [e]

theorem editAll (h : op.Valid) {es : List Edit} (he : (op.editAll es).result = .ok op') :
    op'.Valid :=
  Operation.editAll_eq_amended he ▸ h.amended es

/-- Edits that stop at a bad one keep an operation valid up to there. -/
theorem editUpTo (h : op.Valid) (es : List Edit) : (op.editUpTo es).1.Valid := by
  induction es generalizing op with
  | nil => exact h
  | cons e es ih =>
    rw [Operation.editUpTo]
    rcases he : (op.edit e).result with f | next
    · exact h
    · exact ih (h.edit he)

end Operation.Valid

/-! ### Fields by name -/

namespace Json

/-- The value of a field, if there is one. -/
def get? : Json → String → Option Json
  | object fields, name => Table.get? fields name
  | _, _ => none

/-- The object with a value for a field. -/
def put? : Json → String → Json → Option Json
  | object fields, name, v => some (object (Table.set fields name v))
  | _, _, _ => none

/-- The text that a value is. -/
def text? : Json → Option String
  | text s => some s
  | _ => none

/-- The items of an array. -/
def items? : Json → Option (List Json)
  | array items => some items
  | _ => none

/-- The value is an object with different names for its fields. -/
def IsTable (j : Json) : Prop := ∃ fields, j = object fields ∧ (Table.keys fields).Nodup

/-- The value has the fields that every parameter has. -/
def IsParameter (j : Json) : Prop :=
  ∀ name ∈ ["name", "in", "required", "schema"], (j.get? name).isSome

/-- The value has nothing but an empty description, and perhaps content of one media type. -/
def IsResponse (j : Json) : Prop :=
  j = object [("description", text "")] ∨
    ∃ mediaType body, j = object [("content", object [(mediaType, body)]), ("description", text "")]

/-- The value has parameters, responses and a description. -/
structure IsOperation (j : Json) : Prop where
  table : j.IsTable
  parameters : ∃ ps, j.get? "parameters" = some (array ps) ∧ ∀ p ∈ ps, p.IsParameter
  responses : ∃ rs, j.get? "responses" = some (object rs) ∧ (Table.keys rs).Nodup ∧
    ∀ r ∈ rs, r.2.IsResponse
  description : ∃ s, j.get? "description" = some (text s)

/-! ### Edits by name -/

/-- Sets a response of an operation. -/
def respondAt? (op : Json) (key : String) (response : Json) : Option Json := do
  let responses ← op.get? "responses"
  let responses ← responses.put? key response
  op.put? "responses" responses

/-- The parameters but for those with the given name in the given location. -/
def withoutSlot? (name location : String) : List Json → Option (List Json)
  | [] => some []
  | p :: ps => do
    let n ← p.get? "name" >>= text?
    let l ← p.get? "in" >>= text?
    let rest ← withoutSlot? name location ps
    pure (if n = name ∧ l = location then rest else p :: rest)

/-- Declares a parameter of an operation in the place of one with its name and location. -/
def declareIn? (op p : Json) : Option Json := do
  let declared ← op.get? "parameters" >>= items?
  let name ← p.get? "name" >>= text?
  let location ← p.get? "in" >>= text?
  let kept ← withoutSlot? name location declared
  op.put? "parameters" (array (kept ++ [p]))

end Json

namespace Json

/-! ### What is written has the form of an operation -/

theorem isParameter_toJson (p : Parameter) : p.toJson.IsParameter := by
  intro name hname
  simp only [List.mem_cons, List.not_mem_nil, or_false] at hname
  rcases hname with rfl | rfl | rfl | rfl <;> rfl

theorem isResponse_toJson (r : Response) : r.toJson.IsResponse := by
  obtain ⟨- | b⟩ := r
  · exact .inl rfl
  · exact .inr ⟨b.mediaType, object [("schema", b.toJson)], rfl⟩

/-- No detail stands under the name of a field that every operation has. -/
theorem field_ne (d : Detail) :
    d.field ≠ "parameters" ∧ d.field ≠ "responses" ∧ d.field ≠ "description" := by
  cases d <;> exact ⟨by simp [Detail.field], by simp [Detail.field], by simp [Detail.field]⟩

theorem isTable_toJson {op : Operation} (h : op.Valid) : op.toJson.IsTable := by
  have hkeys : Table.keys (op.details.map fun d => (d.1, d.2.toJson)) = Table.keys op.details :=
    Table.keys_map (fun d => d.2.toJson) op.details
  have hne : ∀ k ∈ Table.keys op.details,
      k ≠ "parameters" ∧ k ≠ "responses" ∧ k ≠ "description" := by
    intro k hk
    obtain ⟨d, hd, rfl⟩ := List.mem_map.mp hk
    rw [h.details d hd]
    exact field_ne d.2
  refine ⟨_, rfl, ?_⟩
  show (["parameters", "responses", "description"] ++
    Table.keys (op.details.map fun d => (d.1, d.2.toJson))).Nodup
  rw [hkeys]
  refine List.nodup_append.mpr ⟨by decide, h.nodup, ?_⟩
  -- the fields of the details are none of the three that are always there
  intro a ha b hb hab
  subst hab
  obtain ⟨h1, h2, h3⟩ := hne a hb
  simp only [List.mem_cons, List.not_mem_nil, or_false] at ha
  rcases ha with rfl | rfl | rfl
  · exact h1 rfl
  · exact h2 rfl
  · exact h3 rfl

/-- **What is written is an operation.** -/
theorem isOperation_toJson {op : Operation} (h : op.Valid) : op.toJson.IsOperation where
  table := isTable_toJson h
  parameters := by
    refine ⟨op.parameters.map Parameter.toJson, rfl, fun p hp => ?_⟩
    obtain ⟨q, -, rfl⟩ := List.mem_map.mp hp
    exact isParameter_toJson q
  responses := by
    refine ⟨op.responses.map fun r => (r.1, r.2.toJson), rfl, ?_, fun r hr => ?_⟩
    · have hkeys := Table.keys_map (fun r => r.2.toJson) op.responses
      rw [hkeys]
      exact h.responses
    · obtain ⟨q, -, rfl⟩ := List.mem_map.mp hr
      exact isResponse_toJson q.2
  description := ⟨op.description, rfl⟩

/-! ### Edits by name do what edits do -/

/-- Setting a response finds the responses. -/
theorem respondAt?_toJson (op : Operation) (key : String) (r : Response) :
    op.toJson.respondAt? key r.toJson =
      some { op with responses := op.responses.set key r }.toJson := by
  have hresponses : op.toJson.get? "responses" =
      some (object (op.responses.map fun r => (r.1, r.2.toJson))) := rfl
  rw [respondAt?, hresponses]
  simp only [Option.bind_eq_bind, Option.bind_some, put?, Table.set_map Response.toJson]
  simp [Operation.toJson, Table.set]

theorem withoutSlot?_toJson (p : Parameter) (ps : List Parameter) :
    withoutSlot? p.name p.location (ps.map Parameter.toJson) =
      some ((ps.filter fun q => !q.sameSlot p).map Parameter.toJson) := by
  induction ps with
  | nil => rfl
  | cons q ps ih =>
    have hname : (q.toJson.get? "name" >>= text?) = some q.name := rfl
    have hlocation : (q.toJson.get? "in" >>= text?) = some q.location := rfl
    rw [List.map_cons, withoutSlot?, hname, hlocation, ih, List.filter_cons]
    by_cases hs : q.name = p.name ∧ q.location = p.location
    · simp [Parameter.sameSlot, hs]
    · have hsame : q.sameSlot p = false := by
        rw [Parameter.sameSlot, Bool.and_eq_false_iff]
        simpa using Decidable.not_and_iff_or_not.mp hs
      simp [hsame, hs]

/-- Declaring a parameter finds the parameters, and the name and location of each. -/
theorem declareIn?_toJson (op : Operation) (p : Parameter) :
    op.toJson.declareIn? p.toJson =
      some { op with parameters := Parameter.declare op.parameters p }.toJson := by
  have hdeclared : (op.toJson.get? "parameters" >>= items?) =
      some (op.parameters.map Parameter.toJson) := rfl
  have hname : (p.toJson.get? "name" >>= text?) = some p.name := rfl
  have hlocation : (p.toJson.get? "in" >>= text?) = some p.location := rfl
  rw [declareIn?, hdeclared, hname, hlocation]
  simp only [Option.bind_eq_bind, Option.bind_some]
  rw [withoutSlot?_toJson]
  simp [Operation.toJson, put?, Table.set, Parameter.declare]

end Json

end ApiOutline
