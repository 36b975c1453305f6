/-
ApiOutline/Proofs/Shorthand.lean

Shorthands of parameters, read as outlines.

Design.  The notation `name:type:default` is read twice: by the compiler of outlines, where
it may stand for the root, and by the reader of shorthands.  An outline in which no block
is nested or named is flat (`result_compileSource_of_plain`), and then the compiler cuts where
the other reader cuts, and asks for the type as the other one does.  They part at a default
that is no value of its type.  The compiler rejects it; the shorthand keeps its text.  Only
the two types of numbers have such defaults (`Default.of_readOptional_eq_error`).

Main result: `compile_agrees_with_shorthand`.
-/
import ApiOutline.Proofs.Lookup
import ApiOutline.Proofs.Numbering
import ApiOutline.Route.Parameter

namespace ApiOutline

open Text

/-! ### Defaults -/

namespace Default

/-- The default that a text gives, which may give none. -/
def readOptional (type : TypeName) (literal : List Char) : Except LiteralFault (Option Scalar) :=
  if literal = [] then .ok none else (read type literal).map some

/-- Only a number can be written wrong, and only if something is written. -/
theorem of_readOptional_eq_error {type : TypeName} {literal : List Char} {f : LiteralFault}
    (h : readOptional type literal = .error f) :
    (type = .integer ∨ type = .number) ∧ literal ≠ [] := by
  rw [readOptional] at h
  split at h
  · cases h
  · rename_i hne
    refine ⟨?_, hne⟩
    cases type with
    | integer => exact .inl rfl
    | number => exact .inr rfl
    | string => cases h
    | boolean => cases h
    | object => cases h
    | array => cases h

end Default

/-- A shorthand keeps the text of a default that is no value of its type. -/
theorem Parameter.exampleOf_eq (type : TypeName) (default : List Char) :
    exampleOf type default =
      match Default.readOptional type default with
      | .ok e => e
      | .error _ => some (.text (String.ofList default)) := by
  rw [exampleOf, Default.readOptional]
  split
  · rfl
  · rcases Default.read type default with f | v <;> rfl

/-! ### Outlines that name no block -/

namespace Shape

open Block

/-- The compiler rejects a default that is no value of its type. -/
theorem result_exampleOf {type : TypeName} {default : List Char}
    (h : mentionsPlaceholder default = false) :
    (exampleOf type default).result =
      (Default.readOptional type default).mapError fun f => .defect (.literal f) := by
  rw [exampleOf, Default.readOptional, h]
  split
  · rfl
  · rfl

/-- The type of a tag that names no block. -/
theorem result_typeOf {tag : List Char} (h : mentionsPlaceholder tag = false) :
    (typeOf tag).result = .ok ((TypeName.ofTag? tag).getD .string) := by
  rw [typeOf, h]
  split
  · rename_i hnil
    rw [hnil]
    rfl
  · rcases TypeName.ofTag? tag with - | t <;> rfl

variable {blocks : List Block} {inner : Block → Outcome Schema}

/-- A value that names no block is a plain one, unless its default is no value of its type. -/
theorem result_resolveValue_of_plain {value : List Char} (h : mentionsPlaceholder value = false)
    {marker : Option Marker} {tag : List Char}
    (htag : Marker.split (cut ':' value).1 = (marker, tag)) {type : TypeName}
    (htype : (TypeName.ofTag? tag).getD .string = type) :
    (resolveValue blocks inner value).result =
      ((Default.readOptional type (cut ':' value).2).map fun e =>
        Schema.plain type ⟨e, some (Marker.requires marker)⟩).mapError fun f =>
          .defect (.literal f) := by
  have hfree : mentionsPlaceholder tag = false := by
    have hsplit := mentionsPlaceholder_split (mentionsPlaceholder_cut_fst ':' h)
    rwa [htag] at hsplit
  have hnode : (nodeOf blocks inner tag).result = .ok (.plain type {}) := by
    have hblock : (block? blocks tag).result = .ok none :=
      result_block?_of_not_isReference (isReference_of_mentionsPlaceholder hfree)
    rw [nodeOf, Traced.result_bind, hblock]
    show ((typeOf tag >>= fun t => pure (Schema.plain t {})) : Outcome Schema).result = _
    rw [Traced.result_bind, result_typeOf hfree, htype]
    rfl
  rw [resolveValue_eq, htag, Traced.result_bind, hnode]
  show ((exampleOf type _ >>= fun e => pure (Schema.plain type ⟨e, _⟩)) : Outcome Schema).result = _
  rw [Traced.result_bind, result_exampleOf (mentionsPlaceholder_cut_snd ':' h)]
  rcases Default.readOptional type (cut ':' value).2 with f | e <;> rfl

/-- An outline with a colon that holds no bracket and names no block is the value behind it. -/
theorem result_compileSource_of_plain {source : List Char} (hcolon : ':' ∈ source)
    (hbrackets : ∀ c ∈ source, isBracket c = false)
    (hplaceholder : mentionsPlaceholder source = false) :
    (compileSource source).result =
      (resolveValue [] (resolveBlock [] 0) (cut ':' source).2).result := by
  have hflat : Flat.ofText source = ⟨source, []⟩ := Flat.flattenFrom_of_plain hbrackets []
  have hbalanced : Flat.balanced ⟨source, []⟩ = true := Flat.balanced_iff.mpr hbrackets
  have hblock : (block? [] source).result = .ok none :=
    result_block?_of_not_isReference (isReference_of_mentionsPlaceholder hplaceholder)
  rw [compileSource, hflat, resolveFlat, if_pos hbalanced, resolveItem, Traced.result_bind, hblock]
  show (resolveValue [] (resolveBlock [] 0) (if _ then _ else _)).result = _
  rw [if_pos hcolon]

end Shape

/-! ### Both readers -/

/-- **One notation, two readers.**  A text with a colon, without brackets and without placeholders
declares a parameter.  As an outline it is a plain node with the type, the requirement and the
example of the parameter, or else it is malformed; then the type is one of numbers, and the example
is the text of the default. -/
theorem compile_agrees_with_shorthand (location : String) {text : String}
    (hcolon : ':' ∈ text.toList)
    (hbrackets : ∀ c ∈ squeeze text.toList, Block.isBracket c = false)
    (hplaceholder : Block.mentionsPlaceholder (squeeze text.toList) = false) :
    let default := (cut ':' (cut ':' (squeeze text.toList)).2).2
    ∃ p, Parameter.ofDeclaration location (.text text) = .ok p ∧ p.location = location ∧
      ((∃ t, p.type = t.name ∧
          (Shape.compile text).result = .ok (.plain t ⟨p.example?, some p.required⟩)) ∨
        (∃ cause, (Shape.compile text).result =
            .error (.malformed (String.ofList (squeeze text.toList)) cause)) ∧
          (p.type = "integer" ∨ p.type = "number") ∧ default ≠ [] ∧
            p.example? = some (.text (String.ofList default))) := by
  intro default
  have hmem : ':' ∈ squeeze text.toList := List.mem_filter.mpr ⟨hcolon, rfl⟩
  have hvalue := Block.mentionsPlaceholder_cut_snd ':' hplaceholder
  rcases htag : Marker.split (cut ':' (cut ':' (squeeze text.toList)).2).1 with ⟨marker, tag⟩
  rcases htype : (TypeName.ofTag? tag).getD .string with type
  -- both readers are left with the type and the text of the default
  have hparameter : Parameter.ofShorthand location text =
      { name := String.ofList (cut ':' (squeeze text.toList)).1
        location
        required := Marker.requires marker
        type := type.name
        example? := Parameter.exampleOf type default } := by
    rw [Parameter.ofShorthand, htag, htype]
  refine ⟨_, rfl, rfl, ?_⟩
  rw [hparameter, Parameter.exampleOf_eq, Shape.result_compile,
    Shape.result_compileSource_of_plain hmem hbrackets hplaceholder,
    Shape.result_resolveValue_of_plain hvalue htag htype]
  rcases hread : Default.readOptional type default with f | e
  · obtain ⟨hnumber, hne⟩ := Default.of_readOptional_eq_error hread
    refine .inr ⟨⟨_, rfl⟩, ?_, hne, rfl⟩
    exact hnumber.imp (congrArg TypeName.name) (congrArg TypeName.name)
  · exact .inl ⟨type, rfl, rfl⟩

/-- A time of day as the default of a number: as an outline the text is malformed, as a shorthand it
keeps the time. -/
theorem agrees_on_clock_time :
    let text := "at : ?n : 12:30"
    (':' ∈ text.toList ∧ (∀ c ∈ squeeze text.toList, Block.isBracket c = false) ∧
        Block.mentionsPlaceholder (squeeze text.toList) = false) ∧
      ∃ p, Parameter.ofDeclaration "query" (.text text) = .ok p ∧
        (∃ cause, (Shape.compile text).result =
          .error (.malformed (String.ofList (squeeze text.toList)) cause)) ∧
          (p.type = "integer" ∨ p.type = "number") ∧ p.example? = some (.text "12:30") := by
  intro text
  have hcolon : ':' ∈ text.toList := by decide
  have hbrackets : ∀ c ∈ squeeze text.toList, Block.isBracket c = false := by
    have hall : (squeeze text.toList).all (fun c => !Block.isBracket c) = true := by decide
    simpa using hall
  have hplaceholder : Block.mentionsPlaceholder (squeeze text.toList) = false := by decide
  refine ⟨⟨hcolon, hbrackets, hplaceholder⟩, ?_⟩
  obtain ⟨p, hp, -, ⟨t, -, hnode⟩ | ⟨hmalformed, htype, -, hexample⟩⟩ :=
    compile_agrees_with_shorthand "query" hcolon hbrackets hplaceholder
  · -- the time is no number
    have hfault : (Shape.compile text).result.isOk = false := by
      rw [Shape.result_compile,
        Shape.result_compileSource_of_plain (by decide) hbrackets hplaceholder,
        Shape.result_resolveValue_of_plain (by decide) rfl rfl]
      decide
    rw [hnode] at hfault
    cases hfault
  · have hdefault : (cut ':' (cut ':' (squeeze text.toList)).2).2 = "12:30".toList := by decide
    rw [hdefault, String.ofList_toList] at hexample
    exact ⟨p, hp, hmalformed, htype, hexample⟩

end ApiOutline
