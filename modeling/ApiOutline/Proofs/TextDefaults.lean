/-
ApiOutline/Proofs/TextDefaults.lean

Defaults of the type string.

Design.  The default of a property is whatever stands behind the second colon, and a string
keeps it as it is.  Two readers meet it.  The reader of shorthands takes any text.  The
compiler knows blocks by their placeholders, and so it refuses a default in which it sees
one; it cannot tell whether a block stood there or the writer put down a dollar sign and a
digit.  An outline with a single property has one block without inner brackets, so that
compiling it comes down to this one value (`result_compileSource_block`,
`result_resolveBody_property`, `result_resolveValue_string`).

Main result: `compile_text_default`.
-/
import ApiOutline.Proofs.Grammar
import ApiOutline.Proofs.Shorthand

namespace ApiOutline

open Text

/-! ### Placeholders in a text -/

/-- A placeholder is mentioned exactly where a dollar sign stands in front of a digit. -/
theorem Block.mentionsPlaceholder_iff {cs : List Char} :
    mentionsPlaceholder cs = true ↔ ∃ d : Char, d.isDigit = true ∧ ['$', d] <:+: cs := by
  induction cs using mentionsPlaceholder.induct with
  | case1 => simp [mentionsPlaceholder]
  | case2 c => simp [mentionsPlaceholder, List.infix_cons_iff]
  | case3 c e cs ih =>
    rw [mentionsPlaceholder, Bool.or_eq_true, ih]
    constructor
    · rintro (h | ⟨d, hd, h⟩)
      · rw [Bool.and_eq_true, decide_eq_true_eq] at h
        obtain ⟨rfl, he⟩ := h
        exact ⟨e, he, [], cs, rfl⟩
      · exact ⟨d, hd, List.infix_cons h⟩
    · rintro ⟨d, hd, h⟩
      -- it stands at the front or behind the first character
      rcases List.infix_cons_iff.mp h with h | h
      · obtain ⟨rest, hrest⟩ := h
        obtain ⟨hc, hrest⟩ := List.cons.inj hrest
        obtain ⟨rfl, -⟩ := List.cons.inj hrest
        exact .inl (by simp [← hc, hd])
      · exact .inr ⟨d, hd, h⟩

/-! ### One block, one property, one default -/

namespace Shape

open Block

/-- An outline that is a block without inner brackets is what the block resolves to. -/
theorem result_compileSource_block {b : Block} (hb : ∀ c ∈ b.body, isBracket c = false) :
    (compileSource b.text).result = (resolveBody [b] (resolveBlock [b] 0) b).result := by
  have hplain : ∀ c ∈ placeholder 0, isBracket c = false := fun _ => isBracket_of_mem_placeholder
  have hflat : Flat.ofText b.text = ⟨placeholder 0, [b]⟩ := by
    have hstep := Flat.flattenFrom_step (a := []) (by simp) hb [] []
    rw [List.nil_append, List.append_nil, List.nil_append, List.append_nil,
      List.length_nil, List.nil_append, Flat.flattenFrom_of_plain hplain] at hstep
    exact hstep
  have hbalanced : Flat.balanced ⟨placeholder 0, [b]⟩ = true := Flat.balanced_iff.mpr hplain
  have hblock : (block? [b] (placeholder 0)).result = .ok (some b) :=
    result_block?_placeholder rfl
  rw [compileSource, hflat, resolveFlat, if_pos hbalanced, resolveItem, Traced.result_bind, hblock]
  rfl

variable {blocks : List Block} {inner : Block → Outcome Schema}

/-- An object with one property has the node that the value of the property resolves to. -/
theorem result_resolveBody_property {name value : List Char} (hne : name ≠ [])
    (hcolon : ':' ∉ name) (hcomma : ',' ∉ name ++ ':' :: value)
    (hname : mentionsPlaceholder name = false) :
    (resolveBody blocks inner ⟨.object, name ++ ':' :: value⟩).result =
      (resolveValue blocks inner value).result.map fun node =>
        .object [(String.ofList name, node)] {} := by
  have hstep : propertyStep blocks inner [] (name ++ ':' :: value) =
      resolveValue blocks inner value >>= fun node => pure [(String.ofList name, node)] := by
    rw [propertyStep, cut_append hcolon, if_neg hne, hname]
    rfl
  rw [resolveBody]
  dsimp only
  rw [if_neg (by simp), pieces_of_not_mem hcomma, resolveProperties_eq_foldlM, List.foldlM_cons,
    hstep, Traced.result_bind]
  simp only [List.foldlM_nil, bind_pure, Traced.result_bind]
  rcases (resolveValue blocks inner value).result with f | node <;> rfl

/-- A default of a string is kept, unless it mentions a placeholder. -/
theorem result_resolveValue_string {default : List Char} (hne : default ≠ []) :
    (resolveValue blocks inner ('s' :: ':' :: default)).result =
      if mentionsPlaceholder default = true then
        .error (.defect (.blockInDefault (String.ofList default)))
      else .ok (.plain .string ⟨some (.text (String.ofList default)), some true⟩) := by
  have hcut : cut ':' ('s' :: ':' :: default) = (['s'], default) :=
    cut_append (a := ['s']) (by decide) default
  have hnode : (nodeOf blocks inner ['s']).result = .ok (.plain .string {}) := rfl
  rw [resolveValue_eq, hcut]
  show (nodeOf blocks inner ['s'] >>= _).result = _
  rw [Traced.result_bind, hnode]
  show ((exampleOf .string default >>= fun e => pure (Schema.plain .string ⟨e, _⟩)) :
    Outcome Schema).result = _
  rw [exampleOf, if_neg hne]
  split <;> rfl

end Shape

/-! ### Outlines with a default -/

namespace Outline

/-- The name of a property. -/
structure Key extends Name where
  nonempty : chars ≠ []

/-- The character can stand in a default: it is no blank, no bracket and no comma. -/
def isDefaultChar (c : Char) : Bool := !isBlank c && !Block.isBracket c && c ≠ ','

/-- A text that can be written as a default.  It may have colons and dollar signs. -/
structure DefaultText where
  chars : List Char
  nonempty : chars ≠ []
  plain : chars.all isDefaultChar = true

/-- A dollar sign stands in front of a digit, as in a placeholder. -/
def DefaultText.LooksLikeBlock (default : DefaultText) : Prop :=
  ∃ d : Char, d.isDigit = true ∧ ['$', d] <:+: default.chars

/-- A string with a default, as a shorthand. -/
def textShorthand (key : Key) (default : DefaultText) : List Char :=
  key.chars ++ ':' :: 's' :: ':' :: default.chars

/-- The object that has a string with a default for its only property, as an outline. -/
def textOutline (key : Key) (default : DefaultText) : List Char :=
  '{' :: (textShorthand key default ++ ['}'])

variable (key : Key) (default : DefaultText)

theorem DefaultText.spares {default : DefaultText} {c : Char} (h : c ∈ default.chars) :
    isBlank c = false ∧ Block.isBracket c = false ∧ c ≠ ',' := by
  have hc := List.all_eq_true.mp default.plain c h
  rw [isDefaultChar, Bool.and_eq_true, Bool.and_eq_true, Bool.not_eq_true', Bool.not_eq_true',
    decide_eq_true_eq] at hc
  exact ⟨hc.1.1, hc.1.2, hc.2⟩

theorem Key.spares {key : Key} {c : Char} (h : c ∈ key.chars) :
    isBlank c = false ∧ Block.isBracket c = false ∧ c ≠ ',' ∧ c ≠ '$' := by
  have hc := List.all_eq_true.mp key.plain c h
  rw [isWordChar, Bool.and_eq_true, Bool.and_eq_true, Bool.and_eq_true, Bool.not_eq_true',
    Bool.not_eq_true', decide_eq_true_eq, decide_eq_true_eq] at hc
  exact ⟨hc.1.1.1, hc.1.1.2, hc.2, hc.1.2⟩

/-- Nothing in a shorthand separates it or gets lost. -/
theorem textShorthand_spares {c : Char} (h : c ∈ textShorthand key default) :
    isBlank c = false ∧ Block.isBracket c = false ∧ c ≠ ',' := by
  simp only [textShorthand, List.mem_append, List.mem_cons] at h
  rcases h with h | rfl | rfl | rfl | h
  · obtain ⟨hblank, hbracket, hcomma, -⟩ := Key.spares h
    exact ⟨hblank, hbracket, hcomma⟩
  · decide
  · decide
  · decide
  · exact DefaultText.spares h

/-- What the outline of a string with a default compiles to. -/
theorem result_compile_textOutline :
    (Shape.compile (String.ofList (textOutline key default))).result =
      if Block.mentionsPlaceholder default.chars = true then
        .error (.malformed (String.ofList (textOutline key default))
          (.blockInDefault (String.ofList default.chars)))
      else .ok (.object [(String.ofList key.chars,
        .plain .string ⟨some (.text (String.ofList default.chars)), some true⟩)] {}) := by
  have hsqueeze : squeeze (textOutline key default) = textOutline key default := by
    refine squeeze_eq_self fun c hc => ?_
    rcases List.mem_cons.mp hc with rfl | hc
    · rfl
    rcases List.mem_append.mp hc with hc | hc
    · exact (textShorthand_spares key default hc).1
    · rw [List.mem_singleton.mp hc]
      rfl
  have hcomma : ',' ∉ textShorthand key default :=
    fun h => (textShorthand_spares key default h).2.2 rfl
  have hname : Block.mentionsPlaceholder key.chars = false := by
    rw [← Bool.not_eq_true, Block.mentionsPlaceholder_iff]
    rintro ⟨d, -, h⟩
    exact (Key.spares (h.subset List.mem_cons_self)).2.2.2 rfl
  have hblock := Shape.result_compileSource_block (b := ⟨.object, textShorthand key default⟩)
    fun c hc => (textShorthand_spares key default hc).2.1
  have hsource : Block.text ⟨.object, textShorthand key default⟩ = textOutline key default := rfl
  rw [hsource, textShorthand,
    Shape.result_resolveBody_property key.nonempty key.noColon hcomma hname,
    Shape.result_resolveValue_string default.nonempty] at hblock
  rw [Shape.result_compile, String.toList_ofList, hsqueeze, hblock]
  rcases Block.mentionsPlaceholder default.chars with - | - <;> rfl

/-- What the shorthand of a string with a default declares. -/
theorem ofDeclaration_textShorthand (location : String) :
    Parameter.ofDeclaration location (.text (String.ofList (textShorthand key default))) =
      .ok { name := String.ofList key.chars
            location
            required := true
            type := "string"
            example? := some (.text (String.ofList default.chars)) } := by
  have hsqueeze : squeeze (textShorthand key default) = textShorthand key default :=
    squeeze_eq_self fun c hc => (textShorthand_spares key default hc).1
  have hname : cut ':' (textShorthand key default) = (key.chars, 's' :: ':' :: default.chars) :=
    cut_append key.noColon _
  have hvalue : cut ':' ('s' :: ':' :: default.chars) = (['s'], default.chars) :=
    cut_append (a := ['s']) (by decide) default.chars
  have hexample : Parameter.exampleOf .string default.chars =
      some (.text (String.ofList default.chars)) := if_neg default.nonempty
  rw [Parameter.ofDeclaration, Parameter.ofShorthand, String.toList_ofList, hsqueeze, hname]
  dsimp only
  rw [hvalue, ← hexample]
  rfl

/-- **Text defaults.**  A shorthand keeps every default of a string as it is.  An outline keeps it
exactly if no dollar sign in it stands in front of a digit; otherwise the outline is malformed, as
if there was a block in the default. -/
theorem compile_text_default (key : Key) (default : DefaultText) (location : String) :
    ((Shape.compile (String.ofList (textOutline key default))).result =
        .ok (.object [(String.ofList key.chars,
          .plain .string ⟨some (.text (String.ofList default.chars)), some true⟩)] {}) ↔
      ¬ default.LooksLikeBlock) ∧
    ((Shape.compile (String.ofList (textOutline key default))).result =
        .error (.malformed (String.ofList (textOutline key default))
          (.blockInDefault (String.ofList default.chars))) ↔
      default.LooksLikeBlock) ∧
    Parameter.ofDeclaration location (.text (String.ofList (textShorthand key default))) =
      .ok { name := String.ofList key.chars
            location
            required := true
            type := "string"
            example? := some (.text (String.ofList default.chars)) } := by
  have hlooks : Block.mentionsPlaceholder default.chars = true ↔ default.LooksLikeBlock :=
    Block.mentionsPlaceholder_iff
  rw [result_compile_textOutline, ← hlooks]
  refine ⟨?_, ?_, ofDeclaration_textShorthand key default location⟩
  · split
    · rename_i h
      exact iff_of_false (by rintro ⟨⟩) (not_not_intro h)
    · rename_i h
      exact iff_of_true rfl h
  · split
    · rename_i h
      exact iff_of_true rfl h
    · rename_i h
      exact iff_of_false (by rintro ⟨⟩) h

/-- A price is no block, but it is refused as one; a parameter keeps it. -/
theorem compile_refuses_price :
    (Shape.compile "{price:s:$5}").result =
        .error (.malformed "{price:s:$5}" (.blockInDefault "$5")) ∧
      Parameter.ofDeclaration "query" (.text "price:s:$5") =
        .ok { name := "price"
              location := "query"
              required := true
              type := "string"
              example? := some (.text "$5") } := by
  let key : Key := ⟨⟨⟨"price".toList, by decide⟩, by decide⟩, by decide⟩
  let default : DefaultText := ⟨"$5".toList, by decide, by decide⟩
  have houtline : String.ofList (textOutline key default) = "{price:s:$5}" := by decide
  have hshorthand : String.ofList (textShorthand key default) = "price:s:$5" := by decide
  have hkey : String.ofList key.chars = "price" := by decide
  have hdefault : String.ofList default.chars = "$5" := by decide
  have hcompile := result_compile_textOutline key default
  have hdeclare := ofDeclaration_textShorthand key default "query"
  rw [if_pos (by decide), houtline, hdefault] at hcompile
  rw [hshorthand, hkey, hdefault] at hdeclare
  exact ⟨hcompile, hdeclare⟩

end Outline

end ApiOutline
