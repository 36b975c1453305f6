/-
ApiOutline/Proofs/BodyBlanks.lean

Blanks in the outlines of bodies.

Design.  Three readers in turn look at the outline of a body: is it blank, does it begin with `#`,
and what does it describe.  The first and the last see it without its blanks, and the second does
not.  So two outlines that differ in blanks only are read alike as long as neither is a reference
(`Body.read_congr`, `Response.read_congr`), and the edits with them are one edit, notes and faults
included (`Operation.edit_congr`); a reference is taken as it stands, and shows in the operation
that it leaves (`Operation.requested`, `Operation.answered`).

Main result: `edits_ignore_blanks`.
-/
import ApiOutline.Proofs.Merge

namespace ApiOutline

open Text

/-- The outline of a body is a reference to a component. -/
def Body.IsReference (outline : String) : Prop := outline.toList.head? = some '#'

instance : DecidablePred Body.IsReference := fun outline =>
  inferInstanceAs (Decidable (outline.toList.head? = some '#'))

/-- Two outlines are the same but for blanks, none of which may be in a reference. -/
structure Body.Respaced (s s' : String) : Prop where
  squeezed : squeeze s.toList = squeeze s'.toList
  left : ¬ IsReference s
  right : ¬ IsReference s'

/-! ### Outlines that are no references -/

section Respaced

variable {s s' : String}

theorem Shape.compile_congr (h : squeeze s.toList = squeeze s'.toList) :
    Shape.compile s = Shape.compile s' := by
  rw [compile, compile, h]

theorem Text.allBlank_congr (h : squeeze s.toList = squeeze s'.toList) :
    allBlank s.toList = allBlank s'.toList := by
  rw [Bool.eq_iff_iff, ← squeeze_eq_nil_iff, ← squeeze_eq_nil_iff, h]

theorem Body.read_of_not_isReference (h : ¬ IsReference s) :
    read s = .schema <$> (Shape.compile s).mapError Fault.outline := by
  rw [read]
  exact if_neg h

theorem Body.read_congr (h : Respaced s s') : read s = read s' := by
  rw [read_of_not_isReference h.left, read_of_not_isReference h.right,
    Shape.compile_congr h.squeezed]

theorem Response.read_congr (h : Body.Respaced s s') : read s = read s' := by
  rw [read, read, Text.allBlank_congr h.squeezed, Body.read_congr h]

end Respaced

/-- The edits with one outline are the edits with the other. -/
theorem Operation.edit_congr (op : Operation) {s s' : String} (h : Body.Respaced s s') :
    op.edit (.request s) = op.edit (.request s') ∧
      ∀ code, op.edit (.respond code s) = op.edit (.respond code s') := by
  constructor
  · rw [edit, edit, Body.read_congr h]
  · intro code
    rw [edit, edit, Response.read_congr h]

/-! ### References -/

section Reference

variable {s t : String}

theorem Body.read_of_isReference (h : IsReference s) : read s = pure (.reference s) := by
  rw [read]
  exact if_pos h

/-- A reference is not blank. -/
theorem Response.read_of_isReference (h : Body.IsReference s) :
    read s = pure ⟨some (.reference s)⟩ := by
  have hblank : ¬ allBlank s.toList = true := by
    rw [allBlank, List.all_eq_true]
    exact fun hall => absurd (hall '#' (List.mem_of_mem_head? h)) (by decide)
  rw [read, if_neg hblank, Body.read_of_isReference h]
  rfl

/-- Only a reference is read as one. -/
theorem Body.eq_of_read {target : String} (h : (read t).result = .ok (.reference target)) :
    t = target := by
  by_cases ht : IsReference t
  · rw [read_of_isReference ht] at h
    exact Body.reference.inj (Except.ok.inj h)
  · rw [read_of_not_isReference ht] at h
    obtain ⟨schema, -, ⟨⟩⟩ := Traced.result_map_eq_ok_iff.mp h

theorem Response.eq_of_read {target : String}
    (h : (read t).result = .ok ⟨some (.reference target)⟩) : t = target := by
  rw [read] at h
  split at h
  · cases h
  · obtain ⟨b, hb, hbody⟩ := Traced.result_map_eq_ok_iff.mp h
    obtain rfl := Option.some.inj (Response.mk.inj hbody)
    exact Body.eq_of_read hb

/-- A schema is not shown like a reference. -/
theorem Body.eq_of_toJson {target : String} {b : Body} (h : (reference target).toJson = b.toJson) :
    b = reference target := by
  cases b with
  | schema schema =>
    have hnames := congrArg Json.names h
    cases schema <;> simp [Schema.rootJson, Schema.fields, Json.names, toJson] at hnames
  | reference target' =>
    obtain ⟨⟩ := h
    rfl

theorem Response.eq_of_toJson {target : String} {r : Response}
    (h : toJson ⟨some (.reference target)⟩ = r.toJson) : r = ⟨some (.reference target)⟩ := by
  obtain ⟨- | b⟩ := r
  · simp [toJson, Json.field?] at h
  · simp only [toJson, Body.contentJson, Option.map_some, Json.field?, List.cons_append,
      List.nil_append, Json.object.injEq, List.cons.injEq, Prod.mk.injEq, true_and, and_true] at h
    rw [Body.eq_of_toJson h.2]

end Reference

namespace Operation

variable {op op' : Operation}

/-- The request body that an edit leaves. -/
theorem requested {s : String} (he : (op.edit (.request s)).result = .ok op') :
    ∃ b, (Body.read s).result = .ok b ∧
      op'.toJson.get? "requestBody" = some (Detail.requestBody b).toJson := by
  obtain ⟨b, hb, he⟩ := Traced.result_bind_eq_ok_iff.mp he
  obtain rfl := Except.ok.inj he
  refine ⟨b, hb, ?_⟩
  rw [toJson_eq_object, fields_give, Json.get?]
  exact Table.get?_set_self _ _ _

/-- The response that an edit leaves. -/
theorem answered {code : Code} {s : String} (he : (op.edit (.respond code s)).result = .ok op') :
    ∃ key r, code.written? = some key ∧ (Response.read s).result = .ok r ∧
      (op'.toJson.get? "responses").bind (·.get? key) = some r.toJson := by
  obtain ⟨r, hr, he⟩ := Traced.result_bind_eq_ok_iff.mp he
  rcases hkey : code.written? with - | key
  · rw [hkey] at he
    cases he
  · rw [hkey] at he
    obtain rfl := Except.ok.inj he
    refine ⟨key, r, rfl, hr, ?_⟩
    show Table.get? ((op.responses.set key r).map fun r => (r.1, r.2.toJson)) key = some r.toJson
    rw [Table.get?_map, Table.get?_set_self, Option.map_some]

/-- What a document shows of the operation that an edit leaves. -/
def shown (op : Operation) (e : Edit) : Except Fault Json := (op.edit e).result.map toJson

theorem exists_of_shown_eq {e e' : Edit} (h : op.shown e = op.shown e')
    (he : (op.edit e).result = .ok op') :
    ∃ other, (op.edit e').result = .ok other ∧ other.toJson = op'.toJson := by
  rw [shown, shown, he] at h
  rcases hother : (op.edit e').result with f | other
  · rw [hother] at h
    cases h
  · rw [hother] at h
    exact ⟨other, rfl, (Except.ok.inj h).symm⟩

section Shown

variable {s t : String} (hs : Body.IsReference s)
include hs

/-- A reference shows in the request that it is written for. -/
theorem eq_of_shown_request (h : op.shown (.request s) = op.shown (.request t)) : t = s := by
  have hread := Body.read_of_isReference hs
  obtain ⟨new, hnew⟩ : ∃ new, (op.edit (.request s)).result = .ok new := by
    rw [edit, hread]
    exact ⟨_, rfl⟩
  obtain ⟨other, hother, hshown⟩ := exists_of_shown_eq h hnew
  obtain ⟨b, hb, hbody⟩ := requested hnew
  obtain ⟨b', hb', hbody'⟩ := requested hother
  rw [hread] at hb
  obtain rfl := Except.ok.inj hb
  rw [hshown, hbody] at hbody'
  have hbodies : (Body.reference s).toJson = b'.toJson := by
    simpa [Detail.toJson, Body.contentJson] using hbody'
  rw [Body.eq_of_toJson hbodies] at hb'
  exact Body.eq_of_read hb'

/-- A reference shows in the response that it is written for. -/
theorem eq_of_shown_respond {code : Code} (hcode : code.written?.isSome = true)
    (h : op.shown (.respond code s) = op.shown (.respond code t)) : t = s := by
  have hread := Response.read_of_isReference hs
  obtain ⟨key, hkey⟩ := Option.isSome_iff_exists.mp hcode
  obtain ⟨new, hnew⟩ : ∃ new, (op.edit (.respond code s)).result = .ok new := by
    rw [edit, hread, hkey]
    exact ⟨_, rfl⟩
  obtain ⟨other, hother, hshown⟩ := exists_of_shown_eq h hnew
  obtain ⟨_, r, hfirst, hr, hresponse⟩ := answered hnew
  obtain ⟨_, r', hsecond, hr', hresponse'⟩ := answered hother
  obtain rfl := Option.some.inj (hkey.symm.trans hfirst)
  obtain rfl := Option.some.inj (hkey.symm.trans hsecond)
  rw [hread] at hr
  obtain rfl := Except.ok.inj hr
  rw [hshown, hresponse] at hresponse'
  rw [Response.eq_of_toJson (Option.some.inj hresponse')] at hr'
  exact Response.eq_of_read hr'

end Shown

/-- **Bodies ignore blanks.**  Two outlines that differ in blanks only, and neither of which is a
reference, are one and the same request body and, under every code, one and the same response: the
operation that is left, the notes and the fault are the same.  A reference is taken as it stands,
and another text leaves another operation. -/
theorem edits_ignore_blanks (op : Operation) {s t : String}
    (h : squeeze s.toList = squeeze t.toList) :
    (¬ Body.IsReference s → ¬ Body.IsReference t →
      op.edit (.request s) = op.edit (.request t) ∧
        ∀ code, op.edit (.respond code s) = op.edit (.respond code t)) ∧
    (Body.IsReference s ∨ Body.IsReference t → s ≠ t →
      op.shown (.request s) ≠ op.shown (.request t) ∧
        ∀ code, code.written?.isSome = true →
          op.shown (.respond code s) ≠ op.shown (.respond code t)) := by
  constructor
  · intro hs ht
    exact op.edit_congr ⟨h, hs, ht⟩
  · rintro (hs | ht) hne
    · exact ⟨fun hshown => hne (eq_of_shown_request hs hshown).symm,
        fun code hcode hshown => hne (eq_of_shown_respond hs hcode hshown).symm⟩
    · exact ⟨fun hshown => hne (eq_of_shown_request ht hshown.symm),
        fun code hcode hshown => hne (eq_of_shown_respond ht hcode hshown.symm)⟩

theorem edits_ignore_line_breaks :
    squeeze "[id:i,\n  tag:s]\n".toList = squeeze "[id:i,tag:s]".toList ∧
      ∀ op : Operation,
        op.edit (.request "[id:i,\n  tag:s]\n") = op.edit (.request "[id:i,tag:s]") ∧
        op.edit (.respond (.integer 200) "[id:i,\n  tag:s]\n") =
          op.edit (.respond (.integer 200) "[id:i,tag:s]") := by
  have h : squeeze "[id:i,\n  tag:s]\n".toList = squeeze "[id:i,tag:s]".toList := by decide
  refine ⟨h, fun op => ?_⟩
  obtain ⟨hrequest, hrespond⟩ := (edits_ignore_blanks op h).1 (by decide) (by decide)
  exact ⟨hrequest, hrespond (.integer 200)⟩

/-- A line break at the end of a reference is part of it. -/
theorem reference_keeps_line_break :
    squeeze "#/components/schemas/Pet\n".toList = squeeze "#/components/schemas/Pet".toList ∧
      (ofTemplate "/pets").shown (.request "#/components/schemas/Pet\n") ≠
        (ofTemplate "/pets").shown (.request "#/components/schemas/Pet") := by
  refine ⟨by decide, fun h => ?_⟩
  have heq := eq_of_shown_request (by decide) h
  exact absurd heq (by decide)

end Operation

end ApiOutline
