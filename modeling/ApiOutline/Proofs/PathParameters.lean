/-
ApiOutline/Proofs/PathParameters.lean

Parameters of a path, in the operations that are stored under its key.

Design.  The parameters of a new operation are read from the template as it was
written, while the key has lost the defaults.  Both are read token by token
between the same braces, and a token without its default has the name that it had
(`names_key`); so the key asks for the names that the operation was opened with.
From then on edits never free a slot, and registering the route again reads no
template.

Main result: `run_declares_path_parameters`.
-/
import ApiOutline.Proofs.Declaration

namespace ApiOutline

namespace Template

open Text

/-! ### Names in a key -/

/-- A token without its default; a token without a name stays. -/
def bareToken (token : List Char) : List Char :=
  match slot? token with
  | none => token
  | some s => s.name

/-- Making a token bare keeps the name that it declares. -/
theorem name_slot?_bareToken (token : List Char) :
    (slot? (bareToken token)).map Slot.name = (slot? token).map Slot.name := by
  rw [bareToken]
  split
  · rfl
  · rename_i s hs
    rw [hs]
    rw [slot?] at hs
    split at hs
    · cases hs
    · rename_i hname
      obtain rfl := Option.some.inj hs
      have hcut : cut ':' (cut ':' token).1 = ((cut ':' token).1, []) :=
        cut_of_not_mem (not_mem_cut token)
      rw [slot?, hcut, if_neg hname]
      rfl

/-- A piece that is made bare holds the token of the piece, made bare. -/
theorem tokenAfter?_barePiece (piece : List Char) :
    tokenAfter? '{' (barePiece piece) = (tokenAfter? '{' piece).map bareToken := by
  rcases ht : tokenAfter? '{' piece with - | token
  · have hpiece : barePiece piece = piece := by rw [barePiece, ht]
    rw [hpiece, ht]
    rfl
  · rcases hs : slot? token with - | s
    · have hpiece : barePiece piece = piece := by rw [barePiece, ht]; simp only [hs]
      rw [hpiece, ht, Option.map_some, bareToken, hs]
    · have hpiece : barePiece piece = (cut '{' piece).1 ++ '{' :: s.name := by
        rw [barePiece, ht]; simp only [hs]
      have hname : s.name ≠ [] := by
        rw [slot?] at hs
        split at hs
        · cases hs
        · rename_i hname
          obtain rfl := Option.some.inj hs
          exact hname
      rw [hpiece, tokenAfter?, cut_append (not_mem_cut piece), if_neg hname, Option.map_some,
        bareToken, hs]

theorem dropLast_mapInit {α : Type} (f : α → α) (l : List α) :
    (mapInit f l).dropLast = l.dropLast.map f := by
  induction l with
  | nil => rfl
  | cons a l ih =>
    rcases l with - | ⟨b, l⟩
    · rfl
    · rw [mapInit, List.dropLast_cons_of_ne_nil (mapInit_ne_nil f (List.cons_ne_nil b l)), ih]
      rfl

/-- The tokens in the braces of a key are those of the template, made bare. -/
theorem braceTokens_key (template : List Char) :
    braceTokens (key template) = (braceTokens template).map bareToken := by
  have hpiece : tokenAfter? '{' ∘ barePiece = fun piece => (tokenAfter? '{' piece).map bareToken := by
    funext piece
    exact tokenAfter?_barePiece piece
  rw [braceTokens, braceTokens, pieces_key, dropLast_mapInit, List.filterMap_map,
    List.map_filterMap, hpiece]

theorem mapInit_eq_self {α : Type} {f : α → α} {l : List α} (h : ∀ a ∈ l.dropLast, f a = a) :
    mapInit f l = l := by
  induction l with
  | nil => rfl
  | cons a l ih =>
    rcases l with - | ⟨b, l⟩
    · rfl
    · have ha : f a = a := h a List.mem_cons_self
      rw [mapInit, ha, ih fun c hc => h c (List.mem_cons_of_mem a hc)]

/-- A template without tokens in braces is its own key. -/
theorem key_of_braceTokens_eq_nil {template : List Char} (h : braceTokens template = []) :
    key template = template := by
  have hbare : ∀ p ∈ (pieces '}' template).dropLast, barePiece p = p := by
    intro p hp
    have hnone : tokenAfter? '{' p = none := List.filterMap_eq_nil_iff.mp h p hp
    rw [barePiece, hnone]
  rw [key, mapInit_eq_self hbare, join_pieces]

/-- **Names in a key.**  A key declares the names that its template declares, in their order. -/
theorem names_key (template : List Char) :
    (slots (key template)).map Slot.name = (slots template).map Slot.name := by
  by_cases h : braceTokens template = []
  · rw [key_of_braceTokens_eq_nil h]
  · have hkey : braceTokens (key template) ≠ [] := by
      rw [braceTokens_key]
      simpa using h
    have htokens : tokens (key template) = (tokens template).map bareToken := by
      rw [tokens, if_neg hkey, tokens, if_neg h, braceTokens_key]
    have hnames : (fun token => ((slot? ∘ bareToken) token).map Slot.name) =
        fun token => (slot? token).map Slot.name := by
      funext token
      exact name_slot?_bareToken token
    rw [slots, slots, htokens, List.filterMap_map, List.map_filterMap, List.map_filterMap, hnames]

end Template

/-! ### Slots of a path -/

namespace Parameter

theorem map_slot_ofTemplate (template : String) :
    (ofTemplate template).map slot =
      ((Template.slots template.toList).map Template.Slot.name).map
        fun name => (String.ofList name, "path") := by
  rw [ofTemplate, List.map_map, List.map_map]
  rfl

/-- The parameters of a key take the slots that the parameters of its template take. -/
theorem map_slot_ofTemplate_keyOf (template : String) :
    (ofTemplate (Template.keyOf template)).map slot = (ofTemplate template).map slot := by
  rw [map_slot_ofTemplate, map_slot_ofTemplate, Template.keyOf, String.toList_ofList,
    Template.names_key]

end Parameter

/-! ### Stored operations -/

/-- Each operation takes the slots that the parameters of its key ask for. -/
def Session.DeclaresPaths (s : Session) : Prop :=
  ∀ r op, s.document.operation? r = some op →
    ∀ slot ∈ (Parameter.ofTemplate r.key).map Parameter.slot,
      slot ∈ op.parameters.map Parameter.slot

namespace Session.DeclaresPaths

variable {s : Session}

theorem step (h : s.DeclaresPaths) (hs : s.Valid) (st : Step) :
    (s.step st).1.DeclaresPaths := by
  intro r op' ho slot hslot
  rcases hs.step_origin st ho with ⟨op, hop, hbecomes⟩ | ⟨template, es, hopens⟩
  · exact hbecomes.mem_slots (h r op hop slot hslot)
  · -- the key of the route is that of the template
    obtain ⟨name, method, options, m, o, -, -, -, -, rfl, -⟩ := hopens.registers
    have htemplate : slot ∈ (Parameter.ofTemplate template).map Parameter.slot := by
      rw [← Parameter.map_slot_ofTemplate_keyOf]
      exact hslot
    have hbecomes : (Operation.ofTemplate template).Becomes op' := .editAll hopens.edited
    exact hbecomes.mem_slots htemplate

theorem run (h : s.DeclaresPaths) (hs : s.Valid) (steps : List Step) :
    (s.run steps).DeclaresPaths := by
  induction steps generalizing s with
  | nil => exact h
  | cons st steps ih => exact ih (h.step hs st) (hs.step st)

theorem start (title version : String) : (Session.start title version).DeclaresPaths := by
  intro r op ho
  cases ho

end Session.DeclaresPaths

/-- **Path parameters stay declared.**  After any steps, an operation that is stored under a key
declares each name that the key has as a parameter of the path. -/
theorem run_declares_path_parameters (title version : String) (steps : List Step)
    {key : String} {ops : Table Method Operation} {m : Method} {op : Operation}
    (hpath : (key, ops) ∈ ((Session.start title version).run steps).document.paths)
    (hop : (m, op) ∈ ops) :
    ∀ p ∈ Parameter.ofTemplate key, ∃ q ∈ op.parameters, q.name = p.name ∧ q.location = "path" := by
  have hvalid := (Session.Valid.start title version).run steps
  have hdeclares := (Session.DeclaresPaths.start title version).run (.start title version) steps
  intro p hp
  have hstored := Document.operation?_of_mem hvalid.document hpath hop
  have hslot := hdeclares ⟨key, m⟩ op hstored p.slot (List.mem_map_of_mem hp)
  obtain ⟨q, hq, hsame⟩ := List.mem_map.mp hslot
  obtain ⟨hname, hlocation⟩ := Prod.mk.inj hsame
  obtain ⟨slot, -, rfl⟩ := List.mem_map.mp hp
  exact ⟨q, hq, hname, hlocation⟩

/-- A path parameter that a definition declares anew, for a path and as optional, and a route that
is opened once more under another template. -/
theorem declares_path_parameter_redeclared :
    let steps : List Step :=
      [.register "first" "/users/{id:42}" "GET" none,
        .change "first" (.edit (.declare "query"
          [.map [(.text "name", .text "id"), (.text "in", .text "path")], .text "id:i"])),
        .register "second" "/users/{id}" "get"
          (some (.map [(.text "header", .text "token,id")]))]
    ∃ ops op, ("/users/{id}", ops) ∈ ((Session.start "" "").run steps).document.paths ∧
      (Method.get, op) ∈ ops ∧
      ∀ p ∈ Parameter.ofTemplate "/users/{id}",
        ∃ q ∈ op.parameters, q.name = p.name ∧ q.location = "path" := by
  intro steps
  have hpaths : ∃ op, ((Session.start "" "").run steps).document.paths =
      [("/users/{id}", [(.get, op)])] := ⟨_, rfl⟩
  obtain ⟨op, hpaths⟩ := hpaths
  have hpath : ("/users/{id}", [(Method.get, op)]) ∈
      ((Session.start "" "").run steps).document.paths := by
    rw [hpaths]
    exact List.mem_singleton_self _
  have hop : (Method.get, op) ∈ [(Method.get, op)] := List.mem_singleton_self _
  exact ⟨_, op, hpath, hop, run_declares_path_parameters "" "" steps hpath hop⟩

end ApiOutline
