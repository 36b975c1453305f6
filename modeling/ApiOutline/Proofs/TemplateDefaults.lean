/-
ApiOutline/Proofs/TemplateDefaults.lean

Templates that differ in the defaults of their tokens only.

Design.  A template has tokens in braces or, if there are none, after colons; either way
each of its tokens ends a piece of the text, which closing braces or slashes mark off.  So
other defaults mean other ends of pieces (`OtherDefault`), piece by piece.  Making a piece
bare takes away just what such pieces differ in (`barePiece_otherDefault`), and the key is
made of bare pieces.

Colon tokens are not made bare: a template without tokens in braces is its own key, and
its defaults are part of the routes that it names (`colon_default_counts`).

Main result: templates in braces that differ in defaults only address the same operations,
in every run (`run_addresses_same_routes`).
-/
import ApiOutline.Proofs.Handles
import ApiOutline.Proofs.PathParameters

namespace ApiOutline

namespace Template

open Text

/-! ### Other defaults -/

/-- The text of a token: its name and, behind a colon, its default if it has one. -/
def tokenText (name : List Char) : Option (List Char) → List Char
  | none => name
  | some default => name ++ ':' :: default

/-- Two pieces of templates are the same but for the default of a token with a name, which begins
at the first `mark`. -/
inductive OtherDefault (mark : Char) : List Char → List Char → Prop
  | same (piece : List Char) : OtherDefault mark piece piece
  | token (before name : List Char) (d e : Option (List Char)) (hbefore : mark ∉ before)
      (hname : name ≠ []) (hcolon : ':' ∉ name) :
      OtherDefault mark (before ++ mark :: tokenText name d) (before ++ mark :: tokenText name e)

/-- Two templates are the same but for the defaults of tokens in braces.  There is no token behind
the last closing brace. -/
structure OtherBraceDefaults (t u : List Char) : Prop where
  pieces : List.Forall₂ (OtherDefault '{') (pieces '}' t).dropLast (pieces '}' u).dropLast
  last : (Text.pieces '}' t).getLast? = (Text.pieces '}' u).getLast?

/-- Two templates without tokens in braces are the same but for the defaults of tokens after
colons. -/
structure OtherColonDefaults (t u : List Char) : Prop where
  left : braceTokens t = []
  right : braceTokens u = []
  pieces : List.Forall₂ (OtherDefault ':') (pieces '/' t) (pieces '/' u)

/-- Two templates, in one style or the other, are the same but for the defaults of their tokens. -/
def OtherDefaults (t u : List Char) : Prop := OtherBraceDefaults t u ∨ OtherColonDefaults t u

/-! ### Keys -/

theorem cut_tokenText {name : List Char} (hcolon : ':' ∉ name) (d : Option (List Char)) :
    (cut ':' (tokenText name d)).1 = name := by
  cases d with
  | none => rw [tokenText, cut_of_not_mem hcolon]
  | some default => rw [tokenText, cut_append hcolon]

theorem tokenText_ne_nil {name : List Char} (hname : name ≠ []) (d : Option (List Char)) :
    tokenText name d ≠ [] := by
  cases d with
  | none => exact hname
  | some default => simp [tokenText]

/-- A piece is made bare by taking away the default of its token. -/
theorem barePiece_tokenText {before name : List Char} (hbefore : '{' ∉ before)
    (hname : name ≠ []) (hcolon : ':' ∉ name) (d : Option (List Char)) :
    barePiece (before ++ '{' :: tokenText name d) = before ++ '{' :: name := by
  have hcut := cut_tokenText hcolon d
  rw [barePiece, tokenAfter?, cut_append hbefore, if_neg (tokenText_ne_nil hname d)]
  dsimp only
  rw [slot?, hcut, if_neg hname]

theorem barePiece_otherDefault {p q : List Char} (h : OtherDefault '{' p q) :
    barePiece p = barePiece q := by
  cases h with
  | same => rfl
  | token before name d e hbefore hname hcolon =>
    rw [barePiece_tokenText hbefore hname hcolon d, barePiece_tokenText hbefore hname hcolon e]

theorem mapInit_eq {α : Type} (f : α → α) (l : List α) :
    mapInit f l = l.dropLast.map f ++ l.getLast?.toList := by
  induction l with
  | nil => rfl
  | cons a l ih =>
    rcases l with - | ⟨b, l⟩
    · rfl
    · rw [mapInit, ih]
      rfl

theorem map_barePiece_otherDefault {ps qs : List (List Char)}
    (h : List.Forall₂ (OtherDefault '{') ps qs) : ps.map barePiece = qs.map barePiece := by
  induction h with
  | nil => rfl
  | cons hpq _ ih => rw [List.map_cons, List.map_cons, barePiece_otherDefault hpq, ih]

/-- **Keys without defaults.**  Templates that differ in defaults of tokens in braces only have one
key. -/
theorem key_otherBraceDefaults {t u : List Char} (h : OtherBraceDefaults t u) : key t = key u := by
  rw [key, key, mapInit_eq, mapInit_eq, map_barePiece_otherDefault h.pieces, h.last]

theorem keyOf_otherBraceDefaults {t u : String} (h : OtherBraceDefaults t.toList u.toList) :
    keyOf t = keyOf u :=
  congrArg String.ofList (key_otherBraceDefaults h)

/-- Colon tokens keep their defaults in the key. -/
theorem keyOf_of_braceTokens_eq_nil {t : String} (h : braceTokens t.toList = []) : keyOf t = t := by
  rw [keyOf, key_of_braceTokens_eq_nil h, String.ofList_toList]

end Template

/-! ### Routes -/

namespace Heap

variable {h : Heap} {t u : String}

/-- In a heap, two templates address the same operations. -/
structure SameRoutes (h : Heap) (t u : String) : Prop where
  /-- they name the same routes -/
  route : ∀ m, Route.of t m = Route.of u m
  /-- where the route has an operation, registering one is registering the other -/
  reopen : ∀ name method options m, Method.read method = .ok m →
    (h.document.operation? (Route.of t m)).isSome →
      h.step (.register name t method options) = h.step (.register name u method options)
  /-- the handles that one and then the other give out have one operation -/
  shared : ∀ name name' method options options' r r',
    let opened := h.step (.register name t method options)
    let again := opened.2.step (.register name' u method options')
    opened.1 = .ok (.opened r) → again.1 = .ok (.opened r') →
      r' = r ∧ ∃ a, Table.get? opened.2.handles name = some ⟨r, a⟩ ∧
        Table.get? again.2.handles name' = some ⟨r, a⟩ ∧ again.2.address? r = some a
  /-- removing one is removing the other -/
  remove : ∀ tag, h.step (.remove (some t) tag) = h.step (.remove (some u) tag)
  /-- removing one leaves no operation for the other -/
  removed : ∀ tag m, (h.step (.remove (some u) tag)).2.document.operation? (Route.of t m) = none

/-- Templates with one key address the same operations. -/
theorem sameRoutes_of_keyOf_eq (hv : h.document.Valid) (hkey : Template.keyOf t = Template.keyOf u) :
    h.SameRoutes t u where
  route m := congrArg (Route.mk · m) hkey
  reopen := by
    intro name method options m hm hop
    have hroute : Route.of t m = Route.of u m := congrArg (Route.mk · m) hkey
    rw [operation?_document, Option.isSome_map] at hop
    obtain ⟨a, ha⟩ := Option.isSome_iff_exists.mp hop
    rw [step_register, step_register, hm]
    rcases Session.readOptions options with f | o
    · rfl
    · -- the operation is edited as it is, and neither template is read
      dsimp only
      rw [← hroute, ha]
  shared := by
    intro name name' method options options' r r' opened again hr hr'
    obtain ⟨⟨m, hm, hroute⟩, a, hget, hlinked, -⟩ := step_register_eq_ok hr
    obtain ⟨⟨m', hm', hroute'⟩, a', hget', hlinked', haddress⟩ := step_register_eq_ok hr'
    obtain rfl : m = m' := Except.ok.inj (hm.symm.trans hm')
    obtain rfl : r' = r := by rw [hroute, hroute', Route.of, Route.of, hkey]
    obtain rfl : a = a' := haddress a hlinked
    exact ⟨rfl, a, hget, hget', hlinked'⟩
  remove := by
    intro tag
    rw [step_remove, step_remove]
    simp only [removal, hkey]
  removed := by
    intro tag m
    have hroute : Template.keyOf u = (Route.of t m).key := hkey.symm
    rw [step_remove, operation?_document, address?_removal hv]
    simp [hroute]

/-- **Defaults and routes.**  In every run, templates that differ in the defaults of tokens in
braces only have one key and address the same operations.  Templates without such tokens that
differ in the defaults of tokens after colons do so only if they do not differ at all. -/
theorem run_addresses_same_routes (title version : String) (steps : List Step) (t u : String) :
    let h := (Heap.start title version).run steps
    h.Mirrors ((Session.start title version).run steps) ∧
      (Template.OtherBraceDefaults t.toList u.toList →
        Template.keyOf t = Template.keyOf u ∧ h.SameRoutes t u) ∧
      (Template.OtherColonDefaults t.toList u.toList → (h.SameRoutes t u ↔ t = u)) := by
  intro h
  have hmirrors := mirrors_run title version steps
  have hvalid : h.document.Valid :=
    hmirrors.document ▸ ((Session.Valid.start title version).run steps).document
  refine ⟨hmirrors, fun hother => ?_, fun hother => ⟨fun hsame => ?_, fun heq => ?_⟩⟩
  · have hkey := Template.keyOf_otherBraceDefaults hother
    exact ⟨hkey, sameRoutes_of_keyOf_eq hvalid hkey⟩
  · -- both templates are their own keys
    have hkey : Template.keyOf t = Template.keyOf u := (Route.mk.inj (hsame.route .get)).1
    rwa [Template.keyOf_of_braceTokens_eq_nil hother.left,
      Template.keyOf_of_braceTokens_eq_nil hother.right] at hkey
  · exact sameRoutes_of_keyOf_eq hvalid (congrArg Template.keyOf heq)

/-- A default that is changed and one that is taken away, after a run that has opened the route. -/
theorem addresses_pet_photo :
    let h := (Heap.start "" "").run [.register "a" "/pets/{pet:1}/photos/{n:0}" "get" none]
    Template.OtherBraceDefaults "/pets/{pet:1}/photos/{n:0}".toList
        "/pets/{pet:7:b}/photos/{n}".toList ∧
      h.SameRoutes "/pets/{pet:1}/photos/{n:0}" "/pets/{pet:7:b}/photos/{n}" := by
  intro h
  have hpet : Template.OtherDefault '{' "/pets/\x7bpet:1".toList "/pets/\x7bpet:7:b".toList :=
    .token "/pets/".toList "pet".toList (some "1".toList) (some "7:b".toList)
      (by decide) (by decide) (by decide)
  have hphoto : Template.OtherDefault '{' "/photos/\x7bn:0".toList "/photos/\x7bn".toList :=
    .token "/photos/".toList "n".toList (some "0".toList) none (by decide) (by decide) (by decide)
  have hleft : (Text.pieces '}' "/pets/{pet:1}/photos/{n:0}".toList).dropLast =
      ["/pets/\x7bpet:1".toList, "/photos/\x7bn:0".toList] := by decide
  have hright : (Text.pieces '}' "/pets/{pet:7:b}/photos/{n}".toList).dropLast =
      ["/pets/\x7bpet:7:b".toList, "/photos/\x7bn".toList] := by decide
  have hother : Template.OtherBraceDefaults "/pets/{pet:1}/photos/{n:0}".toList
      "/pets/{pet:7:b}/photos/{n}".toList := by
    refine ⟨?_, by decide⟩
    rw [hleft, hright]
    exact .cons hpet (.cons hphoto .nil)
  exact ⟨hother, ((run_addresses_same_routes "" "" _ _ _).2.1 hother).2⟩

/-- The default of a colon token is part of the key, and so a route that was opened without it is
not the one that is removed with it. -/
theorem colon_default_counts :
    let h := (Heap.start "" "").run
      [.register "a" "/users/:id" "get" none, .remove (some "/users/:id:5") none]
    Template.OtherDefaults "/users/:id".toList "/users/:id:5".toList ∧
      Template.keyOf "/users/:id" ≠ Template.keyOf "/users/:id:5" ∧
      (h.address? (Route.of "/users/:id" .get)).isSome := by
  intro h
  have hid : Template.OtherDefault ':' ":id".toList ":id:5".toList :=
    .token [] "id".toList none (some "5".toList) (by decide) (by decide) (by decide)
  have hother : Template.OtherColonDefaults "/users/:id".toList "/users/:id:5".toList :=
    ⟨by decide, by decide, .cons (.same []) (.cons (.same "users".toList) (.cons hid .nil))⟩
  exact ⟨.inr hother, by decide, rfl⟩

end Heap

end ApiOutline
