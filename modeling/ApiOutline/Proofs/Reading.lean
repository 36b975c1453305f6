/-
ApiOutline/Proofs/Reading.lean

What a nested text says, block by block.

Design.  This is the meaning of outlines with the blocks left where they
stand.  The reading of a block is computed from the signs of its body, in which
the inner blocks already have readings (`readBody`), and the whole text is read
as an item (`Nested.reading`).  There are no placeholders, so no block can be
taken for another one, and there is no depth to count.

A reading that fails says whether a default literal was at fault or the form of
the text; the wording of a complaint about the form would need placeholders.
-/
import ApiOutline.Proofs.Sign
import ApiOutline.Shape.Compile

namespace ApiOutline

/-- What is wrong with a nested text: a default literal or the form of the text. -/
inductive Flaw where
  | literal (fault : LiteralFault)
  | form
deriving DecidableEq, Repr

/-- The schema that a text describes, or what is wrong with the text. -/
abbrev Reading := Except Flaw Schema

/-! ### Readings one after the other -/

section Readings

variable {α β : Type}

theorem ok_of_mapM {f : α → Except Flaw β} {rows : List α} {l : List β}
    (h : rows.mapM f = .ok l) : ∀ row ∈ rows, ∃ b, f row = .ok b := by
  induction rows generalizing l with
  | nil => simp
  | cons row rows ih =>
    rw [List.mapM_cons] at h
    obtain ⟨b, hb, h⟩ := bind_eq_ok_iff.mp h
    obtain ⟨bs, hbs, -⟩ := bind_eq_ok_iff.mp h
    intro r hr
    rcases List.mem_cons.mp hr with rfl | hr
    · exact ⟨b, hb⟩
    · exact ih hbs r hr

theorem mapM_congr {f g : α → Except Flaw β} {l : List α}
    (h : ∀ a ∈ l, f a = g a) : l.mapM f = l.mapM g := by
  induction l with
  | nil => rfl
  | cons a l ih =>
    rw [List.mapM_cons, List.mapM_cons, h a (by simp), ih fun b hb => h b (by simp [hb])]

end Readings

/-! ### Blocks by themselves -/

namespace Sign

/-- The only sign of a row, if it is a block. -/
def sole? {α : Type} : List (Sign α) → Option α
  | [block a] => some a
  | _ => none

theorem sole?_eq_some_iff {α : Type} {ss : List (Sign α)} {a : α} :
    sole? ss = some a ↔ ss = [block a] := by
  constructor
  · intro h
    unfold sole? at h
    split at h
    · obtain rfl := Option.some.inj h
      rfl
    · cases h
  · rintro rfl
    rfl

theorem sole?_map {α β : Type} (f : α → β) (ss : List (Sign α)) :
    sole? (ss.map (map f)) = (sole? ss).map f := by
  rcases ss with - | ⟨s, - | ⟨t, ss⟩⟩
  · rfl
  · cases s <;> rfl
  · cases s <;> rfl

end Sign

/-! ### Rows, read -/

namespace Shape

open Sign

/-- The node that a tag names: the block if it is one, and else a plain type. -/
def readTag (tag : List (Sign Reading)) : Reading :=
  match sole? tag with
  | some r => r
  | none =>
    match chars? tag with
    | some name => .ok (.plain ((TypeName.ofTag? name).getD .string) {})
    | none => .error .form

/-- The example that a default gives. -/
def readExample (type : TypeName) (default : List (Sign Reading)) :
    Except Flaw (Option Scalar) :=
  match chars? default with
  | some literal =>
    if literal = [] then .ok none
    else ((Default.read type literal).map some).mapError .literal
  | none => .error .form

/-- A value: a marker, a tag, and a default after a colon. -/
def readValue (ss : List (Sign Reading)) : Reading := do
  let tag := splitMarker (cut ':' ss).1
  let node ← readTag tag.2
  let example? ← readExample node.type (cut ':' ss).2
  pure (node.withNote ⟨example?, some (Marker.requires tag.1)⟩)

/-- An item: a block by itself, or a value in front of which a name and a colon may stand. -/
def readItem (ss : List (Sign Reading)) : Reading :=
  match sole? ss with
  | some r => r
  | none => readValue (after ':' ss)

/-- One of the items of an array, which may be empty only if it is the only one. -/
def readElement (body ss : List (Sign Reading)) : Reading :=
  if !body.isEmpty && ss.isEmpty then .error .form else readItem ss

/-- A property: its name, and its value after a colon. -/
def readProperty (ss : List (Sign Reading)) : Except Flaw (String × Schema) :=
  match chars? (cut ':' ss).1 with
  | some name =>
    if name = [] then .error .form
    else do
      let value ← readValue (cut ':' ss).2
      pure (String.ofList name, value)
  | none => .error .form

/-- The body of a block.  Items that say the same are one, and of properties with one name the
last counts. -/
def readBody : BlockKind → List (Sign Reading) → Reading
  | .array, body => do
    let items ← (pieces ',' body).mapM (readElement body)
    pure (.array (items.foldl addItem []) {})
  | .object, body =>
    if body.isEmpty then pure (.object [] {})
    else do
      let properties ← (pieces ',' body).mapM readProperty
      pure (.object (Table.ofEntries properties) {})

end Shape

/-- What a nested text says, the text being an item. -/
def Nested.reading (t : Nested) : Reading := Shape.readItem (t.signs Shape.readBody)

end ApiOutline
