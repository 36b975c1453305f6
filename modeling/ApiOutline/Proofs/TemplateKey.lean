/-
ApiOutline/Proofs/TemplateKey.lean

The key of a template, taken again.

Design.  A key is made piece by piece, between the closing braces of its
template, and no piece gets a new closing brace; so taking the key again comes
down to making a piece bare again (`barePiece_barePiece`).  What is left of a
token is a name without a colon, and nothing more can be taken off it.

Main result: a key is its own key (`keyOf_keyOf`).
-/
import ApiOutline.Route.Basic

namespace ApiOutline.Template

open Text

/-! ### Pieces -/

/-- A piece with a token that has a name is cut short behind the name; any other piece stays. -/
theorem barePiece_cases (piece : List Char) :
    barePiece piece = piece ∨
      ∃ a name, '{' ∉ a ∧ ':' ∉ name ∧ name ≠ [] ∧ (∀ c ∈ a ++ name, c ∈ piece) ∧
        barePiece piece = a ++ '{' :: name := by
  rw [barePiece, tokenAfter?]
  split
  · exact .inl rfl
  · rename_i token ht
    split at ht
    · cases ht
    · obtain rfl := Option.some.inj ht
      rw [slot?]
      split
      · exact .inl rfl
      · rename_i s hs
        split at hs
        · cases hs
        · rename_i hname
          obtain rfl := Option.some.inj hs
          refine .inr ⟨_, _, not_mem_cut piece, not_mem_cut _, hname, fun c hc => ?_, rfl⟩
          rcases List.mem_append.mp hc with hc | hc
          · exact mem_of_mem_cut (.inl hc)
          · exact mem_of_mem_cut (.inr (mem_of_mem_cut (.inl hc)))

theorem barePiece_token {a name : List Char} (ha : '{' ∉ a) (hc : ':' ∉ name)
    (hname : name ≠ []) : barePiece (a ++ '{' :: name) = a ++ '{' :: name := by
  rw [barePiece, tokenAfter?, cut_append ha, if_neg hname]
  dsimp only
  rw [slot?, cut_of_not_mem hc, if_neg hname]

theorem barePiece_barePiece (piece : List Char) :
    barePiece (barePiece piece) = barePiece piece := by
  rcases barePiece_cases piece with h | ⟨a, name, ha, hc, hname, -, h⟩
  · rw [h, h]
  · rw [h, barePiece_token ha hc hname]

theorem not_mem_barePiece {piece : List Char} (h : '}' ∉ piece) : '}' ∉ barePiece piece := by
  rcases barePiece_cases piece with e | ⟨a, name, -, -, -, hmem, e⟩
  · rwa [e]
  · rw [e]
    intro hb
    rcases List.mem_append.mp hb with hb | hb
    · exact h (hmem _ (List.mem_append_left _ hb))
    · rcases List.mem_cons.mp hb with hb | hb
      · cases hb
      · exact h (hmem _ (List.mem_append_right _ hb))

/-! ### All pieces but the last -/

theorem mapInit_ne_nil {α : Type} (f : α → α) {l : List α} (h : l ≠ []) : mapInit f l ≠ [] := by
  rcases l with - | ⟨a, - | ⟨b, l⟩⟩
  · exact absurd rfl h
  · exact h
  · simp [mapInit]

theorem forall_mem_mapInit {α : Type} {P : α → Prop} {f : α → α} {l : List α}
    (h : ∀ a ∈ l, P a) (hf : ∀ a, P a → P (f a)) : ∀ a ∈ mapInit f l, P a := by
  induction l with
  | nil => simp [mapInit]
  | cons a l ih =>
    rcases l with - | ⟨b, l⟩
    · exact h
    · intro c hc
      rcases List.mem_cons.mp hc with rfl | hc
      · exact hf a (h a List.mem_cons_self)
      · exact ih (fun d hd => h d (List.mem_cons_of_mem a hd)) c hc

theorem mapInit_mapInit {α : Type} {f : α → α} (hf : ∀ a, f (f a) = f a) (l : List α) :
    mapInit f (mapInit f l) = mapInit f l := by
  induction l with
  | nil => rfl
  | cons a l ih =>
    rcases l with - | ⟨b, l⟩
    · rfl
    · rw [mapInit]
      rcases hm : mapInit f (b :: l) with - | ⟨c, m⟩
      · exact absurd hm (mapInit_ne_nil f (by simp))
      · rw [hm] at ih
        rw [mapInit, ih, hf]

/-! ### Keys -/

/-- A key has the pieces of its template, all but the last made bare. -/
theorem pieces_key (template : List Char) :
    pieces '}' (key template) = mapInit barePiece (pieces '}' template) := by
  have hne : mapInit barePiece (pieces '}' template) ≠ [] :=
    mapInit_ne_nil barePiece (pieces_ne_nil '}' template)
  have hfree : ∀ p ∈ mapInit barePiece (pieces '}' template), '}' ∉ p :=
    forall_mem_mapInit (not_mem_of_mem_pieces template) fun _ => not_mem_barePiece
  rw [key, pieces_join hne hfree]

theorem key_key (template : List Char) : key (key template) = key template := by
  rw [key, pieces_key, mapInit_mapInit barePiece_barePiece, ← key]

/-- **Keys are normal.**  A key is its own key. -/
theorem keyOf_keyOf (template : String) : keyOf (keyOf template) = keyOf template := by
  rw [keyOf, keyOf, String.toList_ofList, key_key]

end ApiOutline.Template
