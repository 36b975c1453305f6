/-
ApiOutline/Proofs/JsonPrinting.lean

When printed values are standard JSON.

Design.  What is printed for a value follows the grammar part by part, whatever the style:
strings are escaped, numbers have the form that they should, and the brackets, commas and
colons are marks with space around them.  The one exception are the infinities and `nan`, which
are written as words with a capital.  So a text that holds one of them shows a capital outside
of strings (`shows_print`), and no text of the grammar does.

Main result: `isText_render_iff`.
-/
import ApiOutline.Proofs.NumberText

namespace ApiOutline.Json

/-! ### Strings -/

theorem isSome_hexValue?_of_mem_hex {width n : Nat} {c : Char} (hc : c ∈ Text.hex width n) :
    (Text.hexValue? c).isSome = true := by
  induction width generalizing n with
  | zero => cases hc
  | succ width ih =>
    rcases List.mem_append.mp hc with hc | hc
    · exact ih hc
    · rw [List.mem_singleton.mp hc, Text.hexValue?_hexDigit (Nat.mod_lt n (by decide))]
      rfl

theorem isChars_escapedChar (c : Char) {cs : List Char} (h : IsChars cs) :
    IsChars (escapedChar c ++ cs) := by
  rw [escapedChar]
  by_cases hmark : c = '"' ∨ c = '\\'
  · rw [if_pos hmark]
    rcases hmark with rfl | rfl <;> exact .escape (by decide) h
  rw [if_neg hmark]
  rw [not_or] at hmark
  -- the control characters that have a letter of their own
  split
  · exact .escape (by decide) h
  split
  · exact .escape (by decide) h
  split
  · exact .escape (by decide) h
  split
  · exact .escape (by decide) h
  split
  · exact .escape (by decide) h
  split
  · exact .code (Text.length_hex 4 _) (fun d => isSome_hexValue?_of_mem_hex) h
  · rename_i hcontrol
    exact .plain hmark.1 hmark.2 (Nat.le_of_not_lt hcontrol) h

theorem isString_quote (s : String) : IsString (quote s).toList := by
  have hchars : ∀ cs : List Char, IsChars (cs.flatMap escapedChar) := by
    intro cs
    induction cs with
    | nil => exact .nil
    | cons c cs ih =>
      rw [List.flatMap_cons]
      exact isChars_escapedChar c ih
  have htext : (quote s).toList = '"' :: s.toList.flatMap escapedChar ++ ['"'] := by
    simp only [quote, String.toList_append, String.toList_ofList]
    rfl
  rw [htext]
  exact .string (hchars s.toList)

/-! ### Marks -/

theorem isSpace_append {cs ds : List Char} (hc : IsSpace cs) (hd : IsSpace ds) :
    IsSpace (cs ++ ds) := by
  intro c h
  exact (List.mem_append.mp h).elim (hc c) (hd c)

theorem isSpace_pushn (n : Nat) : IsSpace ("".pushn ' ' n).toList := by
  induction n with
  | zero => exact fun c hc => (by cases hc)
  | succ n ih =>
    show IsSpace (("".pushn ' ' n).push ' ').toList
    rw [String.toList_push]
    exact isSpace_append ih (by decide)

namespace Style

theorem isSpace_gap (style : Style) (depth : Nat) : IsSpace (style.gap depth).toList := by
  cases style with
  | compact => exact fun c hc => (by cases hc)
  | spaced => exact fun c hc => (by cases hc)
  | indented =>
    rw [gap, String.toList_append]
    exact isSpace_append (by decide) (isSpace_pushn _)

/-- What stands between two items. -/
theorem exists_comma (style : Style) (depth : Nat) :
    ∃ m : Mark ',', (style.comma depth).toList = m.text := by
  cases style with
  | compact => exact ⟨.bare, by rw [comma]; rfl⟩
  | spaced => exact ⟨⟨[], [' '], by decide, by decide⟩, by rw [comma]; rfl⟩
  | indented =>
    refine ⟨⟨[], _, by decide, isSpace_gap indented depth⟩, ?_⟩
    rw [comma, String.toList_append]
    rfl

/-- What stands between a name and its value. -/
theorem exists_colon (style : Style) : ∃ m : Mark ':', style.colon.toList = m.text := by
  cases style with
  | compact => exact ⟨.bare, rfl⟩
  | spaced => exact ⟨⟨[], [' '], by decide, by decide⟩, rfl⟩
  | indented => exact ⟨⟨[], [' '], by decide, by decide⟩, rfl⟩

theorem enclose_nil (style : Style) (depth : Nat) (opening closing : String) :
    style.enclose depth opening closing [] = opening ++ closing := by
  rw [enclose, List.isEmpty_nil, if_pos rfl]

end Style

/-! ### Lists -/

theorem intercalate_cons {α : Type} (sep x : List α) (xs : List (List α)) :
    sep.intercalate (x :: xs) = x ++ xs.flatMap fun y => sep ++ y := by
  induction xs generalizing x with
  | nil => simp [List.intercalate]
  | cons y xs ih =>
    have h := ih y
    simp only [List.intercalate, List.intersperse_cons_cons, List.flatten_cons] at h ⊢
    rw [h, List.flatMap_cons, List.append_assoc]

section Enclose

variable {α : Type} (style : Style) (depth : Nat)

/-- Items between brackets: one after the other, each but the first behind a comma. -/
theorem toList_enclose (opening closing : String) (textOf : α → String) (a : α) (as : List α) :
    (style.enclose depth opening closing ((a :: as).map textOf)).toList =
      (opening.toList ++ (style.gap depth).toList) ++
        ((textOf a).toList ++
          as.flatMap fun b => (style.comma depth).toList ++ (textOf b).toList) ++
          ((style.gap (depth - 1)).toList ++ closing.toList) := by
  have hempty : ((a :: as).map textOf).isEmpty = false := rfl
  rw [Style.enclose, hempty, if_neg Bool.false_ne_true]
  simp only [String.toList_append, String.toList_intercalate, List.map_cons, intercalate_cons,
    List.map_map, List.flatMap_map, Function.comp_def, List.append_assoc]

theorem isValue_enclose_array (textOf : α → String) {as : List α}
    (h : ∀ a ∈ as, IsValue (textOf a).toList) :
    IsValue (style.enclose depth "[" "]" (as.map textOf)).toList := by
  cases as with
  | nil =>
    have hvalue := IsValue.emptyArray .bare .bare
    rw [List.map_nil, Style.enclose_nil]
    exact hvalue
  | cons a as =>
    obtain ⟨comma, hcomma⟩ := style.exists_comma depth
    have hvalue := IsValue.array ⟨[], _, by decide, style.isSpace_gap depth⟩
      ⟨(textOf a).toList, as.map fun b => (comma, (textOf b).toList)⟩
      ⟨_, [], style.isSpace_gap (depth - 1), by decide⟩ (by simpa [Listed.parts] using h)
    rw [Listed.text, List.flatMap_map] at hvalue
    rw [toList_enclose, hcomma]
    exact hvalue

theorem isValue_enclose_object (memberOf : α → Member) (textOf : α → String) {as : List α}
    (htext : ∀ a ∈ as, (textOf a).toList = (memberOf a).text)
    (hnames : ∀ a ∈ as, IsString (memberOf a).name)
    (hvalues : ∀ a ∈ as, IsValue (memberOf a).value) :
    IsValue (style.enclose depth "\x7b" "\x7d" (as.map textOf)).toList := by
  cases as with
  | nil =>
    have hvalue := IsValue.emptyObject .bare .bare
    rw [List.map_nil, Style.enclose_nil]
    exact hvalue
  | cons a as =>
    obtain ⟨comma, hcomma⟩ := style.exists_comma depth
    have hvalue := IsValue.object ⟨[], _, by decide, style.isSpace_gap depth⟩
      ⟨memberOf a, as.map fun b => (comma, memberOf b)⟩
      ⟨_, [], style.isSpace_gap (depth - 1), by decide⟩ (by simpa [Listed.parts] using hnames)
      (by simpa [Listed.parts] using hvalues)
    rw [Listed.text, List.flatMap_map] at hvalue
    have hrest : (as.flatMap fun b => comma.text ++ (textOf b).toList) =
        as.flatMap fun b => comma.text ++ (memberOf b).text := by
      rw [List.flatMap_def, List.flatMap_def]
      refine congrArg List.flatten (List.map_congr_left fun b hb => ?_)
      rw [htext b (List.mem_cons_of_mem a hb)]
    rw [toList_enclose, hcomma, htext a List.mem_cons_self, hrest]
    exact hvalue

/-- Items between brackets show a capital if one of the items does. -/
theorem shows_enclose {opening closing : String}
    (hopening : Shows false opening.toList) (hclosing : Shows false closing.toList)
    (textOf : α → String) (found : α → Bool) {as : List α}
    (h : ∀ a ∈ as, Shows (found a) (textOf a).toList) :
    Shows (as.any found) (style.enclose depth opening closing (as.map textOf)).toList := by
  cases as with
  | nil =>
    rw [List.map_nil, Style.enclose_nil, String.toList_append]
    exact hopening.append hclosing
  | cons a as =>
    obtain ⟨comma, hcomma⟩ := style.exists_comma depth
    obtain ⟨hfirst, hrest⟩ := List.forall_mem_cons.mp h
    have hothers : Shows (as.any found)
        (as.flatMap fun b => comma.text ++ (textOf b).toList) := by
      clear h
      induction as with
      | nil => exact .nil
      | cons b as ih =>
        obtain ⟨hb, hrest⟩ := List.forall_mem_cons.mp hrest
        rw [List.flatMap_cons, List.any_cons]
        exact ((comma.shows (by decide)).append hb).append (ih hrest)
    have hall := ((hopening.append (style.isSpace_gap depth).shows).append
      (hfirst.append hothers)).append ((style.isSpace_gap (depth - 1)).shows.append hclosing)
    rw [toList_enclose, hcomma, List.any_cons]
    simpa using hall

end Enclose

/-! ### Values -/

theorem printItems_eq_map (style : Style) (depth : Nat) (items : List Json) :
    printItems style depth items = items.map (print style depth) := by
  induction items with
  | nil => rfl
  | cons v items ih => rw [printItems, ih, List.map_cons]

theorem printFields_eq_map (style : Style) (depth : Nat) (fields : List (String × Json)) :
    printFields style depth fields =
      fields.map fun f => quote f.1 ++ style.colon ++ print style depth f.2 := by
  induction fields with
  | nil => rfl
  | cons f fields ih => rw [printFields, ih, List.map_cons]

theorem toList_floatText (x : Binary64) :
    (floatText x).toList = x.text "Infinity".toList "NaN".toList := by
  rw [floatText, String.toList_ofList]

/-- An infinity and `nan` show a capital, and no other number does. -/
theorem shows_floatText (x : Binary64) : Shows (!x.isFinite) (floatText x).toList := by
  rw [toList_floatText]
  cases x with
  | nan => exact fun rest => rfl
  | infinity negative => cases negative <;> exact fun rest => rfl
  | finite negative m e => exact (Binary64.isNumber_text rfl _ _).shows

variable (style : Style)

mutual

/-- A value without infinities and `nan` is printed as a value. -/
theorem isValue_print : (depth : Nat) → (v : Json) → v.isFinite = true →
    IsValue (print style depth v).toList
  | _, null, _ => by
    rw [print]
    exact .word (by decide)
  | _, boolean b, _ => by
    rw [print]
    cases b with
    | true => exact .word (by decide)
    | false => exact .word (by decide)
  | _, integer n, _ => .number (isNumber_toString n)
  | _, float x, h => by
    show IsValue (floatText x).toList
    rw [toList_floatText]
    exact .number (Binary64.isNumber_text h _ _)
  | _, text s, _ => .string (isString_quote s)
  | depth, array items, h => by
    rw [print, printItems_eq_map]
    exact isValue_enclose_array style _ _ (isValue_printItems (depth + 1) items h)
  | depth, object fields, h => by
    obtain ⟨colon, hcolon⟩ := style.exists_colon
    have hvalues := isValue_printFields (depth + 1) fields h
    let memberOf (f : String × Json) : Member :=
      ⟨(quote f.1).toList, colon, (print style (depth + 1) f.2).toList⟩
    have htext : ∀ f ∈ fields, (quote f.1 ++ style.colon ++ print style (depth + 1) f.2).toList =
        (memberOf f).text := by
      intro f _
      rw [String.toList_append, String.toList_append, hcolon]
      rfl
    have hnames : ∀ f ∈ fields, IsString (memberOf f).name := fun f _ => isString_quote f.1
    rw [print, printFields_eq_map]
    exact isValue_enclose_object style (depth + 1) memberOf _ htext hnames hvalues

/-- The same for the items of an array. -/
theorem isValue_printItems : (depth : Nat) → (items : List Json) → itemsFinite items = true →
    ∀ v ∈ items, IsValue (print style depth v).toList
  | _, [], _ => by simp
  | depth, v :: items, h => by
    rw [itemsFinite, Bool.and_eq_true] at h
    exact List.forall_mem_cons.mpr ⟨isValue_print depth v h.1, isValue_printItems depth items h.2⟩

/-- The same for the fields of an object. -/
theorem isValue_printFields : (depth : Nat) → (fields : List (String × Json)) →
    fieldsFinite fields = true → ∀ f ∈ fields, IsValue (print style depth f.2).toList
  | _, [], _ => by simp
  | depth, (k, v) :: fields, h => by
    rw [fieldsFinite, Bool.and_eq_true] at h
    exact List.forall_mem_cons.mpr
      ⟨isValue_print depth v h.1, isValue_printFields depth fields h.2⟩

end

mutual

/-- A printed value shows a capital if an infinity or `nan` is in it. -/
theorem shows_print : (depth : Nat) → (v : Json) →
    Shows (!v.isFinite) (print style depth v).toList
  | depth, null => (isValue_print style depth null rfl).shows
  | depth, boolean b => (isValue_print style depth (boolean b) rfl).shows
  | depth, integer n => (isValue_print style depth (integer n) rfl).shows
  | _, float x => shows_floatText x
  | depth, text s => (isValue_print style depth (text s) rfl).shows
  | depth, array items => by
    rw [print, printItems_eq_map, isFinite_array, List.not_all_eq_any_not]
    have hopening : Shows false "[".toList := .char (by decide)
    have hclosing : Shows false "]".toList := .char (by decide)
    exact shows_enclose style _ hopening hclosing _ _ (shows_printItems (depth + 1) items)
  | depth, object fields => by
    obtain ⟨colon, hcolon⟩ := style.exists_colon
    rw [print, printFields_eq_map, isFinite_object, List.not_all_eq_any_not]
    have hopening : Shows false "\x7b".toList := .char (by decide)
    have hclosing : Shows false "\x7d".toList := .char (by decide)
    refine shows_enclose style _ hopening hclosing _ _ fun f hf => ?_
    have hmember := ((isString_quote f.1).shows.append (colon.shows (by decide))).append
      (shows_printFields (depth + 1) fields f hf)
    rw [String.toList_append, String.toList_append, hcolon]
    exact hmember

/-- The same for the items of an array. -/
theorem shows_printItems : (depth : Nat) → (items : List Json) →
    ∀ v ∈ items, Shows (!v.isFinite) (print style depth v).toList
  | _, [] => by simp
  | depth, v :: items =>
    List.forall_mem_cons.mpr ⟨shows_print depth v, shows_printItems depth items⟩

/-- The same for the fields of an object. -/
theorem shows_printFields : (depth : Nat) → (fields : List (String × Json)) →
    ∀ f ∈ fields, Shows (!f.2.isFinite) (print style depth f.2).toList
  | _, [] => by simp
  | depth, (_, v) :: fields =>
    List.forall_mem_cons.mpr ⟨shows_print depth v, shows_printFields depth fields⟩

end

/-- **Printed JSON.**  In every style, a value is printed as standard JSON exactly if no number in
it is an infinity or `nan`. -/
theorem isText_render_iff (v : Json) : IsText (v.render style).toList ↔ v.isFinite = true := by
  constructor
  · intro h
    have hnone : (!v.isFinite) = false := (shows_print style 0 v).unique h.shows
    simpa using hnone
  · intro h
    exact ⟨[], _, [], by decide, isValue_print style 0 v h, by decide, by simp [render]⟩

end ApiOutline.Json
