/-
ApiOutline/Proofs/Placeholder.lean

Placeholders, and the texts that name a block by one.

Design.  A placeholder is a dollar sign and the digits of a number, so neither a
bracket nor a separator stands in it, and its number can be read off it
(`placeholder_injective`).  A text that looks like a reference names a block
exactly when it is the placeholder of one: leading zeros and numbers beyond the
table are refused (`result_block?_placeholder`, `result_block?_of_unknown`).
-/
import ApiOutline.Shape.Compile

namespace ApiOutline

namespace Block

theorem isDigit_of_mem_toDigits {n : Nat} {c : Char} (h : c ∈ Nat.toDigits 10 n) :
    c.isDigit = true :=
  Nat.isDigit_of_mem_toDigits (by decide) (by decide) h

/-- A character that is neither the dollar sign nor a digit is in no placeholder. -/
theorem not_mem_placeholder {c : Char} (hc : c ≠ '$') (hd : c.isDigit = false) (n : Nat) :
    c ∉ placeholder n := by
  intro h
  rcases List.mem_cons.mp h with rfl | h
  · exact hc rfl
  · rw [isDigit_of_mem_toDigits h] at hd
    cases hd

/-- The number of a placeholder, read off its digits. -/
theorem digitsValue_placeholder (n : Nat) : Literal.digitsValue (placeholder n).tail = n :=
  Nat.ofDigitChars_ten_toDigits

theorem placeholder_injective {m n : Nat} (h : placeholder m = placeholder n) : m = n := by
  rw [← digitsValue_placeholder m, h, digitsValue_placeholder]

theorem isReference_placeholder (n : Nat) : isReference (placeholder n) = true := by
  rcases e : Nat.toDigits 10 n with - | ⟨d, ds⟩
  · exact absurd e Nat.toDigits_ne_nil
  · have h : ∀ c ∈ d :: ds, c.isDigit = true := fun c hc =>
      isDigit_of_mem_toDigits (n := n) (by rw [e]; exact hc)
    rw [placeholder, e, isReference, List.all_eq_true.mpr h]
    rfl

/-- A reference is a dollar sign and at least one digit. -/
theorem isReference_iff {text : List Char} :
    isReference text = true ↔
      ∃ ds, text = '$' :: ds ∧ ds ≠ [] ∧ ∀ d ∈ ds, d.isDigit = true := by
  rcases text with - | ⟨c, - | ⟨d, ds⟩⟩
  · simp [isReference]
  · simp [isReference]
  · simp only [isReference, Bool.and_eq_true, decide_eq_true_eq, List.all_eq_true]
    constructor
    · rintro ⟨rfl, h⟩
      exact ⟨d :: ds, rfl, by simp, h⟩
    · rintro ⟨es, he, -, h⟩
      obtain ⟨rfl, rfl⟩ := List.cons.inj he
      exact ⟨rfl, h⟩

/-! ### Placeholders inside a text -/

theorem mentionsPlaceholder_placeholder (n : Nat) (cs : List Char) :
    mentionsPlaceholder (placeholder n ++ cs) = true := by
  rcases e : Nat.toDigits 10 n with - | ⟨d, ds⟩
  · exact absurd e Nat.toDigits_ne_nil
  · have hd : d.isDigit = true := isDigit_of_mem_toDigits (n := n) (by simp [e])
    simp [placeholder, e, mentionsPlaceholder, hd]

section Parts

variable {cs : List Char}

/-- A placeholder in the first part of a text stands in the text. -/
theorem mentionsPlaceholder_append_left (a b : List Char) (h : mentionsPlaceholder a = true) :
    mentionsPlaceholder (a ++ b) = true := by
  induction a using mentionsPlaceholder.induct with
  | case1 => cases h
  | case2 c => cases h
  | case3 c d cs ih =>
    rw [mentionsPlaceholder, Bool.or_eq_true] at h
    show ((c = '$' && d.isDigit) || mentionsPlaceholder (d :: cs ++ b)) = true
    rw [Bool.or_eq_true]
    exact h.imp_right ih

/-- A placeholder in the last part of a text stands in the text. -/
theorem mentionsPlaceholder_append_right (a b : List Char) (h : mentionsPlaceholder b = true) :
    mentionsPlaceholder (a ++ b) = true := by
  induction a with
  | nil => exact h
  | cons c a ih =>
    rw [List.cons_append]
    rcases hab : a ++ b with - | ⟨d, cs⟩
    · rw [hab] at ih
      cases ih
    · rw [hab] at ih
      rw [mentionsPlaceholder, ih, Bool.or_true]

theorem mentionsPlaceholder_cut_fst (sep : Char) (h : mentionsPlaceholder cs = false) :
    mentionsPlaceholder (Text.cut sep cs).1 = false := by
  by_cases hsep : sep ∈ cs
  · rw [← Bool.not_eq_true] at h ⊢
    intro hcut
    apply h
    rw [← Text.append_cut hsep]
    exact mentionsPlaceholder_append_left _ _ hcut
  · rwa [Text.cut_of_not_mem hsep]

theorem mentionsPlaceholder_cut_snd (sep : Char) (h : mentionsPlaceholder cs = false) :
    mentionsPlaceholder (Text.cut sep cs).2 = false := by
  by_cases hsep : sep ∈ cs
  · rw [← Bool.not_eq_true] at h ⊢
    intro hcut
    apply h
    rw [← Text.append_cut hsep, List.append_cons]
    exact mentionsPlaceholder_append_right _ _ hcut
  · rw [Text.cut_of_not_mem hsep]
    rfl

theorem mentionsPlaceholder_split (h : mentionsPlaceholder cs = false) :
    mentionsPlaceholder (Marker.split cs).2 = false := by
  rcases cs with - | ⟨c, cs⟩
  · rfl
  rw [Marker.split]
  rcases Marker.ofChar? c with - | m
  · exact h
  · rw [← Bool.not_eq_true] at h ⊢
    intro hcs
    exact h (mentionsPlaceholder_append_right [c] cs hcs)

/-- A text that names no block is no placeholder. -/
theorem isReference_of_mentionsPlaceholder (h : mentionsPlaceholder cs = false) :
    isReference cs = false := by
  rcases cs with - | ⟨c, - | ⟨d, ds⟩⟩
  · rfl
  · rfl
  · rw [mentionsPlaceholder, Bool.or_eq_false_iff] at h
    rw [isReference, List.all_cons, ← Bool.and_assoc, h.1, Bool.false_and]

end Parts

end Block

/-! ### Looking up a block -/

namespace Shape

open Block

variable {blocks : List Block} {text : List Char}

/-- A text that is no reference stands for no block. -/
theorem result_block?_of_not_isReference (h : isReference text = false) :
    (block? blocks text).result = .ok none := by
  simp [block?, h]

/-- The placeholder of a block stands for that block. -/
theorem result_block?_placeholder {n : Nat} {b : Block} (h : blocks[n]? = some b) :
    (block? blocks (placeholder n)).result = .ok (some b) := by
  simp [block?, isReference_placeholder, digitsValue_placeholder, h]

/-- A reference that is the placeholder of no block is refused. -/
theorem result_block?_of_unknown (hr : isReference text = true)
    (h : ∀ n < blocks.length, placeholder n ≠ text) :
    (block? blocks text).result
      = .error (.defect (.unknownPlaceholder (String.ofList text))) := by
  rw [block?, if_pos hr, List.drop_one]
  rcases e : blocks[Literal.digitsValue text.tail]? with - | b
  · simp [e, reject]
  · have hn := h _ (List.getElem?_eq_some_iff.mp e).1
    simp [e, hn, reject]

/-! ### The node that a tag names -/

variable (blocks) (inner : Block → Outcome Schema)

/-- The block that a tag stands for, resolved, or a plain type. -/
def nodeOf (tag : List Char) : Outcome Schema := do
  match ← block? blocks tag with
  | some b => inner b
  | none => do
    let t ← typeOf tag
    pure (.plain t {})

/-- A value is the node of its tag, with a note on it. -/
theorem resolveValue_eq (text : List Char) :
    resolveValue blocks inner text = (do
      let node ← nodeOf blocks inner (Marker.split (Text.cut ':' text).1).2
      let example? ← exampleOf node.type (Text.cut ':' text).2
      pure (node.withNote
        ⟨example?, some (Marker.requires (Marker.split (Text.cut ':' text).1).1)⟩)) := by
  rw [resolveValue, nodeOf, bind_assoc]
  refine congrArg _ (funext fun found => ?_)
  rcases found with - | b
  · simp only [bind_assoc, pure_bind]
  · rfl

end Shape

end ApiOutline
