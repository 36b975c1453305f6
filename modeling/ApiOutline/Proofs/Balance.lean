/-
ApiOutline/Proofs/Balance.lean

Which outlines are refused for their brackets.

Design.  No stack tells whether the brackets of an outline match.  Its text is rewritten:
one block after the other goes to a table, under a placeholder that stands in its place
from then on, and in the end it is looked whether a bracket is left (`Rewriting`).  The
placeholder is new each time, so no entry of the table is written twice, and there are as
many steps as entries (`ends_iff`).

What the text is measured against is the word of its brackets, which matches if it is a Dyck
word of two kinds (`IsDyck`).  Reading the text from the left sees nothing else than this word
(`openAfter_bracketWord`), and a step changes nothing in what is open.

Main result: `refuses_brackets_iff`.
-/
import ApiOutline.Proofs.Lookup
import ApiOutline.Proofs.Numbering

namespace ApiOutline

open Block

/-! ### Words of brackets -/

/-- The brackets of a text. -/
def bracketWord (cs : List Char) : List Char := cs.filter isBracket

/-- The word is empty, or its first bracket is closed by one of the same kind, with such words
inside and behind. -/
inductive IsDyck : List Char → Prop
  | nil : IsDyck []
  | block (k : BlockKind) {inside behind : List Char} :
      IsDyck inside → IsDyck behind → IsDyck (k.opening :: (inside ++ k.closing :: behind))

theorem bracketWord_append (a b : List Char) :
    bracketWord (a ++ b) = bracketWord a ++ bracketWord b := List.filter_append a b

theorem bracketWord_cons_of_plain {c : Char} (h : isBracket c = false) (cs : List Char) :
    bracketWord (c :: cs) = bracketWord cs := by
  rw [bracketWord, List.filter_cons, h]
  rfl

theorem bracketWord_cons_of_bracket {c : Char} (h : isBracket c = true) (cs : List Char) :
    bracketWord (c :: cs) = c :: bracketWord cs := by
  rw [bracketWord, List.filter_cons, h]
  rfl

/-- Blanks are no brackets. -/
theorem bracketWord_squeeze (cs : List Char) :
    bracketWord (Text.squeeze cs) = bracketWord cs := by
  rw [bracketWord, bracketWord, Text.squeeze, List.filter_filter]
  refine List.filter_congr fun c _ => ?_
  rcases hb : isBracket c with - | -
  · rfl
  · simp only [isBracket, Bool.or_eq_true, decide_eq_true_eq] at hb
    rcases hb with ((rfl | rfl) | rfl) | rfl <;> decide

/-- The other characters of a text open and close nothing. -/
theorem openAfter_bracketWord (kinds : List BlockKind) (cs : List Char) :
    openAfter kinds (bracketWord cs) = openAfter kinds cs := by
  induction cs generalizing kinds with
  | nil => rfl
  | cons c cs ih =>
    rcases hc : isBracket c with - | -
    · rw [bracketWord_cons_of_plain hc, openAfter, openAfterChar_of_plain kinds hc]
      exact ih kinds
    · rw [bracketWord_cons_of_bracket hc, openAfter, openAfter]
      exact congrArg _ (funext ih)

theorem IsDyck.openAfter {w : List Char} (h : IsDyck w) (kinds : List BlockKind) :
    openAfter kinds w = some kinds := by
  induction h generalizing kinds with
  | nil => rfl
  | block k _ _ ihinside ihbehind =>
    rw [ApiOutline.openAfter, openAfterChar_opening, Option.bind_some, openAfter_append,
      ihinside, Option.bind_some, ApiOutline.openAfter, openAfterChar_closing]
    exact ihbehind kinds

theorem Nested.isDyck_text (t : Nested) : IsDyck (bracketWord t.text) := by
  induction t with
  | nil => exact .nil
  | char c plain rest ih =>
    rw [Nested.text, bracketWord_cons_of_plain plain]
    exact ih
  | block k body rest ihbody ihrest =>
    rw [Nested.text, bracketWord_cons_of_bracket k.isBracket_opening, bracketWord_append,
      bracketWord_cons_of_bracket k.isBracket_closing]
    exact .block k ihbody ihrest

/-- A text is that of a tree exactly if its brackets are a Dyck word. -/
theorem exists_nested_iff_isDyck (cs : List Char) :
    (∃ t : Nested, t.text = cs) ↔ IsDyck (bracketWord cs) := by
  constructor
  · rintro ⟨t, rfl⟩
    exact t.isDyck_text
  · intro h
    rw [exists_nested_iff, ← openAfter_bracketWord]
    exact h.openAfter []

instance (cs : List Char) : Decidable (IsDyck (bracketWord cs)) :=
  decidable_of_iff _ ((exists_nested_iff cs).symm.trans (exists_nested_iff_isDyck cs))

example : IsDyck (bracketWord "{a:[i],b:{}}".toList) := by decide
example : ¬ IsDyck (bracketWord "{a:[i}]".toList) := by decide

/-! ### Rewriting -/

/-- A text some of whose blocks have been taken out, and the table of those blocks. -/
structure Rewriting where
  text : List Char
  table : Table (List Char) Block
deriving DecidableEq, Repr

namespace Rewriting

/-- One step: the leftmost block without inner brackets is written under the next placeholder,
which takes its place. -/
def step? (s : Rewriting) : Option Rewriting :=
  (innermost? s.text).map fun f =>
    let token := placeholder s.table.length
    { text := f.before ++ token ++ f.after, table := s.table.set token f.block }

/-- From the first rewriting, the given number of steps lead to the last one, where there is no
further step. -/
inductive Ends : Rewriting → Nat → Rewriting → Prop
  | done {s : Rewriting} : s.step? = none → Ends s 0 s
  | step {s s' t : Rewriting} {n : Nat} : s.step? = some s' → Ends s' n t → Ends s (n + 1) t

/-- A rewriting ends in one way only. -/
theorem Ends.unique {s t u : Rewriting} {m n : Nat} (ht : Ends s m t) (hu : Ends s n u) :
    m = n ∧ t = u := by
  induction ht generalizing n with
  | done hnone =>
    cases hu with
    | done => exact ⟨rfl, rfl⟩
    | step hsome _ => cases hnone.symm.trans hsome
  | step hstep _ ih =>
    cases hu with
    | done hnone => cases hnone.symm.trans hstep
    | step hstep' hrest =>
      obtain rfl := Option.some.inj (hstep.symm.trans hstep')
      obtain ⟨rfl, rfl⟩ := ih hrest
      exact ⟨rfl, rfl⟩

end Rewriting

/-- Blocks under their placeholders. -/
def Block.numbered (blocks : List Block) : Table (List Char) Block :=
  blocks.mapIdx fun n b => (placeholder n, b)

theorem Block.length_numbered (blocks : List Block) : (numbered blocks).length = blocks.length :=
  List.length_mapIdx

/-- The placeholder of the next block is not in the table. -/
theorem Block.placeholder_not_mem_keys (blocks : List Block) :
    placeholder blocks.length ∉ Table.keys (numbered blocks) := by
  intro h
  obtain ⟨e, he, heq⟩ := List.mem_map.mp h
  obtain ⟨n, hn, rfl⟩ := List.mem_mapIdx.mp he
  have hlen : n = blocks.length := placeholder_injective heq
  omega

/-- The next block goes to the end of the table. -/
theorem Block.set_numbered (blocks : List Block) (b : Block) :
    (numbered blocks).set (placeholder blocks.length) b = numbered (blocks ++ [b]) := by
  rw [Table.set_of_not_mem_keys (placeholder_not_mem_keys blocks), numbered, numbered,
    List.mapIdx_concat]

namespace Flat

/-- A flat text, as a rewriting that has come to its end. -/
def rewriting (flat : Flat) : Rewriting := ⟨flat.root, numbered flat.blocks⟩

/-- Each block that is taken out is one step. -/
theorem ends_flattenFrom (taken : List Block) (cs : List Char) :
    ∃ n, Rewriting.Ends ⟨cs, numbered taken⟩ n (flattenFrom taken cs).rewriting ∧
      (flattenFrom taken cs).blocks.length = taken.length + n := by
  induction taken, cs using flattenFrom.induct with
  | case1 taken cs h =>
    have hnone : Rewriting.step? ⟨cs, numbered taken⟩ = none := by rw [Rewriting.step?, h]; rfl
    rw [flattenFrom_of_none h]
    exact ⟨0, .done hnone, rfl⟩
  | case2 taken cs f h ih =>
    obtain ⟨n, hends, hlength⟩ := ih
    have hstep : Rewriting.step? ⟨cs, numbered taken⟩ =
        some ⟨f.before ++ placeholder taken.length ++ f.after, numbered (taken ++ [f.block])⟩ := by
      rw [Rewriting.step?, h, ← set_numbered]
      simp only [Option.map_some, length_numbered]
    rw [flattenFrom_of_some h]
    refine ⟨n + 1, .step hstep hends, ?_⟩
    rw [hlength, List.length_append, List.length_singleton]
    omega

/-- Rewriting a text ends with the flat text, after as many steps as there are blocks. -/
theorem ends_iff (cs : List Char) (n : Nat) (last : Rewriting) :
    Rewriting.Ends ⟨cs, []⟩ n last ↔
      n = last.table.length ∧ last = (ofText cs).rewriting := by
  obtain ⟨m, hends, hlength⟩ := ends_flattenFrom [] cs
  have hm : m = (ofText cs).rewriting.table.length := by
    rw [rewriting, length_numbered, ofText, hlength, List.length_nil, Nat.zero_add]
  constructor
  · intro h
    obtain ⟨rfl, rfl⟩ := hends.unique h
    exact ⟨hm, rfl⟩
  · rintro ⟨rfl, rfl⟩
    rw [← hm]
    exact hends

theorem balanced_ofText_eq_false_iff (cs : List Char) :
    (ofText cs).balanced = false ↔ ¬ IsDyck (bracketWord cs) := by
  rw [← exists_nested_iff_isDyck, ← balanced_ofText_iff, Bool.not_eq_true]

end Flat

/-! ### Resolving -/

namespace Shape

section Outcomes

variable {α β : Type}

/-- The outcome is not that a bracket has no partner. -/
def SparesBrackets (x : Outcome α) : Prop := ∀ left, x.result ≠ .error (.defect (.unbalanced left))

theorem SparesBrackets.pure (a : α) : SparesBrackets (pure a : Outcome α) := by
  rintro left ⟨⟩

theorem SparesBrackets.reject {d : Defect} (hd : ∀ left, d ≠ .unbalanced left) :
    SparesBrackets (reject d : Outcome α) :=
  fun left h => hd left (Stop.defect.inj (Except.error.inj h))

theorem SparesBrackets.bind {x : Outcome α} {f : α → Outcome β} (hx : SparesBrackets x)
    (hf : ∀ a, SparesBrackets (f a)) : SparesBrackets (x >>= f) := by
  intro left h
  rcases Traced.result_bind_eq_error_iff.mp h with h | ⟨a, -, h⟩
  · exact hx left h
  · exact hf a left h

theorem SparesBrackets.foldlM {step : α → List Char → Outcome α}
    (hstep : ∀ a text, SparesBrackets (step a text)) (texts : List (List Char)) (a : α) :
    SparesBrackets (texts.foldlM step a) := by
  induction texts generalizing a with
  | nil => exact .pure a
  | cons text texts ih =>
    rw [List.foldlM_cons]
    exact (hstep a text).bind ih

end Outcomes

section Resolve

variable {blocks : List Block} {inner : Block → Outcome Schema}

theorem sparesBrackets_block? (text : List Char) : SparesBrackets (block? blocks text) := by
  intro left h
  rcases result_block?_cases blocks text with e | ⟨j, b, -, -, e⟩ | ⟨-, token, e⟩
  · cases e.symm.trans h
  · cases e.symm.trans h
  · cases e.symm.trans h

theorem sparesBrackets_typeOf (tag : List Char) : SparesBrackets (typeOf tag) := by
  rw [typeOf]
  split
  · exact .pure _
  · split
    · exact .reject (by rintro left ⟨⟩)
    · rcases TypeName.ofTag? tag with - | t
      · rintro left ⟨⟩
      · exact .pure t

theorem sparesBrackets_exampleOf (type : TypeName) (default : List Char) :
    SparesBrackets (exampleOf type default) := by
  rw [exampleOf]
  split
  · exact .pure _
  · split
    · exact .reject (by rintro left ⟨⟩)
    · rcases Default.read type default with f | v
      · rintro left ⟨⟩
      · rintro left ⟨⟩

variable (hinner : ∀ b, SparesBrackets (inner b))
include hinner

theorem sparesBrackets_resolveValue (text : List Char) :
    SparesBrackets (resolveValue blocks inner text) := by
  rw [resolveValue_eq, nodeOf]
  refine ((sparesBrackets_block? _).bind fun found => ?_).bind fun node =>
    (sparesBrackets_exampleOf _ _).bind fun example? => .pure _
  rcases found with - | b
  · exact (sparesBrackets_typeOf _).bind fun t => .pure _
  · exact hinner b

theorem sparesBrackets_resolveItem (text : List Char) :
    SparesBrackets (resolveItem blocks inner text) := by
  rw [resolveItem]
  refine (sparesBrackets_block? text).bind fun found => ?_
  rcases found with - | b
  · exact sparesBrackets_resolveValue hinner _
  · exact hinner b

theorem sparesBrackets_itemStep (body : List Char) (items : List Schema) (text : List Char) :
    SparesBrackets (itemStep blocks inner body items text) := by
  rw [itemStep]
  split
  · exact .reject (by rintro left ⟨⟩)
  · exact (sparesBrackets_resolveItem hinner text).bind fun item => .pure _

theorem sparesBrackets_propertyStep (properties : Table String Schema) (pair : List Char) :
    SparesBrackets (propertyStep blocks inner properties pair) := by
  rw [propertyStep]
  split
  · exact .reject (by rintro left ⟨⟩)
  · split
    · exact .reject (by rintro left ⟨⟩)
    · exact (sparesBrackets_resolveValue hinner _).bind fun value => .pure _

theorem sparesBrackets_resolveBody (b : Block) : SparesBrackets (resolveBody blocks inner b) := by
  rw [resolveBody]
  rcases b.kind with - | -
  · dsimp only
    split
    · exact .pure _
    · rw [resolveProperties_eq_foldlM]
      exact (SparesBrackets.foldlM (sparesBrackets_propertyStep hinner) _ _).bind fun _ => .pure _
  · dsimp only
    rw [resolveItems_eq_foldlM]
    exact (SparesBrackets.foldlM (sparesBrackets_itemStep hinner b.body) _ _).bind fun _ => .pure _

omit hinner in
/-- Whatever is wrong inside a block, it is not a bracket. -/
theorem sparesBrackets_resolveBlock (depth : Nat) (b : Block) :
    SparesBrackets (resolveBlock blocks depth b) := by
  induction depth generalizing b with
  | zero => rintro left ⟨⟩
  | succ depth ih => exact sparesBrackets_resolveBody ih b

end Resolve

/-- Brackets are looked at once, before anything is resolved. -/
theorem compileSource_eq_unbalanced_iff (source : List Char) (left : String) :
    (compileSource source).result = .error (.defect (.unbalanced left)) ↔
      (Flat.ofText source).balanced = false ∧ left = String.ofList (Flat.ofText source).root := by
  rw [compileSource, resolveFlat]
  rcases hbalanced : (Flat.ofText source).balanced with - | -
  · constructor
    · intro h
      exact ⟨rfl, (Defect.unbalanced.inj (Stop.defect.inj (Except.error.inj h))).symm⟩
    · rintro ⟨-, rfl⟩
      rfl
  · rw [if_pos rfl]
    constructor
    · intro h
      exact absurd h (sparesBrackets_resolveItem (sparesBrackets_resolveBlock _) _ left)
    · rintro ⟨h, -⟩
      cases h

end Shape

/-- **Brackets.**  Rewriting a text ends, in one way and after as many steps as blocks are stored;
a bracket is left exactly if the brackets of the text are no Dyck word.  So an outline is refused
for its brackets, with the text that is left, exactly if they are no Dyck word. -/
theorem refuses_brackets_iff :
    (∀ cs : List Char,
      (∀ n last, Rewriting.Ends ⟨cs, []⟩ n last ↔
        n = last.table.length ∧ last = (Flat.ofText cs).rewriting) ∧
      ((Flat.ofText cs).balanced = false ↔ ¬ IsDyck (bracketWord cs))) ∧
    ∀ text left : String,
      let source := Text.squeeze text.toList
      (Shape.compile text).result =
          .error (.malformed (String.ofList source) (.unbalanced left)) ↔
        ¬ IsDyck (bracketWord text.toList) ∧
          left = String.ofList (Flat.ofText source).root := by
  refine ⟨fun cs => ⟨Flat.ends_iff cs, Flat.balanced_ofText_eq_false_iff cs⟩, ?_⟩
  intro text left source
  rw [← bracketWord_squeeze, ← Flat.balanced_ofText_eq_false_iff,
    ← Shape.compileSource_eq_unbalanced_iff, Shape.result_compile]
  rcases (Shape.compileSource source).result with (d | -) | s
  · constructor
    · intro h
      exact congrArg (Except.error ∘ Shape.Stop.defect)
        (Shape.Fault.malformed.inj (Except.error.inj h)).2
    · intro h
      exact congrArg (Except.error ∘ Shape.Fault.malformed (String.ofList source))
        (Shape.Stop.defect.inj (Except.error.inj h))
  · exact iff_of_false (by rintro ⟨⟩) (by rintro ⟨⟩)
  · exact iff_of_false (by rintro ⟨⟩) (by rintro ⟨⟩)

end ApiOutline
