/-
ApiOutline/Proofs/Numbering.lean

What taking the blocks out of a nested text leaves.

Design.  A block is complete at its closing bracket, and the first closing
bracket of a text ends the leftmost block without inner brackets.  So the blocks
come out in the order of their closing brackets: inner ones before the outer
one, and all before what follows.  `flatText` and `blocks` compute both parts of
the outcome by recursion on the tree, `n` being the number of blocks that came
out before.

Main results: `ofText_text` says that this is what comes out, and
`balanced_ofText_iff` that the brackets count as matched exactly for the texts
of trees.
-/
import ApiOutline.Proofs.Nesting

namespace ApiOutline

open Block

/-! ### The next block to come out -/

namespace Block

/-- An opening bracket, characters without brackets and the closing bracket are a block. -/
theorem leading?_text {b : Block} (h : ∀ c ∈ b.body, isBracket c = false) (rest : List Char) :
    leading? b.kind.opening (b.body ++ b.kind.closing :: rest) = some (b, rest) := by
  have hp : ∀ c ∈ b.body, (!isBracket c) = true := fun c hc => by simp [h c hc]
  unfold leading?
  rw [BlockKind.ofOpening?_opening]
  simp [List.dropWhile_append_of_pos hp, List.takeWhile_append_of_pos hp]

/-- A bracket that another opening bracket follows, with no closing one between, starts no
block without inner brackets. -/
theorem leading?_eq_none {c : Char} {a : List Char} {k : BlockKind} {rest : List Char}
    (ha : ∀ d ∈ a, BlockKind.closes d = false) :
    leading? c (a ++ k.opening :: rest) = none := by
  unfold leading?
  rcases BlockKind.ofOpening? c with - | l
  · rfl
  · -- the first bracket from here on opens a block: it is in `a`, or it is the one after `a`
    have key : ∃ m cs, (a ++ k.opening :: rest).dropWhile (fun d => !isBracket d)
        = BlockKind.opening m :: cs := by
      induction a with
      | nil => exact ⟨k, rest, by simp⟩
      | cons d a ih =>
        rw [List.cons_append, List.dropWhile_cons]
        rcases hd : isBracket d with - | -
        · simpa [hd] using ih fun e he => ha e (by simp [he])
        · have hm := BlockKind.isBracket_eq d
          rw [hd, ha d (by simp), Bool.or_false] at hm
          obtain ⟨m, hm⟩ := Option.isSome_iff_exists.mp hm.symm
          exact ⟨m, a ++ k.opening :: rest, by
            simp [BlockKind.opening_of_ofOpening? hm]⟩
    obtain ⟨m, cs, e⟩ := key
    have hne : m.opening ≠ l.closing := by cases m <;> cases l <;> decide
    simp [e, hne]

/-- Where no block was closed before, the first block without inner brackets is the next to
come out. -/
theorem innermost?_append {a : List Char} (ha : ∀ d ∈ a, BlockKind.closes d = false) {b : Block}
    (hb : ∀ c ∈ b.body, isBracket c = false) (rest : List Char) :
    innermost? (a ++ b.text ++ rest) = some ⟨a, b, rest⟩ := by
  have e : b.text ++ rest = b.kind.opening :: (b.body ++ b.kind.closing :: rest) := by
    simp [text]
  rw [List.append_assoc, e]
  induction a with
  | nil => simp [innermost?, leading?_text hb]
  | cons c a ih =>
    have ha' : ∀ d ∈ a, BlockKind.closes d = false := fun d hd => ha d (by simp [hd])
    simp [innermost?, leading?_eq_none ha', ih ha']

theorem innermost?_eq_none {cs : List Char} (h : ∀ c ∈ cs, isBracket c = false) :
    innermost? cs = none := by
  induction cs with
  | nil => rfl
  | cons c cs ih =>
    have hc : BlockKind.ofOpening? c = none := BlockKind.ofOpening?_of_isBracket (h c (by simp))
    simp [innermost?, leading?, hc, ih fun d hd => h d (by simp [hd])]

end Block

/-! ### The outcome, by recursion on the tree -/

namespace Nested

/-- The text with placeholders in the place of its blocks, `n` blocks having come out before. -/
def flatText (n : Nat) : Nested → List Char
  | nil => []
  | char c _ rest => c :: rest.flatText n
  | block _ body rest =>
    placeholder (n + body.size) ++ rest.flatText (n + body.size + 1)

/-- The blocks in the order in which they come out. -/
def blocks (n : Nat) : Nested → List Block
  | nil => []
  | char _ _ rest => rest.blocks n
  | block k body rest =>
    body.blocks n ++ ⟨k, body.flatText n⟩ :: rest.blocks (n + body.size + 1)

@[simp] theorem length_blocks (n : Nat) (t : Nested) : (t.blocks n).length = t.size := by
  induction t generalizing n with
  | nil => rfl
  | char c plain rest ih => exact ih n
  | block k body rest ihb ihr => simp [blocks, size, ihb, ihr]; omega

theorem isBracket_of_mem_flatText {n : Nat} {t : Nested} {c : Char} (h : c ∈ t.flatText n) :
    isBracket c = false := by
  induction t generalizing n with
  | nil => cases h
  | char d plain rest ih =>
    rcases List.mem_cons.mp h with rfl | h
    · exact plain
    · exact ih h
  | block k body rest _ ihr =>
    rcases List.mem_append.mp h with h | h
    · exact isBracket_of_mem_placeholder h
    · exact ihr h

end Nested

namespace Flat

theorem flattenFrom_of_none {cs : List Char} (h : innermost? cs = none) (taken : List Block) :
    flattenFrom taken cs = ⟨cs, taken⟩ := by
  rw [flattenFrom.eq_def]
  split
  · rfl
  · rename_i f hf
    rw [h] at hf
    cases hf

theorem flattenFrom_of_some {cs : List Char} {f : Found} (h : innermost? cs = some f)
    (taken : List Block) :
    flattenFrom taken cs
      = flattenFrom (taken ++ [f.block]) (f.before ++ placeholder taken.length ++ f.after) := by
  rw [flattenFrom.eq_def]
  split
  · rename_i hn
    rw [hn] at h
    cases h
  · rename_i g hg
    rw [hg] at h
    obtain rfl := Option.some.inj h
    rfl

/-- One block comes out. -/
theorem flattenFrom_step {a : List Char} (ha : ∀ d ∈ a, BlockKind.closes d = false) {b : Block}
    (hb : ∀ c ∈ b.body, isBracket c = false) (rest : List Char) (taken : List Block) :
    flattenFrom taken (a ++ b.text ++ rest)
      = flattenFrom (taken ++ [b]) (a ++ placeholder taken.length ++ rest) :=
  flattenFrom_of_some (innermost?_append ha hb rest) taken

theorem flattenFrom_of_plain {cs : List Char} (h : ∀ c ∈ cs, isBracket c = false)
    (taken : List Block) : flattenFrom taken cs = ⟨cs, taken⟩ :=
  flattenFrom_of_none (innermost?_eq_none h) taken

/-- The blocks of a tree come out of its text where no block was closed before. -/
theorem flattenFrom_text (t : Nested) (taken : List Block) {a : List Char}
    (ha : ∀ d ∈ a, BlockKind.closes d = false) (rest : List Char) :
    flattenFrom taken (a ++ t.text ++ rest)
      = flattenFrom (taken ++ t.blocks taken.length)
          (a ++ t.flatText taken.length ++ rest) := by
  induction t generalizing taken a rest with
  | nil => simp [Nested.text, Nested.blocks, Nested.flatText]
  | char c plain r ih =>
    -- the character joins what stands in front
    have hc : ∀ d ∈ [c], BlockKind.closes d = false :=
      List.forall_mem_singleton.mpr (BlockKind.closes_of_isBracket plain)
    have ha' := List.forall_mem_append.mpr ⟨ha, hc⟩
    simpa [Nested.text, Nested.blocks, Nested.flatText] using ih taken ha' rest
  | block k body r ihb ihr =>
    -- first the blocks of the body come out, then the block itself, then those behind it; what
    -- stands in front closes nothing at any of these times
    have hk : ∀ d ∈ [k.opening], BlockKind.closes d = false :=
      List.forall_mem_singleton.mpr (BlockKind.closes_opening k)
    have hopen := List.forall_mem_append.mpr ⟨ha, hk⟩
    let n := taken.length
    let b : Block := ⟨k, body.flatText n⟩
    have hb : ∀ c ∈ b.body, isBracket c = false := fun c hc =>
      Nested.isBracket_of_mem_flatText hc
    have hp : ∀ d ∈ placeholder (n + body.size), BlockKind.closes d = false := fun d hd =>
      BlockKind.closes_of_isBracket (isBracket_of_mem_placeholder hd)
    have ha' := List.forall_mem_append.mpr ⟨ha, hp⟩
    have hlen : (taken ++ body.blocks n).length = n + body.size := by simp [n]
    have hlen' : (taken ++ body.blocks n ++ [b]).length = n + body.size + 1 := by simp [n]; omega
    calc flattenFrom taken (a ++ (Nested.block k body r).text ++ rest)
        = flattenFrom taken
            ((a ++ [k.opening]) ++ body.text ++ (k.closing :: (r.text ++ rest))) := by
          simp [Nested.text]
      _ = flattenFrom (taken ++ body.blocks n) (a ++ b.text ++ (r.text ++ rest)) := by
          rw [ihb taken hopen]
          simp [Block.text, b, n]
      _ = flattenFrom (taken ++ body.blocks n ++ [b])
            ((a ++ placeholder (n + body.size)) ++ r.text ++ rest) := by
          rw [flattenFrom_step ha hb, hlen]
          simp
      _ = flattenFrom (taken ++ (Nested.block k body r).blocks n)
            (a ++ (Nested.block k body r).flatText n ++ rest) := by
          rw [ihr (taken ++ body.blocks n ++ [b]) ha', hlen']
          simp [Nested.blocks, Nested.flatText, b]

/-- **Numbering.**  The blocks of a tree come out of its text in the order of their closing
brackets. -/
theorem ofText_text (t : Nested) : ofText t.text = ⟨t.flatText 0, t.blocks 0⟩ := by
  have h := flattenFrom_text t [] (a := []) (by simp) []
  simp only [List.nil_append, List.append_nil, List.length_nil] at h
  rw [ofText, h]
  exact flattenFrom_of_plain (fun c hc => Nested.isBracket_of_mem_flatText hc) _

/-! ### Brackets that match -/

/-- A block without inner brackets, and its placeholder, leave open what was open. -/
theorem openAfter_block {b : Block} (hb : ∀ c ∈ b.body, isBracket c = false)
    (kinds : List BlockKind) : openAfter kinds b.text = some kinds := by
  rw [Block.text, openAfter, openAfterChar_opening, Option.bind_some, openAfter_append,
    openAfter_of_plain _ hb, Option.bind_some, openAfter, openAfterChar_closing]
  rfl

theorem openAfter_placeholder (kinds : List BlockKind) (n : Nat) :
    openAfter kinds (placeholder n) = some kinds :=
  openAfter_of_plain kinds fun _ hc => isBracket_of_mem_placeholder hc

/-- Taking the blocks out changes nothing in what is open after a text. -/
theorem openAfter_flattenFrom (kinds : List BlockKind) (taken : List Block) (cs : List Char) :
    openAfter kinds (flattenFrom taken cs).root = openAfter kinds cs := by
  induction taken, cs using flattenFrom.induct with
  | case1 taken cs h => rw [flattenFrom_of_none h]
  | case2 taken cs f h ih =>
    obtain ⟨e, hb⟩ := innermost?_eq_some h
    rw [flattenFrom_of_some h, ih, e]
    simp only [openAfter_append, openAfter_block hb, openAfter_placeholder]

theorem balanced_iff {flat : Flat} :
    flat.balanced = true ↔ ∀ c ∈ flat.root, isBracket c = false := by
  simp [balanced]

/-- **Balance.**  No bracket is left exactly when the text is that of a tree. -/
theorem balanced_ofText_iff (cs : List Char) :
    (ofText cs).balanced = true ↔ ∃ t : Nested, t.text = cs := by
  rw [balanced_iff]
  constructor
  · intro h
    -- the text that is left has the same blocks open as the text, that is none
    rw [exists_nested_iff, ← openAfter_flattenFrom [] [] cs]
    exact openAfter_of_plain [] h
  · rintro ⟨t, rfl⟩ c hc
    rw [ofText_text] at hc
    exact Nested.isBracket_of_mem_flatText hc

end Flat

end ApiOutline
