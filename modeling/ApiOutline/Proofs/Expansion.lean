/-
ApiOutline/Proofs/Expansion.lean

Flat texts, with their blocks put back.

Design.  A placeholder ends where its digits end.  So a text is read for the longest
references in it (`references`), and what it stands for is got by putting the block of each
of them in its place, and so on inside these blocks (`Expands`).  Both can be cut wherever
no digit follows (`references_append`, `Expands.append`, `Expands.exists_append`).

A rewriting that has lost nothing of a text (`Rewriting.Lossless`) keeps this in a step, if
there is no digit behind the block that is taken out: then its placeholder is a reference of
its own, and a new one, and the references inside the block go with it from the text to the
table.  No step brings a digit behind a bracket (`DigitsApart.replace`).

Main result: `flattens_lossless`.
-/
import ApiOutline.Proofs.Balance
import Mathlib.Data.List.Chain

namespace ApiOutline

open Block

/-! ### Digits at the end of a text -/

section Digits

variable {b : List Char}

/-- The digits that a text begins with do not go on in one that begins with none. -/
theorem takeWhile_isDigit_append (h : b.takeWhile Char.isDigit = []) (a : List Char) :
    (a ++ b).takeWhile Char.isDigit = a.takeWhile Char.isDigit := by
  induction a with
  | nil => exact h
  | cons c a ih => rw [List.cons_append, List.takeWhile_cons, List.takeWhile_cons, ih]

theorem dropWhile_isDigit_append (h : b.takeWhile Char.isDigit = []) (a : List Char) :
    (a ++ b).dropWhile Char.isDigit = a.dropWhile Char.isDigit ++ b := by
  have hcut := List.takeWhile_append_dropWhile (p := Char.isDigit) (l := a ++ b)
  rw [takeWhile_isDigit_append h] at hcut
  refine List.append_cancel_left (hcut.trans ?_)
  rw [← List.append_assoc, List.takeWhile_append_dropWhile]

end Digits

/-- No closing bracket is directly followed by a digit. -/
def DigitsApart (cs : List Char) : Prop :=
  cs.IsChain fun c d => BlockKind.closes c = true → d.isDigit = false

instance (cs : List Char) : Decidable (DigitsApart cs) :=
  inferInstanceAs (Decidable (List.IsChain _ cs))

namespace DigitsApart

variable {before after : List Char} {b : Block}

/-- No digit follows a block. -/
theorem takeWhile_eq_nil (h : DigitsApart (before ++ b.text ++ after)) :
    after.takeWhile Char.isDigit = [] := by
  have hend : DigitsApart (b.kind.closing :: after) :=
    List.IsChain.suffix h ⟨before ++ b.kind.opening :: b.body, by simp [Block.text]⟩
  rcases after with - | ⟨d, after⟩
  · rfl
  · have hd : d.isDigit = false := (List.isChain_cons_cons.mp hend).1 (by simp)
    rw [List.takeWhile_cons, hd]
    rfl

/-- A placeholder in the place of a block brings no digit behind a bracket. -/
theorem replace (h : DigitsApart (before ++ b.text ++ after)) (n : Nat) :
    DigitsApart (before ++ placeholder n ++ after) := by
  have hopen : ∀ c ∈ placeholder n, BlockKind.closes c = false := fun c hc =>
    BlockKind.closes_of_isBracket (isBracket_of_mem_placeholder hc)
  have hbefore : DigitsApart before :=
    List.IsChain.prefix h ⟨b.text ++ after, by simp⟩
  have hafter : DigitsApart after := List.IsChain.suffix h ⟨before ++ b.text, rfl⟩
  have htoken : DigitsApart (placeholder n) :=
    List.Pairwise.isChain (List.pairwise_of_forall_mem_list fun c hc _ _ hcloses => by
      rw [hopen c hc] at hcloses
      cases hcloses)
  rw [List.append_assoc]
  refine List.IsChain.append hbefore (List.IsChain.append htoken hafter ?_) ?_
  · intro c hc _ _ hcloses
    rw [hopen c (List.mem_of_getLast? hc)] at hcloses
    cases hcloses
  · intro _ _ d hd _
    obtain rfl : '$' = d := Option.some.inj hd
    rfl

end DigitsApart

/-! ### The references in a text -/

namespace Block

/-- The references in a text: each dollar sign that digits follow, and all of these digits. -/
def references : List Char → List (List Char)
  | [] => []
  | c :: cs =>
    -- no digit is a dollar sign, so going on behind `c` finds what going on behind the digits does
    if c = '$' ∧ cs.takeWhile Char.isDigit ≠ [] then
      (c :: cs.takeWhile Char.isDigit) :: references cs
    else references cs

theorem references_of_not_mem {cs : List Char} (h : '$' ∉ cs) : references cs = [] := by
  induction cs with
  | nil => rfl
  | cons c cs ih =>
    simp only [List.mem_cons, not_or] at h
    rw [references, if_neg fun hc => h.1 hc.1.symm]
    exact ih h.2

/-- In front of a text that begins with no digit, references end. -/
theorem references_append {b : List Char} (h : b.takeWhile Char.isDigit = []) (a : List Char) :
    references (a ++ b) = references a ++ references b := by
  induction a with
  | nil => rfl
  | cons c a ih =>
    rw [List.cons_append, references, references, takeWhile_isDigit_append h, ih]
    split
    · rfl
    · rfl

theorem takeWhile_toDigits (n : Nat) :
    (Nat.toDigits 10 n).takeWhile Char.isDigit = Nat.toDigits 10 n := by
  rw [← List.append_nil (Nat.toDigits 10 n),
    List.takeWhile_append_of_pos fun _ hc => isDigit_of_mem_toDigits hc]
  rfl

/-- A placeholder is one reference. -/
theorem references_placeholder (n : Nat) : references (placeholder n) = [placeholder n] := by
  have hdollar : '$' ∉ Nat.toDigits 10 n := by
    intro h
    cases isDigit_of_mem_toDigits h
  rw [placeholder, references, takeWhile_toDigits, if_pos ⟨rfl, Nat.toDigits_ne_nil⟩,
    references_of_not_mem hdollar]

theorem takeWhile_text_append (b : Block) (after : List Char) :
    (b.text ++ after).takeWhile Char.isDigit = [] := by
  obtain ⟨kind, body⟩ := b
  cases kind <;> rfl

section Around

variable {after : List Char} (h : after.takeWhile Char.isDigit = []) (before : List Char)
include h

/-- The references around a placeholder that no digit follows, and itself. -/
theorem references_around_placeholder (n : Nat) :
    references (before ++ placeholder n ++ after) =
      references before ++ placeholder n :: references after := by
  have htoken : (placeholder n ++ after).takeWhile Char.isDigit = [] := rfl
  rw [List.append_assoc, references_append htoken, references_append h, references_placeholder]
  rfl

/-- The references around a block that no digit follows, and inside it. -/
theorem references_around_block (b : Block) :
    references (before ++ b.text ++ after) =
      references before ++ references b.text ++ references after := by
  rw [List.append_assoc, references_append (takeWhile_text_append b after), references_append h,
    List.append_assoc]

end Around

end Block

/-! ### Putting blocks back -/

/-- The second text is the first one, with the block of each reference in its place, and the blocks
of the references in these blocks in their places, and so on. -/
inductive Expands (table : Table (List Char) Block) : List Char → List Char → Prop
  | nil : Expands table [] []
  | char {c : Char} {cs text : List Char} (plain : ¬(c = '$' ∧ cs.takeWhile Char.isDigit ≠ [])) :
      Expands table cs text → Expands table (c :: cs) (c :: text)
  | reference {cs inside behind : List Char} {b : Block}
      (digits : cs.takeWhile Char.isDigit ≠ [])
      (found : table.get? ('$' :: cs.takeWhile Char.isDigit) = some b) :
      Expands table b.text inside → Expands table (cs.dropWhile Char.isDigit) behind →
        Expands table ('$' :: cs) (inside ++ behind)

namespace Expands

variable {table table' : Table (List Char) Block} {a b cs text x y : List Char}

/-- There is one way only to put all blocks back. -/
theorem unique (h : Expands table cs x) (h' : Expands table cs y) : x = y := by
  induction h generalizing y with
  | nil =>
    cases h'
    rfl
  | char plain _ ih =>
    cases h' with
    | char _ hrest => rw [ih hrest]
    | reference digits _ _ _ => exact absurd ⟨rfl, digits⟩ plain
  | reference digits found _ _ ihinside ihbehind =>
    cases h' with
    | char plain _ => exact absurd ⟨rfl, digits⟩ plain
    | reference _ found' hinside hbehind =>
      obtain rfl := Option.some.inj (found.symm.trans found')
      rw [ihinside hinside, ihbehind hbehind]

theorem iff_eq (h : Expands table cs x) (text : List Char) : Expands table cs text ↔ text = x := by
  constructor
  · intro h'
    exact h'.unique h
  · rintro rfl
    exact h

/-- More blocks in the table change nothing. -/
theorem mono (hsub : ∀ token b, table.get? token = some b → table'.get? token = some b)
    (h : Expands table cs text) : Expands table' cs text := by
  induction h with
  | nil => exact .nil
  | char plain _ ih => exact .char plain ih
  | reference digits found _ _ ihinside ihbehind =>
    exact .reference digits (hsub _ _ found) ihinside ihbehind

/-- A text without dollar signs stands for itself. -/
theorem of_not_mem (h : '$' ∉ cs) : Expands table cs cs := by
  induction cs with
  | nil => exact .nil
  | cons c cs ih =>
    simp only [List.mem_cons, not_or] at h
    exact .char (fun hc => h.1 hc.1.symm) (ih h.2)

theorem append (hb : b.takeWhile Char.isDigit = []) (h : Expands table a x)
    (h' : Expands table b y) : Expands table (a ++ b) (x ++ y) := by
  induction h with
  | nil => exact h'
  | char plain _ ih =>
    rw [← takeWhile_isDigit_append hb] at plain
    exact .char plain ih
  | reference digits found hinside _ _ ihbehind =>
    rw [← takeWhile_isDigit_append hb] at digits found
    rw [← dropWhile_isDigit_append hb] at ihbehind
    rw [List.append_assoc]
    exact .reference digits found hinside ihbehind

/-- In front of a text that begins with no digit, an expansion can be cut. -/
theorem exists_append (hb : b.takeWhile Char.isDigit = []) (h : Expands table (a ++ b) text) :
    ∃ x y, Expands table a x ∧ Expands table b y ∧ x ++ y = text := by
  generalize hcs : a ++ b = cs at h
  induction h generalizing a with
  | nil =>
    obtain ⟨rfl, rfl⟩ := List.append_eq_nil_iff.mp hcs
    exact ⟨[], [], .nil, .nil, rfl⟩
  | @char c cs text plain hrest ih =>
    rcases a with - | ⟨d, a⟩
    · subst hcs
      exact ⟨[], _, .nil, .char plain hrest, rfl⟩
    · rw [List.cons_append] at hcs
      obtain ⟨rfl, rfl⟩ := List.cons.inj hcs
      obtain ⟨x, y, hx, hy, rfl⟩ := ih rfl
      rw [takeWhile_isDigit_append hb] at plain
      exact ⟨d :: x, y, .char plain hx, hy, rfl⟩
  | @reference cs inside behind block digits found hinside hbehind _ ih =>
    rcases a with - | ⟨d, a⟩
    · subst hcs
      exact ⟨[], _, .nil, .reference digits found hinside hbehind, rfl⟩
    · -- the digits of the reference end in the first text
      rw [List.cons_append] at hcs
      obtain ⟨rfl, rfl⟩ := List.cons.inj hcs
      obtain ⟨x, y, hx, hy, rfl⟩ := ih (dropWhile_isDigit_append hb a).symm
      rw [takeWhile_isDigit_append hb] at digits found
      exact ⟨inside ++ x, y, .reference digits found hinside hx, hy, by simp⟩

/-- In the place of a placeholder by itself its block is put back. -/
theorem of_placeholder {n : Nat} {block : Block} (found : table.get? (placeholder n) = some block)
    (h : Expands table block.text text) : Expands table (placeholder n) text := by
  have hdigits := takeWhile_toDigits n
  have hbehind : (Nat.toDigits 10 n).dropWhile Char.isDigit = [] := by
    have hcut := List.takeWhile_append_dropWhile (p := Char.isDigit) (l := Nat.toDigits 10 n)
    rw [hdigits] at hcut
    exact List.self_eq_append_right.mp hcut.symm
  have hne : (Nat.toDigits 10 n).takeWhile Char.isDigit ≠ [] := by
    rw [hdigits]
    exact Nat.toDigits_ne_nil
  have hfound : table.get? ('$' :: (Nat.toDigits 10 n).takeWhile Char.isDigit) = some block := by
    rw [hdigits]
    exact found
  have hnil : Expands table ((Nat.toDigits 10 n).dropWhile Char.isDigit) [] := by
    rw [hbehind]
    exact .nil
  have hall := Expands.reference hne hfound h hnil
  rwa [List.append_nil] at hall

/-- A block that no digit follows can be taken out under a new placeholder. -/
theorem replace {before after : List Char} {block : Block} {n : Nat}
    (hafter : after.takeWhile Char.isDigit = []) (hnew : placeholder n ∉ table.keys)
    (h : Expands table (before ++ block.text ++ after) text) :
    Expands (table.set (placeholder n) block) (before ++ placeholder n ++ after) text := by
  have hsub : ∀ token c, table.get? token = some c →
      (table.set (placeholder n) block).get? token = some c := by
    intro token c hc
    rw [Table.get?_set, if_neg, hc]
    rintro rfl
    rw [(Table.get?_eq_none_iff _ _).mpr hnew] at hc
    cases hc
  have hset := h.mono hsub
  -- the expansion is cut on both sides of the block, and its middle part is what the placeholder
  -- stands for
  rw [List.append_assoc] at hset ⊢
  obtain ⟨x, rest, hx, hrest, rfl⟩ := hset.exists_append (takeWhile_text_append block after)
  obtain ⟨y, z, hy, hz, rfl⟩ := hrest.exists_append hafter
  have hput := of_placeholder (Table.get?_set_self table (placeholder n) block) hy
  exact hx.append rfl (hput.append hafter hz)

end Expands

/-! ### Rewriting without loss -/

namespace Rewriting

/-- The references in the text that is left, and in the blocks of the table. -/
def references (s : Rewriting) : List (List Char) :=
  Block.references s.text ++ s.table.flatMap fun e => Block.references e.2.text

/-- If a block that no digit follows is taken out under a new placeholder, its references go with
it from the text to the table, and the placeholder is one more. -/
theorem perm_references_replace {s : Rewriting} {before after : List Char} {b : Block} {n : Nat}
    (htext : s.text = before ++ b.text ++ after) (hafter : after.takeWhile Char.isDigit = [])
    (hnew : placeholder n ∉ s.table.keys) :
    (references ⟨before ++ placeholder n ++ after, s.table.set (placeholder n) b⟩).Perm
      (s.references ++ [placeholder n]) := by
  have htable : s.table.set (placeholder n) b = s.table ++ [(placeholder n, b)] :=
    Table.set_of_not_mem_keys hnew b
  rw [references, references, htext, htable, references_around_placeholder hafter,
    references_around_block hafter, List.flatMap_append, List.flatMap_singleton]
  refine List.perm_iff_count.mpr fun r => ?_
  simp only [List.count_append, List.count_cons, List.count_nil]
  omega

/-- After the given number of steps nothing of the source has been lost. -/
structure Lossless (source : List Char) (n : Nat) (s : Rewriting) : Prop where
  /-- the keys are the first placeholders, in order -/
  keys : s.table.keys = (List.range n).map placeholder
  /-- two brackets of the source are gone for each block -/
  pairs : brackets s.text + 2 * n = brackets source
  /-- no block has a bracket inside, and the references in it are to blocks before it -/
  stored : ∀ k b, s.table.get? (placeholder k) = some b →
    (∀ c ∈ b.body, isBracket c = false) ∧
      ∀ r ∈ Block.references b.text, ∃ j < k, r = placeholder j
  /-- the references are the keys, and each comes once -/
  once : s.references.Perm ((List.range n).map placeholder)
  /-- with the blocks put back the text is the source, and they can be put back in no other way -/
  restores : ∀ text, Expands s.table s.text text ↔ text = source

/-- What a step does. -/
theorem exists_of_step? {s s' : Rewriting} (h : s.step? = some s') :
    ∃ f, innermost? s.text = some f ∧
      s' = ⟨f.before ++ placeholder s.table.length ++ f.after,
        s.table.set (placeholder s.table.length) f.block⟩ := by
  obtain ⟨f, hf, rfl⟩ := Option.map_eq_some_iff.mp h
  exact ⟨f, hf, rfl⟩

namespace Lossless

variable {source : List Char} {n : Nat} {s s' : Rewriting}

theorem start (hdollar : '$' ∉ source) : Lossless source 0 ⟨source, []⟩ where
  keys := rfl
  pairs := rfl
  stored := by
    rintro k b ⟨⟩
  once := by
    rw [references, references_of_not_mem hdollar]
    rfl
  restores := (Expands.of_not_mem hdollar).iff_eq

theorem length_table (h : Lossless source n s) : s.table.length = n := by
  have hlength := congrArg List.length h.keys
  simpa [Table.keys] using hlength

/-- The next placeholder is new. -/
theorem not_mem_keys (h : Lossless source n s) : placeholder n ∉ s.table.keys := by
  intro hmem
  rw [h.keys] at hmem
  obtain ⟨j, hj, heq⟩ := List.mem_map.mp hmem
  obtain rfl := placeholder_injective heq
  exact Nat.lt_irrefl _ (List.mem_range.mp hj)

/-- A step loses nothing, if no digit follows the block that it takes out. -/
theorem step (h : Lossless source n s) (hapart : DigitsApart s.text) (hstep : s.step? = some s') :
    Lossless source (n + 1) s' ∧ DigitsApart s'.text := by
  obtain ⟨f, hf, rfl⟩ := exists_of_step? hstep
  obtain ⟨htext, hplain⟩ := innermost?_eq_some hf
  rw [htext] at hapart
  have hafter := hapart.takeWhile_eq_nil
  have hnew := h.not_mem_keys
  have hrange : (List.range (n + 1)).map placeholder =
      (List.range n).map placeholder ++ [placeholder n] := by
    rw [List.range_succ, List.map_append]
    rfl
  rw [h.length_table]
  refine ⟨?_, hapart.replace n⟩
  constructor
  case keys =>
    rw [Table.keys_set, if_neg hnew, h.keys, hrange]
  case pairs =>
    have hpair := Flat.brackets_replace hf n
    have hpairs := h.pairs
    dsimp only
    omega
  case stored =>
    intro k b hk
    rw [Table.get?_set] at hk
    split at hk
    · -- the block that was taken out: its references stood in the text, so they are keys
      rename_i heq
      obtain rfl := placeholder_injective heq
      obtain rfl := Option.some.inj hk
      refine ⟨hplain, fun r hr => ?_⟩
      have hmem : r ∈ s.references := by
        rw [references, htext, references_around_block hafter]
        simp [hr]
      obtain ⟨j, hj, rfl⟩ := List.mem_map.mp (h.once.mem_iff.mp hmem)
      exact ⟨j, List.mem_range.mp hj, rfl⟩
    · exact h.stored k b hk
  case once =>
    rw [hrange]
    exact (perm_references_replace htext hafter hnew).trans (h.once.append_right _)
  case restores =>
    have hold := (h.restores source).mpr rfl
    rw [htext] at hold
    exact (hold.replace hafter hnew).iff_eq

/-- A run loses nothing, if the text that it starts from has no digit behind a closing bracket. -/
theorem run {t : Rewriting} {m : Nat} (h : Lossless source n s) (hapart : DigitsApart s.text)
    (hends : Ends s m t) : Lossless source (n + m) t := by
  -- each step hands on that the digits are apart, which is what the next one needs
  induction hends generalizing n with
  | done _ => exact h
  | @step s s' t m hstep _ ih =>
    obtain ⟨hnext, hapart'⟩ := h.step hapart hstep
    have hlast := ih hnext hapart'
    rwa [Nat.add_right_comm] at hlast

end Lossless

end Rewriting

/-- **Flattening.**  From a text without dollar signs whose brackets match, with no digit behind a
closing one, as many blocks come out as there are pairs of brackets; no bracket is left, and
nothing is lost. -/
theorem flattens_lossless {source : List Char} (hdollar : '$' ∉ source)
    (hnested : IsDyck (bracketWord source)) (hapart : DigitsApart source) :
    let flat := Flat.ofText source
    ∃ n, brackets source = 2 * n ∧ Rewriting.Ends ⟨source, []⟩ n flat.rewriting ∧
      flat.balanced = true ∧ flat.rewriting.Lossless source n := by
  intro flat
  -- there are as many blocks as steps, and each took a pair of brackets away until none was left
  obtain ⟨n, hends, -⟩ := Flat.ends_flattenFrom [] source
  have hlossless := (Rewriting.Lossless.start hdollar).run hapart hends
  rw [Nat.zero_add] at hlossless
  have hbalanced : flat.balanced = true :=
    (Flat.balanced_ofText_iff source).mpr ((exists_nested_iff_isDyck source).mpr hnested)
  have hnone : brackets flat.root = 0 := List.countP_eq_zero.mpr fun c hc => by
    simp [Flat.balanced_iff.mp hbalanced c hc]
  have hpairs : brackets flat.root + 2 * n = brackets source := hlossless.pairs
  exact ⟨n, by omega, hends, hbalanced, hlossless⟩

/-- Thirteen blocks, the last three of which have placeholders with two digits. -/
theorem flattens_thirteen_blocks :
    let source := "[{},{},{},{},{},{},{},{},{},{b:[]},{}s0]".toList
    ('$' ∉ source ∧ IsDyck (bracketWord source) ∧ DigitsApart source) ∧
      Rewriting.Ends ⟨source, []⟩ 13 (Flat.ofText source).rewriting ∧
        (Flat.ofText source).balanced = true ∧
          (Flat.ofText source).rewriting.Lossless source 13 := by
  intro source
  have hsource : '$' ∉ source ∧ IsDyck (bracketWord source) ∧ DigitsApart source := by decide
  obtain ⟨n, hpairs, hflat⟩ := flattens_lossless hsource.1 hsource.2.1 hsource.2.2
  have hbrackets : brackets source = 26 := by decide
  obtain rfl : n = 13 := by omega
  exact ⟨hsource, hflat⟩

/-- With a digit behind it, the placeholder of a block is part of a reference to none. -/
example : (Flat.ofText "[{}0]".toList).rewriting.references = [['$', '1'], ['$', '0', '0']] := by
  cbv

end ApiOutline
