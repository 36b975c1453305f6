/-
ApiOutline/Proofs/Reentry.lean

When the look-ups of a run come back to a block that is still being resolved.

Design.  At each moment of a run some look-ups are open, each made by the block
of the one before it (`OpenLookups`).  A run re-enters a block if the look-up
that is made last is open already.

Depth is counted down from the number of blocks.  So a run that uses it up has
more open look-ups than there are blocks, and re-enters one of them; and a
block that is re-entered finishes with no depth, because it would have to finish
with less.

Main results: a run is circular exactly when it re-enters a block
(`circular_resolveFlat_iff`), and so compiling ends with a schema or a complaint
exactly when it does not; in a text without dollar signs that needs a block that
is captured by the digits behind it (`compile_stops_iff`).
-/
import ApiOutline.Proofs.Lookup
import ApiOutline.Proofs.Resolution
import Mathlib.Data.List.Perm.Subperm

namespace ApiOutline.Shape

open Block

/-! ### Look-ups -/

section Calls

variable {blocks : List Block}

/-- With some depth, resolving the block looks block `j` up. -/
def Calls (blocks : List Block) (b : Block) (j : Nat) : Prop :=
  ∃ depth, LooksUp blocks (resolveBlock blocks depth) b j

/-- The block with the number is resolved with the depth, and the outcome is not circular. -/
def Finishes (blocks : List Block) (depth j : Nat) : Prop :=
  ∃ b, blocks[j]? = some b ∧ ¬Circular (resolveBlock blocks depth b)

theorem below_or_below (blocks : List Block) (depth depth' : Nat) :
    (∀ b, Below (resolveBlock blocks depth b) (resolveBlock blocks depth' b)) ∨
      ∀ b, Below (resolveBlock blocks depth' b) (resolveBlock blocks depth b) := by
  rcases Nat.le_total depth depth' with h | h
  · exact .inl (below_resolveBlock h)
  · exact .inr (below_resolveBlock h)

theorem circular_foldlM_append {α : Type} {step : α → List Char → Outcome α}
    {before : List (List Char)} {a : α} (h : Circular (before.foldlM step a))
    (rest : List (List Char)) : Circular ((before ++ rest).foldlM step a) := by
  rw [List.foldlM_append]
  exact circular_bind_iff.mpr (.inl h)

/-- Of two runs over the same texts that differ in depth, one gives what the other gives, unless
it is circular. -/
theorem ok_or_circular {α : Type} {x y : Outcome α} (h : Below x y ∨ Below y x) {a : α}
    (hy : y.result = .ok a) : x.result = .ok a ∨ Circular x := by
  rcases h with h | h
  · rcases h with h | h
    · exact .inr h
    · exact .inl (h.trans hy)
  · exact .inl (h.ok hy)

/-- A block that is looked up with some depth is looked up with any other, unless the run is
circular before it comes to that. -/
theorem LooksUp.of_calls {b : Block} {j : Nat} (h : Calls blocks b j) (depth : Nat) :
    LooksUp blocks (resolveBlock blocks depth) b j ∨
      Circular (resolveBody blocks (resolveBlock blocks depth) b) := by
  obtain ⟨depth', before, text, rest, hp, h⟩ := h
  have hbelow := below_or_below blocks depth depth'
  obtain ⟨kind, body⟩ := b
  cases kind with
  | array =>
    obtain ⟨⟨items, hi⟩, ht⟩ := h
    have hrun := ok_or_circular
      (hbelow.imp (fun hb => below_foldlM (below_itemStep hb body) before [])
        fun hb => below_foldlM (below_itemStep hb body) before []) hi
    rcases hrun with hi | hc
    · exact .inl ⟨before, text, rest, hp, ⟨items, hi⟩, ht⟩
    · right
      rw [circular_resolveBody_array_iff, hp]
      exact circular_foldlM_append hc _
  | object =>
    obtain ⟨⟨properties, hi⟩, hn⟩ := h
    have hrun := ok_or_circular
      (hbelow.imp (fun hb => below_foldlM (below_propertyStep hb) before [])
        fun hb => below_foldlM (below_propertyStep hb) before []) hi
    rcases hrun with hi | hc
    · exact .inl ⟨before, text, rest, hp, ⟨properties, hi⟩, hn⟩
    · right
      rw [circular_resolveBody_object_iff, hp]
      exact circular_foldlM_append hc _

/-- A block that finishes leaves less depth to a block that it looks up, which finishes too. -/
theorem Finishes.of_calls {i j depth : Nat} {b : Block} (hi : blocks[i]? = some b)
    (h : Calls blocks b j) (hj : j < blocks.length) (hf : Finishes blocks depth i) :
    ∃ depth' < depth, Finishes blocks depth' j := by
  obtain ⟨b', hb', hf⟩ := hf
  rw [hi] at hb'
  obtain rfl := Option.some.inj hb'
  cases depth with
  | zero => exact absurd rfl hf
  | succ depth =>
    refine ⟨depth, Nat.lt_succ_self depth, blocks[j], List.getElem?_eq_getElem hj, ?_⟩
    -- if `j` did not finish, neither would the block that looks it up
    intro hc
    apply hf
    rcases LooksUp.of_calls h depth with hl | hl
    · exact circular_resolveBody_iff.mpr ⟨j, _, List.getElem?_eq_getElem hj, hl, hc⟩
    · exact hl

end Calls

/-! ### Open look-ups -/

/-- Look-ups that are open at some moment of a run, the latest first. -/
inductive OpenLookups (flat : Flat) : List Nat → Prop
  | root {j : Nat} (balanced : flat.balanced = true) (lt : j < flat.blocks.length)
      (named : placeholder j = valueTag (itemValue flat.root)) : OpenLookups flat [j]
  | inner {i j : Nat} {stack : List Nat} {b : Block} (outer : OpenLookups flat (i :: stack))
      (getElem : flat.blocks[i]? = some b) (lt : j < flat.blocks.length)
      (calls : Calls flat.blocks b j) : OpenLookups flat (j :: i :: stack)

/-- A block is looked up while it is still being resolved. -/
def Reenters (flat : Flat) : Prop := ∃ j stack, OpenLookups flat (j :: stack) ∧ j ∈ stack

namespace OpenLookups

variable {flat : Flat}

theorem lt_of_mem {stack : List Nat} (h : OpenLookups flat stack) :
    ∀ j ∈ stack, j < flat.blocks.length := by
  induction h with
  | root balanced lt named =>
    intro j hj
    obtain rfl := List.mem_singleton.mp hj
    exact lt
  | inner outer getElem lt calls ih =>
    intro j hj
    rcases List.mem_cons.mp hj with rfl | hj
    · exact lt
    · exact ih j hj

/-- If a number comes twice among the open look-ups, there was a re-entry. -/
theorem reenters_of_not_nodup {stack : List Nat} (h : OpenLookups flat stack)
    (hn : ¬stack.Nodup) : Reenters flat := by
  induction h with
  | root balanced lt named => exact absurd (by simp) hn
  | @inner i j stack b outer getElem lt calls ih =>
    by_cases hj : j ∈ i :: stack
    · exact ⟨j, _, .inner outer getElem lt calls, hj⟩
    · exact ih fun hs => hn (List.nodup_cons.mpr ⟨hj, hs⟩)

/-- More open look-ups than blocks are not possible without a re-entry. -/
theorem reenters_of_length {stack : List Nat} (h : OpenLookups flat stack)
    (hl : flat.blocks.length < stack.length) : Reenters flat := by
  refine h.reenters_of_not_nodup fun hn => ?_
  -- different numbers below the number of blocks: there are no more of them than blocks
  have hsub : stack ⊆ List.range flat.blocks.length := fun j hj =>
    List.mem_range.mpr (h.lt_of_mem j hj)
  have hle := (List.subperm_of_subset hn hsub).length_le
  rw [List.length_range] at hle
  omega

/-- A circular outcome uses up its depth. -/
theorem exists_length {depth j : Nat} {stack : List Nat} {b : Block}
    (h : OpenLookups flat (j :: stack)) (hb : flat.blocks[j]? = some b)
    (hc : Circular (resolveBlock flat.blocks depth b)) :
    ∃ stack', OpenLookups flat stack' ∧ stack'.length = depth + (stack.length + 1) := by
  induction depth generalizing j stack b with
  | zero => exact ⟨j :: stack, h, by simp⟩
  | succ depth ih =>
    -- the look-up that is circular opens once more, at one depth less
    obtain ⟨k, c, hk, hl, hc⟩ := circular_resolveBody_iff.mp hc
    have hlt := (List.getElem?_eq_some_iff.mp hk).1
    obtain ⟨stack', hs, hlen⟩ := ih (.inner h hb hlt ⟨depth, hl⟩) hk hc
    refine ⟨stack', hs, ?_⟩
    rw [hlen, List.length_cons]
    omega

/-- Along the open look-ups there is less and less depth. -/
theorem finishes_of_mem {i j depth : Nat} {stack : List Nat} (h : OpenLookups flat (j :: stack))
    (hi : i ∈ stack) (hf : Finishes flat.blocks depth i) :
    ∃ depth' < depth, Finishes flat.blocks depth' j := by
  generalize hs : j :: stack = s at h
  induction h generalizing j stack depth with
  | root balanced lt named =>
    obtain ⟨rfl, rfl⟩ := List.cons.inj hs
    cases hi
  | inner outer getElem lt calls ih =>
    obtain ⟨rfl, rfl⟩ := List.cons.inj hs
    rcases List.mem_cons.mp hi with rfl | hi
    · exact hf.of_calls getElem calls lt
    · obtain ⟨d, hd, hfd⟩ := ih hi hf rfl
      obtain ⟨d', hd', hfd'⟩ := hfd.of_calls getElem calls lt
      exact ⟨d', Nat.lt_trans hd' hd, hfd'⟩

theorem not_finishes_of_mem {j : Nat} {stack : List Nat} (h : OpenLookups flat (j :: stack))
    (hj : j ∈ stack) (depth : Nat) : ¬Finishes flat.blocks depth j := by
  induction depth using Nat.strongRecOn with
  | ind depth ih =>
    intro hf
    obtain ⟨depth', hlt, hf'⟩ := h.finishes_of_mem hj hf
    exact ih depth' hlt hf'

theorem circular_root_iff :
    Circular (resolveFlat flat) ↔
      flat.balanced = true ∧ ∃ j b, flat.blocks[j]? = some b ∧
        placeholder j = valueTag (itemValue flat.root) ∧
          Circular (resolveBlock flat.blocks flat.blocks.length b) := by
  rw [resolveFlat]
  split
  · rename_i hb
    rw [and_iff_right hb]
    exact circular_resolveItem_iff
  · rename_i hb
    exact ⟨fun h => absurd h (not_circular_reject _), fun h => absurd h.1 hb⟩

/-- In a run that is not circular every look-up finishes. -/
theorem finishes {j : Nat} {stack : List Nat} (h : OpenLookups flat (j :: stack))
    (hc : ¬Circular (resolveFlat flat)) : ∃ depth, Finishes flat.blocks depth j := by
  generalize hs : j :: stack = s at h
  induction h generalizing j stack with
  | root balanced lt named =>
    obtain ⟨rfl, rfl⟩ := List.cons.inj hs
    have hget := List.getElem?_eq_getElem lt
    refine ⟨flat.blocks.length, _, hget, fun hb => hc ?_⟩
    exact circular_root_iff.mpr ⟨balanced, j, _, hget, named, hb⟩
  | inner outer getElem lt calls ih =>
    obtain ⟨rfl, rfl⟩ := List.cons.inj hs
    obtain ⟨depth, hf⟩ := ih rfl
    obtain ⟨depth', -, hf'⟩ := hf.of_calls getElem calls lt
    exact ⟨depth', hf'⟩

end OpenLookups

/-- **Circular runs.**  Compiling runs into a self-reference exactly when it looks up a block that
is still being resolved. -/
theorem circular_resolveFlat_iff (flat : Flat) : Circular (resolveFlat flat) ↔ Reenters flat := by
  constructor
  · intro h
    obtain ⟨hb, j, b, hj, hn, hc⟩ := OpenLookups.circular_root_iff.mp h
    have hlt := (List.getElem?_eq_some_iff.mp hj).1
    obtain ⟨stack, hs, hlen⟩ := OpenLookups.exists_length (.root hb hlt hn) hj hc
    -- the depth was the number of blocks, and the root is one look-up more
    refine hs.reenters_of_length ?_
    rw [hlen]
    simp
  · rintro ⟨j, stack, hs, hj⟩
    refine Classical.byContradiction fun hc => ?_
    obtain ⟨depth, hf⟩ := hs.finishes hc
    exact hs.not_finishes_of_mem hj depth hf

/-! ### Outlines without dollar signs -/

theorem compile_result_eq_selfReference_iff (text : String) :
    (compile text).result = .error .selfReference ↔
      Circular (compileSource (Text.squeeze text.toList)) := by
  rw [compile, Circular]
  rcases (compileSource (Text.squeeze text.toList)).result with (d | -) | s <;> simp

/-- Compiling ends with a schema or with a complaint about the text, if it is not circular. -/
theorem compile_stops_iff_not_circular (text : String) :
    ((∃ s, (compile text).result = .ok s) ∨
        ∃ source cause, (compile text).result = .error (.malformed source cause)) ↔
      ¬Circular (compileSource (Text.squeeze text.toList)) := by
  rw [← compile_result_eq_selfReference_iff]
  rcases (compile text).result with (⟨source, cause⟩ | -) | s <;> simp

/-- **Termination.**  Compiling an outline without dollar signs ends with a schema or with a
complaint about the text exactly when no block is looked up while it is being resolved; where one
is, there is a block that the digits behind it make another one. -/
theorem compile_stops_iff {text : String} (hd : '$' ∉ text.toList) :
    (((∃ s, (compile text).result = .ok s) ∨
        ∃ source cause, (compile text).result = .error (.malformed source cause)) ↔
      ¬Reenters (Flat.ofText (Text.squeeze text.toList))) ∧
    (Reenters (Flat.ofText (Text.squeeze text.toList)) →
      ∃ t : Nested, t.text = Text.squeeze text.toList ∧ t.captures = true) := by
  refine ⟨?_, fun hr => ?_⟩
  · rw [compile_stops_iff_not_circular, compileSource, circular_resolveFlat_iff]
  · have hc := (circular_resolveFlat_iff _).mpr hr
    have hb := (OpenLookups.circular_root_iff.mp hc).1
    obtain ⟨t, ht⟩ := (Flat.balanced_ofText_iff _).mp hb
    refine ⟨t, ht, ?_⟩
    rcases hcap : t.captures with - | -
    · -- without a capture the outcome is a reading, and readings are never circular
      have hdt : '$' ∉ t.text := by
        rw [ht]
        exact fun h => hd ((List.mem_filter.mp h).1)
      have hagrees := compileSource_agrees_reading hdt hcap
      rw [ht] at hagrees
      exact absurd hc hagrees.ne_selfReference
    · rfl

/-- Block 1 and the digit behind it are written like block 10, the array that they stand in. -/
theorem compile_runs_away :
    '$' ∉ "[{},{}0,{},{},{},{},{},{},{},{}]".toList ∧
      (compile "[{},{}0,{},{},{},{},{},{},{},{}]").result = .error .selfReference :=
  ⟨by decide, by cbv⟩

/-- Without the digit nothing is looked up twice; with it block 10 is. -/
theorem reenters_block_ten :
    ('$' ∉ "[{},{},{},{},{},{},{},{},{},{}]".toList ∧
        ¬Reenters (Flat.ofText (Text.squeeze "[{},{},{},{},{},{},{},{},{},{}]".toList))) ∧
      '$' ∉ "[{},{}0,{},{},{},{},{},{},{},{}]".toList ∧
        Reenters (Flat.ofText (Text.squeeze "[{},{}0,{},{},{},{},{},{},{},{}]".toList)) := by
  have hd : '$' ∉ "[{},{},{},{},{},{},{},{},{},{}]".toList := by decide
  have hd' : '$' ∉ "[{},{}0,{},{},{},{},{},{},{},{}]".toList := by decide
  have hok : (compile "[{},{},{},{},{},{},{},{},{},{}]").result
      = .ok (.array [.object [] {}] {}) := by cbv
  have hself : (compile "[{},{}0,{},{},{},{},{},{},{},{}]").result = .error .selfReference := by
    cbv
  refine ⟨⟨hd, (compile_stops_iff hd).1.mp (.inl ⟨_, hok⟩)⟩, hd', ?_⟩
  refine Classical.byContradiction fun hn => ?_
  rcases (compile_stops_iff hd').1.mpr hn with ⟨s, hs⟩ | ⟨source, cause, hs⟩
  · rw [hself] at hs
    cases hs
  · rw [hself] at hs
    cases hs

end ApiOutline.Shape
