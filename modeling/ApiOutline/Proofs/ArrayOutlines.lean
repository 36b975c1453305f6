/-
ApiOutline/Proofs/ArrayOutlines.lean

Arrays in outlines, as they are written.

Design.  In the table of blocks an item is a flat text, and one more item leaves the table as it
is.  In an outline an item may be nested, and one more item gives other numbers to the blocks
behind it.  This does not matter as long as the items are read as nested texts: then an item comes
to the same node by itself and in an array, whatever stands beside it (`compileSource_eq_ok_iff`,
`reading_arrayNested`).  An outline that mentions a block by its number is no such text: in
`[{a:n},x:$1,{b:n}]` one more `{a:n}` makes `$1` the first block.

Main result: `arrays_keep_distinct_items`.
-/
import ApiOutline.Proofs.Denotation
import ApiOutline.Proofs.DistinctItems

namespace ApiOutline

namespace Shape

open Sign (hasChar)
open Text (squeeze)

/-! ### Items by themselves -/

/-- What the text of an item comes to, the item being an outline by itself. -/
def readOutline (t : Nested) : Except Stop Schema := (compileSource t.text).result

/-- The nested texts can stand in an array: the commas in them stand in blocks, nothing in them
can be taken for the number of a block, and an empty one stands alone. -/
structure AreItemOutlines (ts : List Nested) : Prop where
  nonempty : ts ≠ []
  commaFree : ∀ t ∈ ts, hasChar ',' (Outline.row t) = false
  tidy : ∀ t ∈ ts, t.tidy = true
  alone : ∀ t ∈ ts, t.text = [] → ts = [t]

/-- The nested text can stand in an array beside others. -/
structure IsItemOutline (t : Nested) : Prop where
  full : t.text ≠ []
  commaFree : hasChar ',' (Outline.row t) = false
  tidy : t.tidy = true

theorem resolved_of_readOutline (t : Nested) (s : Schema) (h : readOutline t = .ok s) :
    Resolved s := by
  rw [readOutline, compileSource, resolveFlat] at h
  split at h
  · exact ⟨_, _, _, h⟩
  · cases h

/-- A text in which no block is mentioned by its number is compiled to what it says. -/
theorem compileSource_eq_ok_iff {t : Nested} (h : t.tidy = true) {s : Schema} :
    (compileSource t.text).result = .ok s ↔ t.reading = .ok s := by
  have hagrees := compileSource_agrees_reading (Nested.not_mem_text_of_tidy h)
    (Nested.capturesFrom_of_tidy h t.size 0)
  constructor
  · -- a text that says nothing is not compiled
    intro hs
    rcases hr : t.reading with f | s'
    · rw [hr] at hagrees
      obtain ⟨stop, hstop, -⟩ := Agrees.error_iff.mp hagrees
      cases hs.symm.trans hstop
    · rw [hr] at hagrees
      exact congrArg Except.ok (Except.ok.inj ((Agrees.ok_iff.mp hagrees).symm.trans hs))
  · intro hr
    rw [hr] at hagrees
    exact Agrees.ok_iff.mp hagrees

/-! ### Arrays -/

/-- The array that has the nested texts for its items. -/
def arrayNested (ts : List Nested) : Nested := .block .array (.joined ts) .nil

section Arrays

variable {ts : List Nested} {nodes : List Schema}

theorem text_arrayNested (ts : List Nested) :
    (arrayNested ts).text = (arrayOf (ts.map Nested.text)).text := by
  rw [arrayNested, Nested.text, Nested.text_joined]
  rfl

theorem tidy_arrayNested (h : ∀ t ∈ ts, t.tidy = true) : (arrayNested ts).tidy = true := by
  rw [arrayNested, Nested.tidy, Nested.tidy_joined h]
  rfl

theorem mapM_reading (h : ∀ t ∈ ts, t.tidy = true)
    (hnodes : ts.map readOutline = nodes.map .ok) :
    (ts.map Outline.row).mapM readItem = .ok nodes := by
  induction ts generalizing nodes with
  | nil =>
    obtain rfl : nodes = [] := List.map_eq_nil_iff.mp hnodes.symm
    rfl
  | cons t ts ih =>
    obtain ⟨ht, hts⟩ := List.forall_mem_cons.mp h
    obtain ⟨s, nodes, rfl, hs, hrest⟩ := List.map_eq_cons_iff.mp hnodes.symm
    have hread : readItem (Outline.row t) = .ok s := (compileSource_eq_ok_iff ht).mp hs.symm
    rw [List.map_cons, List.mapM_cons, hread, ih hts hrest.symm]
    rfl

/-- An array says what its items say by themselves, each once. -/
theorem reading_arrayNested (h : AreItemOutlines ts)
    (hnodes : ts.map readOutline = nodes.map .ok) :
    (arrayNested ts).reading = .ok (.array (firsts nodes) {}) := by
  show readBody .array (Outline.row (.joined ts)) = _
  have hpieces := Sign.pieces_joined readBody h.nonempty h.commaFree
  -- an empty item is refused only beside others, and there it does not stand
  have helement : (ts.map Outline.row).mapM (readElement (Outline.row (.joined ts))) =
      (ts.map Outline.row).mapM readItem := by
    refine mapM_congr fun ss hss => ?_
    obtain ⟨t, ht, rfl⟩ := List.mem_map.mp hss
    refine Outline.readElement_eq ?_
    by_cases hempty : t.text = []
    · left
      rw [h.alone t ht hempty]
      rfl
    · exact .inr ((Outline.signs_eq_nil_iff t).not.mpr hempty)
  have hresolved := forall_resolved resolved_of_readOutline hnodes
  rw [readBody, hpieces, helement, mapM_reading h.tidy hnodes,
    ← foldl_addItem_eq_firsts hresolved]
  rfl

/-- An outline that is an array, however blanks are strewn into it. -/
theorem result_compile_array (h : AreItemOutlines ts)
    (hnodes : ts.map readOutline = nodes.map .ok) {outline : String}
    (htext : squeeze outline.toList = (arrayOf (ts.map Nested.text)).text) :
    (compile outline).result = .ok (.array (firsts nodes) {}) := by
  have hread := (compileSource_eq_ok_iff (tidy_arrayNested h.tidy)).mpr
    (reading_arrayNested h hnodes)
  rw [result_compile, htext, ← text_arrayNested, hread]

/-- **Arrays of outlines.**  If all items of an array compile by themselves then so does the array,
its options are the first ones of their nodes, and more of the same items behind them change
nothing. -/
theorem compile_array (h : AreItemOutlines ts) (hnodes : ts.map readOutline = nodes.map .ok) :
    ∃ options, OptionsOf nodes options ∧
      ∀ ts', Repeats readOutline IsItemOutline ts ts' → ∀ outline : String,
        squeeze outline.toList = (arrayOf (ts'.map Nested.text)).text →
        (compile outline).result = .ok (.array options {}) := by
  have halone : ∀ t ∈ ts, ¬IsItemOutline t → ts = [t] := by
    intro t ht hmisfit
    refine h.alone t ht ?_
    by_contra hfull
    exact hmisfit ⟨hfull, h.commaFree t ht, h.tidy t ht⟩
  obtain ⟨options, hoptions, hrepeats⟩ :=
    exists_options resolved_of_readOutline h.nonempty halone hnodes
  refine ⟨options, hoptions, fun ts' hr outline htext => ?_⟩
  rcases hrepeats ts' hr with rfl | ⟨hne, hfits, nodes', hnodes', hsame⟩
  · -- nothing is repeated
    rw [result_compile_array h hnodes htext, ← hoptions.first]
  · have hitems : AreItemOutlines ts' :=
      ⟨hne, fun t ht => (hfits t ht).commaFree, fun t ht => (hfits t ht).tidy,
        fun t ht hempty => absurd hempty (hfits t ht).full⟩
    rw [result_compile_array hitems hnodes' htext, hsame]

end Arrays

/-- **Distinct items.**  An array whose items all resolve has the first ones of their nodes for
its options, no two of them equal, one as it is and several as a choice.  Behind an item that can
stand beside others it may be repeated, or another item with an equal node may be put, again and
again: the node of the array stays the same.  This holds of flat texts below any table of blocks,
and of the items of an outline, with all that is nested in them. -/
theorem arrays_keep_distinct_items :
    (∀ (blocks : List Block) (depth : Nat) (texts : List (List Char)) (nodes : List Schema),
      AreItems texts → texts.map (itemNode blocks depth) = nodes.map .ok →
      ∃ options, OptionsOf nodes options ∧
        ∀ texts', Repeats (itemNode blocks depth) IsItemText texts texts' →
          (resolveBlock blocks (depth + 1) (arrayOf texts')).result = .ok (.array options {})) ∧
    (∀ (ts : List Nested) (nodes : List Schema),
      AreItemOutlines ts → ts.map readOutline = nodes.map .ok →
      ∃ options, OptionsOf nodes options ∧
        ∀ ts', Repeats readOutline IsItemOutline ts ts' → ∀ outline : String,
          squeeze outline.toList = (arrayOf (ts'.map Nested.text)).text →
          (compile outline).result = .ok (.array options {})) := by
  constructor
  · intro blocks depth texts nodes htexts hnodes
    exact resolveBlock_arrayOf htexts hnodes
  · intro ts nodes hts hnodes
    exact compile_array hts hnodes

/-- An object that gives a number and a word. -/
def priceBlock : Block := ⟨.object, ['n', ':', 'n', ':', '1', ',', 'c', ':']⟩

/-- The same object, with the word in front and the number as a fraction. -/
def samePriceBlock : Block := ⟨.object, ['c', ':', ',', 'n', ':', 'n', ':', '1', '.', '0']⟩

/-- The first object, nested. -/
def price : Nested :=
  .block .object (.ofChars priceBlock.body (by simp [priceBlock, Block.isBracket])) .nil

/-- The second object, nested. -/
def samePrice : Nested :=
  .block .object (.ofChars samePriceBlock.body (by simp [samePriceBlock, Block.isBracket])) .nil

/-- The node of the first object. -/
def priceNode : Schema :=
  .object [("n", .plain .number ⟨some (.integer 1), some true⟩), ("c", Outline.anyString)] {}

/-- The node of the second object, which is equal to that of the first. -/
def samePriceNode : Schema :=
  .object [("c", Outline.anyString),
    ("n", .plain .number ⟨some (.float (.finite false 0x10000000000000 (-52))), some true⟩)] {}

set_option maxRecDepth 8192 in
theorem array_keeps_one_price :
    (resolveBlock [priceBlock, samePriceBlock] 2
        (arrayOf [['$', '0'], ['$', '1'], ['s'], ['$', '0']])).result =
      .ok (.array [priceNode, Outline.anyString] {}) ∧
    (compile "[{n: n:1, c:}, {c:, n: n:1.0}, s, {n: n:1, c:}]").result =
      .ok (.array [priceNode, Outline.anyString] {}) := by
  obtain ⟨below, inside⟩ := arrays_keep_distinct_items
  have hsame : priceNode.toJson.same samePriceNode.toJson = true := rfl
  constructor
  · have htexts : AreItems [['$', '0'], ['s']] := ⟨by decide, by decide, by decide⟩
    obtain ⟨options, hoptions, hresult⟩ := below [priceBlock, samePriceBlock] 1 _
      [priceNode, Outline.anyString] htexts rfl
    obtain rfl : options = [priceNode, Outline.anyString] := hoptions.first
    have hfits : IsItemText ['$', '0'] := ⟨by decide, by decide⟩
    have hother : itemNode [priceBlock, samePriceBlock] 1 ['$', '1'] = .ok samePriceNode := by rfl
    have hequal : Repeats (itemNode [priceBlock, samePriceBlock] 1) IsItemText
        [['$', '0'], ['s']] ([['$', '0']] ++ [['$', '1'], ['s']]) :=
      .equal .refl (by simp) hfits rfl ⟨by decide, by decide⟩ hother hsame
    exact hresult ([['$', '0'], ['$', '1'], ['s']] ++ [['$', '0']]) (.copy hequal (by simp) hfits)
  · have hprice : readOutline price = .ok priceNode := (compileSource_eq_ok_iff rfl).mpr rfl
    have hother : readOutline samePrice = .ok samePriceNode :=
      (compileSource_eq_ok_iff rfl).mpr (by rfl)
    have hword : readOutline (.char 's' rfl .nil) = .ok Outline.anyString :=
      (compileSource_eq_ok_iff rfl).mpr rfl
    have hitems : AreItemOutlines [price, .char 's' rfl .nil] :=
      ⟨by decide, by decide, by decide, by decide⟩
    obtain ⟨options, hoptions, hresult⟩ := inside [price, .char 's' rfl .nil]
      [priceNode, Outline.anyString] hitems (by simp [hprice, hword])
    obtain rfl : options = [priceNode, Outline.anyString] := hoptions.first
    have hfits : IsItemOutline price := ⟨by decide, by decide, by decide⟩
    have hfits' : IsItemOutline samePrice := ⟨by decide, by decide, by decide⟩
    have hequal : Repeats readOutline IsItemOutline [price, .char 's' rfl .nil]
        ([price] ++ [samePrice, .char 's' rfl .nil]) :=
      .equal .refl (by simp) hfits hprice hfits' hother hsame
    exact hresult ([price, samePrice, .char 's' rfl .nil] ++ [price])
      (.copy hequal (by simp) hfits) _ (by decide)

end Shape

end ApiOutline
