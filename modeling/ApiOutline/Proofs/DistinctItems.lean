/-
ApiOutline/Proofs/DistinctItems.lean

Arrays without equal options.

Design.  The loop over the items of an array compares each node with the options that it kept so
far.  What comes out is said without the loop: the nodes that are equal to none before them, in
their order (`firsts`).  The two agree because equality is an equivalence of nodes that were
resolved: a node that was not kept is equal to an option, so that to be equal to a node and to be
equal to an option is the same (`addItem_firsts`).

An item that is equal to one before it leaves the options as they are, wherever it stands.  So
more of the same can be put into an array, again and again (`Repeats`), whatever the items are
and whatever reads them (`read`).

Main result: `resolveBlock_arrayOf`.
-/
import ApiOutline.Proofs.ExactNodes

namespace ApiOutline.Shape

open Text

/-! ### Arrays and their items -/

/-- The array block that has the texts for its items. -/
def arrayOf (texts : List (List Char)) : Block := ⟨.array, join ',' texts⟩

/-- The texts can stand in an array: none has a comma, and an empty one stands alone. -/
structure AreItems (texts : List (List Char)) : Prop where
  nonempty : texts ≠ []
  commaFree : ∀ text ∈ texts, ',' ∉ text
  alone : [] ∈ texts → texts = [[]]

/-- The text can stand in an array beside others. -/
def IsItemText (text : List Char) : Prop := text ≠ [] ∧ ',' ∉ text

/-- The nodes that are equal to none before them, in their order. -/
def firsts (nodes : List Schema) : List Schema :=
  (nodes.zipIdx.filter fun e => (nodes.take e.2).all fun t => !t.toJson.same e.1.toJson).map
    Prod.fst

/-- The second list has some items more than the first.  Each repeats one that fits and stands
before it: it is that item once again, or one that fits and is read as an equal node. -/
inductive Repeats {τ : Type} (read : τ → Except Stop Schema) (fits : τ → Prop) (items : List τ) :
    List τ → Prop
  | refl : Repeats read fits items items
  | copy {before after : List τ} {item : τ} (h : Repeats read fits items (before ++ after))
      (hitem : item ∈ before) (hfits : fits item) :
      Repeats read fits items (before ++ item :: after)
  | equal {before after : List τ} {item item' : τ} {s s' : Schema}
      (h : Repeats read fits items (before ++ after)) (hitem : item ∈ before)
      (hfits : fits item) (hs : read item = .ok s)
      (hfits' : fits item') (hs' : read item' = .ok s')
      (hsame : s.toJson.same s'.toJson = true) :
      Repeats read fits items (before ++ item' :: after)

/-- How the options of an array come from the nodes of its items. -/
structure OptionsOf (nodes options : List Schema) : Prop where
  /-- no two are equal, either way -/
  distinct : options.Pairwise fun s t =>
    s.toJson.same t.toJson = false ∧ t.toJson.same s.toJson = false
  /-- every node is equal to one of them, either way -/
  covers : ∀ s ∈ nodes, ∃ t ∈ options,
    s.toJson.same t.toJson = true ∧ t.toJson.same s.toJson = true
  /-- they are some of the nodes, in their order, -/
  sublist : options.Sublist nodes
  /-- each where it comes first -/
  first : options = firsts nodes
  /-- a single one is written as the item, and several as a choice -/
  written : ∃ items, (Schema.array options {}).toJson =
      .object [("type", .text "array"), ("items", items)] ∧
    IsChoice items (options.map Schema.toJson)

/-! ### First ones -/

section Nodes

variable {s t : Schema}

theorem firsts_concat (nodes : List Schema) (s : Schema) :
    firsts (nodes ++ [s]) =
      firsts nodes ++ if (nodes.all fun t => !t.toJson.same s.toJson) = true then [s] else [] := by
  -- what stands in front of a node is the same in the longer list
  have hbefore : ∀ e ∈ nodes.zipIdx, (nodes ++ [s]).take e.2 = nodes.take e.2 := fun e he =>
    List.take_append_of_le_length (List.snd_lt_of_mem_zipIdx he).le
  have hlast : (nodes ++ [s]).take nodes.length = nodes := List.take_left
  rw [firsts, List.zipIdx_append, List.filter_append, List.map_append, firsts]
  congr 1
  · congr 1
    exact List.filter_congr fun e he => by rw [hbefore e he]
  · rw [List.zipIdx_singleton, Nat.zero_add, List.filter_singleton, hlast]
    dsimp only
    rcases (nodes.all fun t => !t.toJson.same s.toJson) with - | - <;> rfl

theorem firsts_sublist (nodes : List Schema) : (firsts nodes).Sublist nodes := by
  have h : (firsts nodes).Sublist (nodes.zipIdx.map Prod.fst) := List.filter_sublist.map Prod.fst
  rwa [List.zipIdx_map_fst] at h

/-- Every node is equal to one that is kept. -/
theorem exists_firsts {nodes : List Schema} (h : ∀ s ∈ nodes, Resolved s) :
    ∀ s ∈ nodes, ∃ t ∈ firsts nodes, t.toJson.meaning = s.toJson.meaning := by
  induction nodes using List.reverseRecOn with
  | nil => simp
  | append_singleton nodes s ih =>
    obtain ⟨hnodes, hs⟩ := List.forall_mem_append.mp h
    have hs : Resolved s := hs s (List.mem_singleton_self s)
    rw [firsts_concat]
    intro u hu
    rcases List.mem_append.mp hu with hu | hu
    · obtain ⟨t, ht, hsame⟩ := ih hnodes u hu
      exact ⟨t, List.mem_append_left _ ht, hsame⟩
    · obtain rfl := List.mem_singleton.mp hu
      by_cases hnew : (nodes.all fun t => !t.toJson.same u.toJson) = true
      · exact ⟨u, by simp [hnew], rfl⟩
      · -- one before it is equal to it, and is equal to one that is kept
        obtain ⟨v, hv, hsame⟩ : ∃ v ∈ nodes, v.toJson.same u.toJson = true := by
          simpa using hnew
        obtain ⟨t, ht, htv⟩ := ih hnodes v hv
        exact ⟨t, List.mem_append_left _ ht,
          htv.trans (((hnodes v hv).same_iff hs).mp hsame)⟩

theorem pairwise_firsts {nodes : List Schema} (h : ∀ s ∈ nodes, Resolved s) :
    (firsts nodes).Pairwise fun s t => s.toJson.meaning ≠ t.toJson.meaning := by
  induction nodes using List.reverseRecOn with
  | nil => exact List.Pairwise.nil
  | append_singleton nodes s ih =>
    obtain ⟨hnodes, hs⟩ := List.forall_mem_append.mp h
    have hs : Resolved s := hs s (List.mem_singleton_self s)
    rw [firsts_concat]
    split
    · rename_i hnew
      refine List.pairwise_append.mpr ⟨ih hnodes, List.pairwise_singleton _ _, ?_⟩
      intro t ht u hu
      obtain rfl := List.mem_singleton.mp hu
      have ht : t ∈ nodes := (firsts_sublist nodes).subset ht
      have hdiffer : t.toJson.same u.toJson = false := by
        simpa using List.all_eq_true.mp hnew t ht
      rw [Ne, ← (hnodes t ht).same_iff hs, hdiffer]
      exact Bool.false_ne_true
    · rw [List.append_nil]
      exact ih hnodes

/-! ### The loop -/

/-- **One item.**  Adding an item that resolved adds it to the first ones of all before it. -/
theorem addItem_firsts {nodes : List Schema} (h : ∀ s ∈ nodes, Resolved s)
    (hs : Resolved s) : addItem (firsts nodes) s = firsts (nodes ++ [s]) := by
  -- some option is like the node exactly if some node in front is equal to it
  have hany : ((firsts nodes).any fun t => t.alike s) = true ↔
      ¬ (nodes.all fun t => !t.toJson.same s.toJson) = true := by
    have hall : ¬ (nodes.all fun t => !t.toJson.same s.toJson) = true ↔
        ∃ v ∈ nodes, v.toJson.same s.toJson = true := by simp
    rw [hall, List.any_eq_true]
    constructor
    · rintro ⟨t, ht, halike⟩
      have ht := (firsts_sublist nodes).subset ht
      exact ⟨t, ht, (h t ht).alike_eq hs ▸ halike⟩
    · -- that one is equal to an option, and so the new one is
      rintro ⟨v, hv, hsame⟩
      obtain ⟨t, ht, htv⟩ := exists_firsts h v hv
      have ht' := h t ((firsts_sublist nodes).subset ht)
      refine ⟨t, ht, ?_⟩
      rw [ht'.alike_eq hs, ht'.same_iff hs, htv]
      exact ((h v hv).same_iff hs).mp hsame
  rw [addItem, firsts_concat]
  by_cases hnew : (nodes.all fun t => !t.toJson.same s.toJson) = true
  · rw [if_neg (hany.not.mpr (not_not_intro hnew)), if_pos hnew]
  · rw [if_pos (hany.mpr hnew), if_neg hnew, List.append_nil]

theorem foldl_addItem_eq_firsts {nodes : List Schema} (h : ∀ s ∈ nodes, Resolved s) :
    nodes.foldl addItem [] = firsts nodes := by
  induction nodes using List.reverseRecOn with
  | nil => rfl
  | append_singleton nodes s ih =>
    obtain ⟨hnodes, hs⟩ := List.forall_mem_append.mp h
    rw [List.foldl_append, ih hnodes, List.foldl_cons, List.foldl_nil,
      addItem_firsts hnodes (hs s (List.mem_singleton_self s))]

/-- A node that means what one before it means is not kept, wherever it stands. -/
theorem firsts_insert {before after : List Schema}
    (h : ∀ s ∈ before ++ after, Resolved s) (hs : s ∈ before)
    (ht : Resolved t) (hsame : s.toJson.meaning = t.toJson.meaning) :
    firsts (before ++ t :: after) = firsts (before ++ after) := by
  obtain ⟨hbefore, hafter⟩ := List.forall_mem_append.mp h
  have hinsert : ∀ u ∈ before ++ t :: after, Resolved u :=
    List.forall_mem_append.mpr ⟨hbefore, List.forall_mem_cons.mpr ⟨ht, hafter⟩⟩
  have hold : (before.all fun u => !u.toJson.same t.toJson) = false := by
    rw [List.all_eq_false]
    exact ⟨s, hs, by simp [((hbefore s hs).same_iff ht).mpr hsame]⟩
  have hadd : addItem (firsts before) t = firsts before := by
    rw [addItem_firsts hbefore ht, firsts_concat, hold, if_neg Bool.false_ne_true, List.append_nil]
  rw [← foldl_addItem_eq_firsts hinsert, ← foldl_addItem_eq_firsts h, List.foldl_append,
    List.foldl_append, List.foldl_cons, foldl_addItem_eq_firsts hbefore, hadd]

/-! ### Options -/

theorem firsts_ne_nil {nodes : List Schema} (h : ∀ s ∈ nodes, Resolved s)
    (hne : nodes ≠ []) : firsts nodes ≠ [] := by
  obtain ⟨s, hs⟩ := List.exists_mem_of_ne_nil nodes hne
  obtain ⟨t, ht, -⟩ := exists_firsts h s hs
  exact List.ne_nil_of_mem ht

theorem optionsOf_firsts {nodes : List Schema} (h : ∀ s ∈ nodes, Resolved s)
    (hne : nodes ≠ []) : OptionsOf nodes (firsts nodes) := by
  have hsub := firsts_sublist nodes
  have hdistinct : (firsts nodes).Pairwise fun s t =>
      s.toJson.same t.toJson = false ∧ t.toJson.same s.toJson = false := by
    refine (pairwise_firsts h).imp_of_mem fun {s t} hs ht hne => ?_
    have hs := h s (hsub.subset hs)
    have ht := h t (hsub.subset ht)
    rw [← Bool.not_eq_true, ← Bool.not_eq_true, hs.same_iff ht, ht.same_iff hs]
    exact ⟨hne, hne.symm⟩
  refine ⟨hdistinct, fun s hs => ?_, hsub, rfl, _, rfl, ?_, ?_⟩
  · obtain ⟨t, ht, hsame⟩ := exists_firsts h s hs
    have ht' := h t (hsub.subset ht)
    exact ⟨t, ht, ((h s hs).same_iff ht').mpr hsame.symm, (ht'.same_iff (h s hs)).mpr hsame⟩
  · exact List.pairwise_map.mpr (hdistinct.imp fun hst => hst.1)
  · rw [Schema.itemNodes_eq_map]
    rcases hfirsts : firsts nodes with - | ⟨s, - | ⟨t, rest⟩⟩
    · exact absurd hfirsts (firsts_ne_nil h hne)
    · exact .inl rfl
    · exact .inr ⟨by simp, rfl⟩

end Nodes

/-! ### More of the same -/

section Repeats

variable {τ : Type} {read : τ → Except Stop Schema} {fits : τ → Prop} {items : List τ}
  {nodes : List Schema}

/-- Without an item that fits there is nothing to repeat. -/
theorem Repeats.eq_of_not_fits (hnone : ∀ item ∈ items, ¬fits item) {items' : List τ}
    (h : Repeats read fits items items') : items' = items := by
  induction h with
  | refl => rfl
  | copy _ hitem hfits ih | equal _ hitem hfits _ _ _ _ ih =>
    exact absurd hfits (hnone _ (ih ▸ List.mem_append_left _ hitem))

theorem exists_node (h : items.map read = nodes.map .ok) {item : τ} (hitem : item ∈ items) :
    ∃ s ∈ nodes, read item = .ok s := by
  have hread : read item ∈ nodes.map .ok := h ▸ List.mem_map_of_mem hitem
  obtain ⟨s, hs, hread⟩ := List.mem_map.mp hread
  exact ⟨s, hs, hread.symm⟩

theorem forall_resolved (hread : ∀ item s, read item = .ok s → Resolved s)
    (h : items.map read = nodes.map .ok) : ∀ s ∈ nodes, Resolved s := by
  intro s hs
  have hok : Except.ok s ∈ items.map read := h ▸ List.mem_map_of_mem hs
  obtain ⟨item, -, hitem⟩ := List.mem_map.mp hok
  exact hread item s hitem

/-- The items fit, and the first ones of their nodes are given. -/
structure HaveFirsts (read : τ → Except Stop Schema) (fits : τ → Prop) (items : List τ)
    (options : List Schema) : Prop where
  nonempty : items ≠ []
  fits : ∀ item ∈ items, fits item
  nodes : ∃ nodes, items.map read = nodes.map .ok ∧ firsts nodes = options

variable (hread : ∀ item s, read item = .ok s → Resolved s)

include hread

/-- One more item that means what one before it means changes nothing. -/
theorem HaveFirsts.insert {before after : List τ} {options : List Schema}
    (h : HaveFirsts read fits (before ++ after) options) {item item' : τ} {s s' : Schema}
    (hitem : item ∈ before) (hs : read item = .ok s) (hfits : fits item')
    (hs' : read item' = .ok s') (hsame : s.toJson.meaning = s'.toJson.meaning) :
    HaveFirsts read fits (before ++ item' :: after) options := by
  obtain ⟨-, hall, nodes, hnodes, rfl⟩ := h
  obtain ⟨hbefore, hafter⟩ := List.forall_mem_append.mp hall
  have hresolved := forall_resolved hread hnodes
  -- the nodes of what stands before the new item and of what stands behind it
  rw [List.map_append] at hnodes
  obtain ⟨front, back, rfl, hfront, hback⟩ := List.map_eq_append_iff.mp hnodes.symm
  obtain ⟨t, ht, hgiven⟩ := exists_node hfront.symm hitem
  obtain rfl : s = t := Except.ok.inj (hs.symm.trans hgiven)
  refine ⟨by simp, List.forall_mem_append.mpr ⟨hbefore, List.forall_mem_cons.mpr ⟨hfits, hafter⟩⟩,
    front ++ s' :: back, ?_, firsts_insert hresolved ht (hread item' s' hs') hsame⟩
  rw [List.map_append, List.map_append, List.map_cons, List.map_cons, hfront, hback, hs']

theorem HaveFirsts.repeats {options : List Schema} (h : HaveFirsts read fits items options)
    {items' : List τ} (hr : Repeats read fits items items') :
    HaveFirsts read fits items' options := by
  induction hr with
  | refl => exact h
  | @copy before after item _ hitem hfits hold =>
    obtain ⟨nodes, hnodes, -⟩ := hold.nodes
    obtain ⟨s, -, hs⟩ := exists_node hnodes (List.mem_append_left after hitem)
    exact hold.insert hread hitem hs hfits hs rfl
  | @equal before after item item' s s' _ hitem _ hs hfits' hs' hsame hold =>
    exact hold.insert hread hitem hs hfits' hs'
      (((hread item s hs).same_iff (hread item' s' hs')).mp hsame)

/-- All items of a list that repeats some fit, and their first ones are the same; but if an item
does not fit, then it stands alone and nothing is repeated. -/
theorem Repeats.eq_or_haveFirsts (hne : items ≠ [])
    (halone : ∀ item ∈ items, ¬fits item → items = [item])
    (h : items.map read = nodes.map .ok) {items' : List τ} (hr : Repeats read fits items items') :
    items' = items ∨ HaveFirsts read fits items' (firsts nodes) := by
  by_cases hfits : ∀ item ∈ items, fits item
  · exact .inr (HaveFirsts.repeats hread ⟨hne, hfits, nodes, h, rfl⟩ hr)
  · push Not at hfits
    obtain ⟨item, hitem, hmisfit⟩ := hfits
    refine .inl (hr.eq_of_not_fits fun other hother => ?_)
    rw [halone item hitem hmisfit] at hother
    rwa [List.mem_singleton.mp hother]

/-- The first ones are the options of a list and of all lists that repeat some of its items. -/
theorem exists_options (hne : items ≠ [])
    (halone : ∀ item ∈ items, ¬fits item → items = [item])
    (h : items.map read = nodes.map .ok) :
    ∃ options, OptionsOf nodes options ∧
      ∀ items', Repeats read fits items items' →
        items' = items ∨ HaveFirsts read fits items' options := by
  have hnodes : nodes ≠ [] := by
    rintro rfl
    exact hne (List.map_eq_nil_iff.mp h)
  exact ⟨firsts nodes, optionsOf_firsts (forall_resolved hread h) hnodes,
    fun items' hr => hr.eq_or_haveFirsts hread hne halone h⟩

end Repeats

/-! ### Arrays -/

section Arrays

variable {blocks : List Block} {depth : Nat} {texts : List (List Char)} {nodes : List Schema}

/-- The loop over items all of which resolve. -/
theorem result_foldlM_itemStep {body : List Char}
    (hfull : ∀ text ∈ texts, ¬(body ≠ [] ∧ text = []))
    (h : texts.map (itemNode blocks depth) = nodes.map .ok) (items : List Schema) :
    (texts.foldlM (itemStep blocks (resolveBlock blocks depth) body) items).result =
      .ok (nodes.foldl addItem items) := by
  induction texts generalizing nodes items with
  | nil =>
    obtain rfl : nodes = [] := List.map_eq_nil_iff.mp h.symm
    rfl
  | cons text texts ih =>
    obtain ⟨htext, htexts⟩ := List.forall_mem_cons.mp hfull
    obtain ⟨s, nodes, rfl, hs, hnodes⟩ := List.map_eq_cons_iff.mp h.symm
    have hresolve : (resolveItem blocks (resolveBlock blocks depth) text).result = .ok s := hs.symm
    have hstep : (itemStep blocks (resolveBlock blocks depth) body items text).result =
        .ok (addItem items s) := by
      rw [itemStep, if_neg htext, Traced.result_bind, hresolve]
      rfl
    rw [List.foldlM_cons, Traced.result_bind, hstep]
    exact ih htexts hnodes.symm (addItem items s)

theorem resolved_of_itemNode (text : List Char) (s : Schema)
    (h : itemNode blocks depth text = .ok s) : Resolved s :=
  ⟨blocks, depth, text, h⟩

/-- An array all items of which resolve has the first ones of their nodes. -/
theorem result_resolveBlock_arrayOf (htexts : AreItems texts)
    (h : texts.map (itemNode blocks depth) = nodes.map .ok) :
    (resolveBlock blocks (depth + 1) (arrayOf texts)).result = .ok (.array (firsts nodes) {}) := by
  have hpieces : pieces ',' (join ',' texts) = texts :=
    pieces_join htexts.nonempty htexts.commaFree
  have hfull : ∀ text ∈ texts, ¬(join ',' texts ≠ [] ∧ text = []) := by
    rintro text htext ⟨hbody, rfl⟩
    rw [htexts.alone htext] at hbody
    exact hbody rfl
  have hitems := result_foldlM_itemStep hfull h []
  rw [← resolveItems_eq_foldlM,
    foldl_addItem_eq_firsts (forall_resolved resolved_of_itemNode h)] at hitems
  rw [resolveBlock, resolveBody, arrayOf]
  dsimp only
  rw [hpieces, Traced.result_bind, hitems]
  rfl

/-- **Arrays of texts.**  If all items of an array resolve then the array resolves to one whose
options are the first ones of their nodes, and more of the same items behind them change nothing. -/
theorem resolveBlock_arrayOf (htexts : AreItems texts)
    (h : texts.map (itemNode blocks depth) = nodes.map .ok) :
    ∃ options, OptionsOf nodes options ∧
      ∀ texts', Repeats (itemNode blocks depth) IsItemText texts texts' →
        (resolveBlock blocks (depth + 1) (arrayOf texts')).result = .ok (.array options {}) := by
  -- of texts without commas only the empty one cannot stand beside others
  have halone : ∀ text ∈ texts, ¬IsItemText text → texts = [text] := by
    intro text htext hmisfit
    obtain rfl : text = [] := by
      by_contra hfull
      exact hmisfit ⟨hfull, htexts.commaFree text htext⟩
    exact htexts.alone htext
  obtain ⟨options, hoptions, hrepeats⟩ :=
    exists_options resolved_of_itemNode htexts.nonempty halone h
  refine ⟨options, hoptions, fun texts' hr => ?_⟩
  rcases hrepeats texts' hr with rfl | ⟨hne, hfits, nodes', hnodes, hsame⟩
  · -- nothing is repeated
    rw [result_resolveBlock_arrayOf htexts h, ← hoptions.first]
  · have hitems : AreItems texts' :=
      ⟨hne, fun text htext => (hfits text htext).2, fun hempty => absurd rfl (hfits [] hempty).1⟩
    rw [result_resolveBlock_arrayOf hitems hnodes, hsame]

end Arrays

end ApiOutline.Shape
