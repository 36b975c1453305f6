/-
ApiOutline/Text/Cut.lean

Cutting text at a separator.

Design.  `cut` splits at the first separator and drops it; `pieces` splits at
all of them.  Both are inverted by putting the separator back, which is what
fixes them: `cut_of_not_mem`, `cut_append` and `pieces_join`.  What is cut out of
a text holds nothing that the text has not, and no separator.
-/

namespace ApiOutline.Text

/-- The text before the first separator and the text after it; without a separator all the text
and nothing. -/
def cut (sep : Char) : List Char → List Char × List Char
  | [] => ([], [])
  | c :: cs => if c = sep then ([], cs) else (c :: (cut sep cs).1, (cut sep cs).2)

/-- The texts between the separators: always one more than there are separators. -/
def pieces (sep : Char) : List Char → List (List Char)
  | [] => [[]]
  | c :: cs =>
    if c = sep then [] :: pieces sep cs
    else
      match pieces sep cs with
      | [] => [[c]]
      | p :: ps => (c :: p) :: ps

/-- The texts, joined by the separator. -/
def join (sep : Char) : List (List Char) → List Char
  | [] => []
  | [p] => p
  | p :: q :: ps => p ++ sep :: join sep (q :: ps)

/-! ### Cutting and joining -/

/-- Without the separator nothing is cut off. -/
theorem cut_of_not_mem {sep : Char} {cs : List Char} (h : sep ∉ cs) : cut sep cs = (cs, []) := by
  induction cs with
  | nil => rfl
  | cons c cs ih =>
    simp only [List.mem_cons, not_or] at h
    simp [cut, Ne.symm h.1, ih h.2]

/-- The first separator is where the text is cut. -/
theorem cut_append {sep : Char} {a : List Char} (h : sep ∉ a) (b : List Char) :
    cut sep (a ++ sep :: b) = (a, b) := by
  induction a with
  | nil => simp [cut]
  | cons c a ih =>
    simp only [List.mem_cons, not_or] at h
    simp [cut, Ne.symm h.1, ih h.2]

/-- Where there is a separator, the two parts around the first one make up the text. -/
theorem append_cut {sep : Char} {cs : List Char} (h : sep ∈ cs) :
    (cut sep cs).1 ++ sep :: (cut sep cs).2 = cs := by
  induction cs with
  | nil => cases h
  | cons c cs ih =>
    by_cases hc : c = sep
    · simp [cut, hc]
    · have hcs : sep ∈ cs := by simpa [Ne.symm hc] using h
      simp [cut, hc, ih hcs]

theorem pieces_ne_nil (sep : Char) (cs : List Char) : pieces sep cs ≠ [] := by
  cases cs with
  | nil => simp [pieces]
  | cons c cs =>
    unfold pieces
    split
    · simp
    · split <;> simp

/-- A text without the separator is one piece. -/
theorem pieces_of_not_mem {sep : Char} {cs : List Char} (h : sep ∉ cs) : pieces sep cs = [cs] := by
  induction cs with
  | nil => rfl
  | cons c cs ih =>
    simp only [List.mem_cons, not_or] at h
    simp [pieces, Ne.symm h.1, ih h.2]

/-- Splitting stops a piece at the separator. -/
theorem pieces_append {sep : Char} {a : List Char} (h : sep ∉ a) (b : List Char) :
    pieces sep (a ++ sep :: b) = a :: pieces sep b := by
  induction a with
  | nil => simp [pieces]
  | cons c a ih =>
    simp only [List.mem_cons, not_or] at h
    simp [pieces, Ne.symm h.1, ih h.2]

/-- Joined texts that hold no separator come apart again. -/
theorem pieces_join {sep : Char} {ps : List (List Char)} (hne : ps ≠ [])
    (h : ∀ p ∈ ps, sep ∉ p) : pieces sep (join sep ps) = ps := by
  induction ps with
  | nil => exact absurd rfl hne
  | cons p ps ih =>
    cases ps with
    | nil => exact pieces_of_not_mem (h p (by simp))
    | cons q ps =>
      rw [join, pieces_append (h p (by simp)), ih (by simp) fun r hr => h r (by simp [hr])]

/-- A character of a joined text comes from one of the texts or from between them. -/
theorem mem_join {sep c : Char} {ps : List (List Char)} (h : c ∈ join sep ps) :
    (∃ p ∈ ps, c ∈ p) ∨ c = sep := by
  induction ps with
  | nil => cases h
  | cons p ps ih =>
    rcases ps with - | ⟨q, ps⟩
    · exact .inl ⟨p, List.mem_cons_self, h⟩
    · rw [join] at h
      rcases List.mem_append.mp h with h | h
      · exact .inl ⟨p, List.mem_cons_self, h⟩
      · rcases List.mem_cons.mp h with rfl | h
        · exact .inr rfl
        · exact (ih h).imp_left fun ⟨r, hr, hc⟩ => ⟨r, List.mem_cons_of_mem p hr, hc⟩

/-- The pieces, joined, are the text. -/
theorem join_pieces (sep : Char) (cs : List Char) : join sep (pieces sep cs) = cs := by
  induction cs with
  | nil => rfl
  | cons c cs ih =>
    rcases hp : pieces sep cs with - | ⟨p, ps⟩
    · exact absurd hp (pieces_ne_nil sep cs)
    · rw [hp] at ih
      by_cases h : c = sep
      · simp [pieces, h, hp, join, ih]
      · cases ps <;> simp_all [pieces, join]

/-! ### What cuts and pieces hold -/

section

variable {sep : Char}

theorem not_mem_cut (cs : List Char) : sep ∉ (cut sep cs).1 := by
  induction cs with
  | nil => simp [cut]
  | cons c cs ih =>
    rw [cut]
    split
    · simp
    · rename_i h
      simp [Ne.symm h, ih]

theorem mem_of_mem_cut {c : Char} {cs : List Char}
    (h : c ∈ (cut sep cs).1 ∨ c ∈ (cut sep cs).2) : c ∈ cs := by
  induction cs with
  | nil => simp [cut] at h
  | cons d cs ih =>
    rw [cut] at h
    split at h
    · rcases h with h | h
      · cases h
      · exact List.mem_cons_of_mem d h
    · rcases h with h | h
      · rcases List.mem_cons.mp h with rfl | h
        · exact List.mem_cons_self
        · exact List.mem_cons_of_mem d (ih (.inl h))
      · exact List.mem_cons_of_mem d (ih (.inr h))

theorem not_mem_of_mem_pieces (cs : List Char) : ∀ p ∈ pieces sep cs, sep ∉ p := by
  induction cs with
  | nil => simp [pieces]
  | cons c cs ih =>
    rw [pieces]
    split
    · intro p hp
      rcases List.mem_cons.mp hp with rfl | hp
      · simp
      · exact ih p hp
    · rename_i hc
      rcases hps : pieces sep cs with - | ⟨q, qs⟩
      · exact absurd hps (pieces_ne_nil sep cs)
      · rw [hps] at ih
        intro p hp
        rcases List.mem_cons.mp hp with rfl | hp
        · simp [Ne.symm hc, ih q List.mem_cons_self]
        · exact ih p (List.mem_cons_of_mem q hp)

/-- What has no separator stays in front of the first piece. -/
theorem cut_append_left {w : List Char} (h : sep ∉ w) (cs : List Char) :
    cut sep (w ++ cs) = (w ++ (cut sep cs).1, (cut sep cs).2) := by
  induction w with
  | nil => rfl
  | cons d w ih =>
    simp only [List.mem_cons, not_or] at h
    simp [cut, Ne.symm h.1, ih h.2]

theorem pieces_append_left {w : List Char} (h : sep ∉ w) {cs p : List Char} {ps : List (List Char)}
    (e : pieces sep cs = p :: ps) : pieces sep (w ++ cs) = (w ++ p) :: ps := by
  induction w with
  | nil => exact e
  | cons d w ih =>
    simp only [List.mem_cons, not_or] at h
    simp [pieces, Ne.symm h.1, ih h.2]

/-- What stands in front of a text, as long as a property holds that the separator has not, is not
changed by cutting the text. -/
theorem takeWhile_cut {p : Char → Bool} (hs : p sep = false) (cs : List Char) :
    (cut sep cs).1.takeWhile p = cs.takeWhile p := by
  induction cs with
  | nil => rfl
  | cons c cs ih =>
    by_cases h : c = sep
    · subst h
      simp [cut, hs]
    · simp [cut, h, List.takeWhile_cons, ih]

theorem takeWhile_pieces {p : Char → Bool} (hs : p sep = false) {cs first : List Char}
    {ps : List (List Char)} (h : pieces sep cs = first :: ps) :
    first.takeWhile p = cs.takeWhile p := by
  induction cs generalizing first ps with
  | nil =>
    obtain ⟨rfl, rfl⟩ := List.cons.inj h
    rfl
  | cons c cs ih =>
    rw [pieces] at h
    split at h
    · rename_i hc
      obtain ⟨rfl, rfl⟩ := List.cons.inj h
      simp [hc, hs]
    · rcases hp : pieces sep cs with - | ⟨q, qs⟩
      · exact absurd hp (pieces_ne_nil sep cs)
      · rw [hp] at h
        obtain ⟨rfl, rfl⟩ := List.cons.inj h
        simp [List.takeWhile_cons, ih hp]

end

end ApiOutline.Text
