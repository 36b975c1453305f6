/-
ApiOutline/Proofs/Acceptance.lean

What a check that accepts a value says of its parts.

Design.  Checks are put together by the applicative operations, and a check that is put
together accepts only what its parts accept (`Checked.seq_eq_accepted_iff`).  So what is
known of an accepted part is known inside the whole: here, that each declaration of
parameters in an accepted manifest is a text or a mapping
(`Manifest.declares_of_check`).
-/
import ApiOutline.Manifest.Basic

namespace ApiOutline

namespace Checked

variable {α β : Type}

theorem seq_eq_accepted_iff {f : Checked (α → β)} {x : Checked α} {b : β} :
    f <*> x = .accepted b ↔ ∃ g a, f = .accepted g ∧ x = .accepted a ∧ g a = b := by
  show Checked.seq f (fun _ => x) = _ ↔ _
  rcases f with g | ps <;> rcases x with a | qs <;> simp [Checked.seq]

theorem map_eq_accepted_iff {g : α → β} {x : Checked α} {b : β} :
    g <$> x = .accepted b ↔ ∃ a, x = .accepted a ∧ g a = b := by
  show (Checked.accepted g <*> x) = _ ↔ _
  simp [seq_eq_accepted_iff]

theorem inside_eq_accepted_iff {segment : Segment} {x : Checked α} {a : α} :
    inside segment x = .accepted a ↔ x = .accepted a := by
  cases x <;> simp [inside]

theorem whole_eq_accepted_iff {x : Checked α} {a : α} :
    whole x = .accepted a ↔ x = .accepted a := by
  cases x <;> simp [whole, refuse]

/-- All checks together accept what each accepts. -/
theorem exists_of_mem_all {xs : List (Checked α)} {as : List α} (h : all xs = .accepted as)
    {a : α} (ha : a ∈ as) : .accepted a ∈ xs := by
  induction xs generalizing as with
  | nil =>
    obtain rfl := Checked.accepted.inj h
    cases ha
  | cons x xs ih =>
    obtain ⟨g, bs, hg, hbs, rfl⟩ := seq_eq_accepted_iff.mp h
    obtain ⟨b, rfl, rfl⟩ := map_eq_accepted_iff.mp hg
    rcases List.mem_cons.mp ha with rfl | ha
    · exact List.mem_cons_self
    · exact List.mem_cons_of_mem _ (ih hbs ha)

theorem exists_of_mem_itemsFrom {check : Data → Checked α} {number : Int} {vs : List Data}
    {as : List α} (h : itemsFrom check number vs = .accepted as) {a : α} (ha : a ∈ as) :
    ∃ v, check v = .accepted a := by
  induction vs generalizing number as with
  | nil =>
    obtain rfl := Checked.accepted.inj h
    cases ha
  | cons v vs ih =>
    obtain ⟨g, bs, hg, hbs, rfl⟩ := seq_eq_accepted_iff.mp h
    obtain ⟨b, hb, rfl⟩ := map_eq_accepted_iff.mp hg
    rcases List.mem_cons.mp ha with rfl | ha
    · exact ⟨v, inside_eq_accepted_iff.mp hb⟩
    · exact ih hbs ha

/-- An item of an accepted list is accepted. -/
theorem exists_of_mem_list {check : Data → Checked α} {v : Data} {as : List α}
    (h : list check v = .accepted as) {a : α} (ha : a ∈ as) : ∃ v, check v = .accepted a := by
  cases v with
  | list vs => exact exists_of_mem_itemsFrom h ha
  | _ => cases h

/-- A field that may be left out has its default, or a value that is accepted. -/
theorem optional_eq_accepted {es : List (Data × Data)} {name : String} {default a : α}
    {check : Data → Checked α} (h : optional es name default check = .accepted a) :
    a = default ∨ ∃ v, check v = .accepted a := by
  rw [optional] at h
  split at h
  · exact .inr ⟨_, inside_eq_accepted_iff.mp h⟩
  · exact .inl (Checked.accepted.inj h).symm

/-- A value that is accepted where null may stand is accepted without that. -/
theorem nullable_eq_accepted {check : Data → Checked α} {v : Data} {a : α}
    (h : nullable check v = .accepted (some a)) : check v = .accepted a := by
  unfold nullable at h
  split at h
  · cases h
  · obtain ⟨b, hb, hsome⟩ := map_eq_accepted_iff.mp h
    rwa [Option.some.inj hsome] at hb

end Checked

/-! ### Declarations -/

/-- The value can declare a parameter: it is a text or a mapping. -/
def Data.IsDeclaration : Data → Prop
  | .text _ => True
  | .map _ => True
  | _ => False

namespace Options

theorem isDeclaration_of_checkDeclaration {v d : Data} (h : checkDeclaration v = .accepted d) :
    d.IsDeclaration := by
  unfold checkDeclaration at h
  split at h
  · obtain rfl := Checked.accepted.inj h
    trivial
  · obtain ⟨s, -, rfl⟩ := Checked.map_eq_accepted_iff.mp h
    trivial

/-- What accepted declarations hold can declare parameters. -/
theorem isDeclaration_of_checkDeclarations {v d : Data} (h : checkDeclarations v = .accepted d) :
    ∀ x ∈ Parameter.split d, x.IsDeclaration := by
  unfold checkDeclarations at h
  split at h
  · rename_i vs
    obtain ⟨ds, hds, rfl⟩ := Checked.map_eq_accepted_iff.mp h
    intro x hx
    have hall := Checked.exists_of_mem_all (Checked.whole_eq_accepted_iff.mp hds) hx
    obtain ⟨v, -, hv⟩ := List.mem_map.mp hall
    exact isDeclaration_of_checkDeclaration hv
  · obtain ⟨s, -, rfl⟩ := Checked.map_eq_accepted_iff.mp h
    intro x hx
    obtain ⟨p, -, rfl⟩ := List.mem_map.mp hx
    trivial

/-- The options have declarations in them that can declare parameters. -/
structure Declares (o : Options) : Prop where
  query : ∀ d ∈ o.query, ∀ x ∈ Parameter.split d, x.IsDeclaration
  header : ∀ d ∈ o.header, ∀ x ∈ Parameter.split d, x.IsDeclaration

theorem declares_of_ofFields {es : List (Data × Data)} {o : Options}
    (h : ofFields es = .accepted o) : o.Declares := by
  have hfield : ∀ {name : String} {d : Option Data},
      Checked.optional es name none (Checked.nullable checkDeclarations) = .accepted d →
        ∀ d' ∈ d, ∀ x ∈ Parameter.split d', x.IsDeclaration := by
    rintro name d hd d' rfl
    rcases Checked.optional_eq_accepted hd with hnone | ⟨v, hv⟩
    · cases hnone
    · exact isDeclaration_of_checkDeclarations (Checked.nullable_eq_accepted hv)
  -- the fields, from the last to the first
  obtain ⟨_, responses, h₈, -, rfl⟩ := Checked.seq_eq_accepted_iff.mp h
  obtain ⟨_, deprecated, h₇, -, rfl⟩ := Checked.seq_eq_accepted_iff.mp h₈
  obtain ⟨_, security, h₆, -, rfl⟩ := Checked.seq_eq_accepted_iff.mp h₇
  obtain ⟨_, header, h₅, hheader, rfl⟩ := Checked.seq_eq_accepted_iff.mp h₆
  obtain ⟨_, query, h₄, hquery, rfl⟩ := Checked.seq_eq_accepted_iff.mp h₅
  obtain ⟨_, req, h₃, -, rfl⟩ := Checked.seq_eq_accepted_iff.mp h₄
  obtain ⟨_, desc, h₂, -, rfl⟩ := Checked.seq_eq_accepted_iff.mp h₃
  obtain ⟨_, summary, h₁, -, rfl⟩ := Checked.seq_eq_accepted_iff.mp h₂
  obtain ⟨tag, -, rfl⟩ := Checked.map_eq_accepted_iff.mp h₁
  exact ⟨hfield hquery, hfield hheader⟩

end Options

/-- The routes of an accepted manifest have declarations that can declare parameters. -/
theorem Manifest.declares_of_check {v : Data} {m : Manifest} (h : check v = .accepted m) :
    ∀ e ∈ m.routes, e.options.Declares := by
  cases v with
  | map es =>
    obtain ⟨_, routes, h₆, hroutes, rfl⟩ := Checked.seq_eq_accepted_iff.mp h
    obtain ⟨_, schemas, h₅, -, rfl⟩ := Checked.seq_eq_accepted_iff.mp h₆
    obtain ⟨_, security, h₄, -, rfl⟩ := Checked.seq_eq_accepted_iff.mp h₅
    obtain ⟨_, tags, h₃, -, rfl⟩ := Checked.seq_eq_accepted_iff.mp h₄
    obtain ⟨_, servers, h₂, -, rfl⟩ := Checked.seq_eq_accepted_iff.mp h₃
    obtain ⟨_, version, h₁, -, rfl⟩ := Checked.seq_eq_accepted_iff.mp h₂
    obtain ⟨title, -, rfl⟩ := Checked.map_eq_accepted_iff.mp h₁
    intro e he
    rcases Checked.optional_eq_accepted hroutes with rfl | ⟨w, hw⟩
    · cases he
    obtain ⟨w, hentry⟩ := Checked.exists_of_mem_list hw he
    cases w with
    | map fields =>
      obtain ⟨_, method, hpath, -, rfl⟩ := Checked.seq_eq_accepted_iff.mp hentry
      obtain ⟨_, path, hmk, -, rfl⟩ := Checked.seq_eq_accepted_iff.mp hpath
      obtain ⟨options, hoptions, rfl⟩ := Checked.map_eq_accepted_iff.mp hmk
      exact Options.declares_of_ofFields hoptions
    | _ => cases hentry
  | _ => cases h

end ApiOutline
