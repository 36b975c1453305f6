/-
ApiOutline/Traced.lean

Computations that may fail and that leave notes on the way.

Design.  A traced computation is the pair of the notes it made and its
result.  Sequencing appends the notes; a failure keeps those made before it.
Forgetting the notes respects sequencing (`result_bind`), so every law about
results can be stated without them.
-/

namespace ApiOutline

universe u

/-! ### Results in sequence -/

section Except

variable {ε : Type} {α β : Type u} {x : Except ε α} {f : α → Except ε β}

/-- Two computations in sequence succeed exactly when both do. -/
theorem bind_eq_ok_iff {b : β} : x >>= f = .ok b ↔ ∃ a, x = .ok a ∧ f a = .ok b := by
  rcases x with e | a
  · exact ⟨fun h => (by cases h), fun ⟨_, h, _⟩ => (by cases h)⟩
  · exact ⟨fun h => ⟨a, rfl, h⟩, fun ⟨_, h, hb⟩ => (by cases h; exact hb)⟩

/-- The first computation fails, or the second one does on its result. -/
theorem bind_eq_error_iff {e : ε} :
    x >>= f = .error e ↔ x = .error e ∨ ∃ a, x = .ok a ∧ f a = .error e := by
  rcases x with e' | a
  · refine ⟨fun h => Or.inl (by cases h; rfl), ?_⟩
    rintro (h | ⟨_, h, _⟩)
    · cases h; rfl
    · cases h
  · refine ⟨fun h => Or.inr ⟨a, rfl, h⟩, ?_⟩
    rintro (h | ⟨_, h, he⟩)
    · cases h
    · cases h; exact he

end Except

/-! ### Traced computations -/

/-- A result or an error, and the notes made on the way to it. -/
structure Traced (ν ε : Type) (α : Type u) where
  notes : List ν
  result : Except ε α

namespace Traced

variable {ν ε : Type} {α β : Type u}

/-- Runs the second computation on the first one's result, unless that is an error. -/
protected def bind (x : Traced ν ε α) (f : α → Traced ν ε β) : Traced ν ε β :=
  match x.result with
  | .ok a => ⟨x.notes ++ (f a).notes, (f a).result⟩
  | .error e => ⟨x.notes, .error e⟩

instance : Monad (Traced ν ε) where
  pure a := ⟨[], .ok a⟩
  bind := Traced.bind

/-- Fails with an error. -/
def fail (e : ε) : Traced ν ε α := ⟨[], .error e⟩

/-- Leaves one note. -/
def note (n : ν) : Traced ν ε Unit := ⟨[n], .ok ()⟩

/-- A computation that leaves no notes. -/
def ofExcept (r : Except ε α) : Traced ν ε α := ⟨[], r⟩

/-- Reads the error in another way. -/
def mapError {ε' : Type} (f : ε → ε') (x : Traced ν ε α) : Traced ν ε' α :=
  ⟨x.notes, x.result.mapError f⟩

/-! ### Results without the notes -/

@[simp] theorem result_pure (a : α) : (pure a : Traced ν ε α).result = .ok a := rfl

@[simp] theorem result_bind (x : Traced ν ε α) (f : α → Traced ν ε β) :
    (x >>= f).result = x.result >>= fun a => (f a).result := by
  obtain ⟨n, r⟩ := x
  cases r <;> rfl

/-- Two computations in sequence succeed exactly when both do. -/
theorem result_bind_eq_ok_iff {x : Traced ν ε α} {f : α → Traced ν ε β} {b : β} :
    (x >>= f).result = .ok b ↔ ∃ a, x.result = .ok a ∧ (f a).result = .ok b := by
  rw [result_bind, bind_eq_ok_iff]

/-- The first computation fails, or the second one does on its result. -/
theorem result_bind_eq_error_iff {x : Traced ν ε α} {f : α → Traced ν ε β} {e : ε} :
    (x >>= f).result = .error e ↔
      x.result = .error e ∨ ∃ a, x.result = .ok a ∧ (f a).result = .error e := by
  rw [result_bind, bind_eq_error_iff]

@[simp] theorem result_map (f : α → β) (x : Traced ν ε α) :
    (f <$> x).result = f <$> x.result := by
  obtain ⟨n, r⟩ := x
  cases r <;> rfl

@[simp] theorem result_fail (e : ε) : (fail e : Traced ν ε α).result = .error e := rfl

@[simp] theorem result_note (n : ν) : (note n : Traced ν ε Unit).result = .ok () := rfl

@[simp] theorem result_ofExcept (r : Except ε α) : (ofExcept r : Traced ν ε α).result = r := rfl

@[simp] theorem result_mapError {ε' : Type} (f : ε → ε') (x : Traced ν ε α) :
    (x.mapError f).result = x.result.mapError f := rfl

theorem result_map_eq_ok_iff {f : α → β} {x : Traced ν ε α} {b : β} :
    (f <$> x).result = .ok b ↔ ∃ a, x.result = .ok a ∧ f a = b := by
  rw [result_map]
  rcases x.result with e | a
  · exact ⟨fun h => (by cases h), fun ⟨_, h, _⟩ => (by cases h)⟩
  · exact ⟨fun h => ⟨a, rfl, Except.ok.inj h⟩, fun ⟨_, h, hb⟩ => (by cases h; exact congrArg _ hb)⟩

/-- How an error is read does not matter where there is none. -/
theorem result_mapError_eq_ok_iff {ε' : Type} {f : ε → ε'} {x : Traced ν ε α} {a : α} :
    (x.mapError f).result = .ok a ↔ x.result = .ok a := by
  rw [result_mapError]
  rcases x.result with e | a'
  · exact ⟨fun h => (by cases h), fun h => (by cases h)⟩
  · exact ⟨fun h => congrArg Except.ok (Except.ok.inj h),
      fun h => congrArg Except.ok (Except.ok.inj h)⟩

instance : LawfulMonad (Traced ν ε) :=
  LawfulMonad.mk' (Traced ν ε)
    (by rintro α ⟨n, r⟩; cases r <;> simp [Functor.map, Traced.bind])
    (by intro α β a f; simp [bind, Traced.bind, pure])
    (by
      rintro α β γ ⟨n, r⟩ f g
      cases r with
      | error e => rfl
      | ok a => rcases h : (f a).result with e | b <;> simp [bind, Traced.bind, h])

/-- What every step keeps, a run that gives a result keeps. -/
theorem preserves_foldlM {P : β → Prop} {step : β → α → Traced ν ε β} {as : List α}
    (hstep : ∀ a ∈ as, ∀ b b', P b → (step b a).result = .ok b' → P b') {b b' : β} (hb : P b)
    (h : (as.foldlM step b).result = .ok b') : P b' := by
  induction as generalizing b with
  | nil =>
    obtain rfl := Except.ok.inj h
    exact hb
  | cons a as ih =>
    rw [List.foldlM_cons, result_bind_eq_ok_iff] at h
    obtain ⟨c, hc, h⟩ := h
    exact ih (fun a' ha' => hstep a' (List.mem_cons_of_mem _ ha'))
      (hstep a List.mem_cons_self b c hb hc) h

end Traced

end ApiOutline
