/-!
# Attempts

Computations that may fail, taken apart: what is known of the parts of one that
succeeds.
-/

namespace ImportAtlas

variable {ε ε' α β γ : Type}

@[simp] theorem pure_eq_ok {a b : α} : (pure a : Except ε α) = .ok b ↔ a = b := by
  simp [pure, Except.pure]

@[simp] theorem throw_ne_ok {e : ε} {a : α} : (throw e : Except ε α) ≠ .ok a := by
  simp [throw, throwThe, MonadExceptOf.throw]

@[simp] theorem bind_eq_ok {x : Except ε α} {f : α → Except ε β} {b : β} :
    (x >>= f) = .ok b ↔ ∃ a, x = .ok a ∧ f a = .ok b := by
  cases x <;> simp [bind, Except.bind]

@[simp] theorem map_eq_ok {x : Except ε α} {f : α → β} {b : β} : x.map f = .ok b ↔ ∃ a, x = .ok a ∧ f a = b := by
  cases x <;> simp [Except.map]

@[simp] theorem fmap_eq_ok {x : Except ε α} {f : α → β} {b : β} : f <$> x = .ok b ↔ ∃ a, x = .ok a ∧ f a = b :=
  map_eq_ok

@[simp] theorem mapError_eq_ok {x : Except ε α} {f : ε → ε'} {a : α} : x.mapError f = .ok a ↔ x = .ok a := by
  cases x with
  | error e => exact ⟨nofun, nofun⟩
  | ok b =>
    constructor <;>
    · intro h
      cases h
      rfl

/-- Two attempts, one after the other, succeed if each of them does. -/
theorem both_succeed (x : Except ε α) (y : Except ε β) (f : α → β → γ) :
    (∃ c, (do return f (← x) (← y) : Except ε γ) = .ok c) ↔ (∃ a, x = .ok a) ∧ ∃ b, y = .ok b := by
  simp only [bind_eq_ok, pure_eq_ok]
  constructor
  · rintro ⟨_, a, ha, b, hb, -⟩
    exact ⟨⟨a, ha⟩, b, hb⟩
  · rintro ⟨⟨a, ha⟩, b, hb⟩
    exact ⟨_, a, ha, b, hb, rfl⟩

/-- What every step keeps, a row of steps keeps. -/
theorem foldlM_keeps {P : α → Prop} {f : α → β → Option α} (hf : ∀ a x b, P a → f a x = some b → P b) {xs : List β}
    {a b : α} (h : P a) (hxs : xs.foldlM f a = some b) : P b := by
  induction xs generalizing a with
  | nil =>
    cases hxs
    exact h
  | cons x xs ih =>
    rw [List.foldlM_cons] at hxs
    obtain ⟨c, hfirst, hrest⟩ := Option.bind_eq_some_iff.1 hxs
    exact ih (hf a x c h hfirst) hrest

end ImportAtlas
