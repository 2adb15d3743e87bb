namespace Except

variable {ε α β : Type}

theorem map_eq_ok_iff {x : Except ε α} {f : α → β} {b : β} :
    x.map f = .ok b ↔ ∃ a, x = .ok a ∧ f a = b := by
  cases x <;> simp [Except.map]

theorem map_eq_error_iff {x : Except ε α} {f : α → β} {e : ε} :
    x.map f = .error e ↔ x = .error e := by
  cases x <;> simp [Except.map]

theorem bind_eq_ok_iff {x : Except ε α} {f : α → Except ε β} {b : β} :
    x.bind f = .ok b ↔ ∃ a, x = .ok a ∧ f a = .ok b := by
  cases x <;> simp [Except.bind]

theorem mapError_eq_ok_iff {δ : Type} {x : Except δ α} {f : δ → ε} {a : α} :
    x.mapError f = .ok a ↔ x = .ok a := by
  cases x with
  | ok b =>
      show (.ok b : Except ε α) = .ok a ↔ _
      rw [ok.injEq, ok.injEq]
  | error e =>
      show (.error (f e) : Except ε α) = .ok a ↔ _
      simp

theorem isOk_iff {x : Except ε α} : x.isOk = true ↔ ∃ a, x = .ok a := by
  cases x <;> simp [Except.isOk, Except.toBool]

def FailsWithin (p : ε → Prop) (x : Except ε α) : Prop := ∀ e, x = .error e → p e

variable {p : ε → Prop}

theorem failsWithin_ok (a : α) : FailsWithin p (.ok a) := by
  rintro _ ⟨⟩

theorem failsWithin_error {e : ε} (h : p e) : FailsWithin (α := α) p (.error e) :=
  fun _ he => Except.error.inj he ▸ h

theorem FailsWithin.map {x : Except ε α} (h : FailsWithin p x) (f : α → β) :
    FailsWithin p (x.map f) := by
  cases x with
  | ok a => exact failsWithin_ok _
  | error e => exact failsWithin_error (h e rfl)

theorem FailsWithin.bind {x : Except ε α} (h : FailsWithin p x) {f : α → Except ε β}
    (hf : ∀ a, x = .ok a → FailsWithin p (f a)) : FailsWithin p (x.bind f) := by
  cases x with
  | ok a => exact hf a rfl
  | error e => exact failsWithin_error (h e rfl)

theorem FailsWithin.mapError {δ : Type} {x : Except δ α} {f : δ → ε} (h : ∀ e, p (f e)) :
    FailsWithin p (x.mapError f) := by
  cases x with
  | ok a => exact failsWithin_ok a
  | error e => exact failsWithin_error (h e)

theorem FailsWithin.mono {q : ε → Prop} {x : Except ε α} (h : FailsWithin p x)
    (hpq : ∀ e, p e → q e) : FailsWithin q x := fun e he => hpq e (h e he)

end Except
