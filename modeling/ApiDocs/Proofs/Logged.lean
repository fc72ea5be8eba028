import ApiDocs.Logged

/-!
# Computations that succeed and that fail

A sequence of computations succeeds when every step of it does, and another error in the place of the
one that stopped a computation makes no difference to success.  It fails with the error of the step
that stopped it.

* `bind_eq_ok_iff`, `mapError_eq_ok_iff`, `exists_eq_ok_of_isOk`, `eq_ok_of_toOption`: without a log;
* `Logged.bind_eq_ok_iff`: with a log;
* `FailsOnly`: every error that a computation may stop with is of some kind.
-/

namespace ApiDocs

variable {ε δ σ α β : Type}

theorem bind_eq_ok_iff {x : Except ε α} {f : α → Except ε β} {b : β} :
    x >>= f = .ok b ↔ ∃ a, x = .ok a ∧ f a = .ok b := by
  cases x with
  | error e =>
    constructor
    · intro h
      cases h
    · rintro ⟨a, h, -⟩
      cases h
  | ok a =>
    constructor
    · intro h
      exact ⟨a, rfl, h⟩
    · rintro ⟨a', h, h'⟩
      cases h
      exact h'

theorem mapError_eq_ok_iff {x : Except ε α} {f : ε → δ} {a : α} :
    x.mapError f = .ok a ↔ x = .ok a := by
  cases x with
  | error e =>
    constructor
    · intro h
      cases h
    · intro h
      cases h
  | ok a' =>
    show Except.ok a' = Except.ok a ↔ Except.ok a' = Except.ok a
    rw [Except.ok.injEq, Except.ok.injEq]

theorem exists_eq_ok_of_isOk {x : Except ε α} (h : x.isOk = true) : ∃ a, x = .ok a := by
  cases x with
  | error e => cases h
  | ok a => exact ⟨a, rfl⟩

theorem eq_ok_of_toOption {x : Except ε α} {a : α} (h : x.toOption = some a) : x = .ok a := by
  cases x with
  | error e => cases h
  | ok a' =>
    cases h
    rfl

theorem Logged.bind_eq_ok_iff {x : Logged ε σ α} {f : α → Logged ε σ β} {b : β} :
    (x >>= f).outcome = .ok b ↔ ∃ a, x.outcome = .ok a ∧ (f a).outcome = .ok b := by
  rw [outcome_bind]
  exact ApiDocs.bind_eq_ok_iff

/-! ## Errors -/

/-- Every error of a computation is of some kind. -/
def FailsOnly (x : Except ε α) (P : ε → Prop) : Prop := ∀ e, x = .error e → P e

section
variable {P : ε → Prop}

theorem failsOnly_ok (a : α) : FailsOnly (.ok a) P := by
  intro e he
  cases he

theorem failsOnly_error {e : ε} (h : P e) : FailsOnly (.error e : Except ε α) P := by
  intro e' he
  cases he
  exact h

theorem FailsOnly.mono {Q : ε → Prop} {x : Except ε α} (h : FailsOnly x P) (hPQ : ∀ e, P e → Q e) :
    FailsOnly x Q := fun e he => hPQ e (h e he)

theorem FailsOnly.bind {x : Except ε α} {f : α → Except ε β} (hx : FailsOnly x P)
    (hf : ∀ a, x = .ok a → FailsOnly (f a) P) : FailsOnly (x >>= f) P := by
  cases x with
  | error e => exact failsOnly_error (hx e rfl)
  | ok a => exact hf a rfl

theorem FailsOnly.mapError {Q : δ → Prop} {x : Except ε α} {f : ε → δ} (hx : FailsOnly x P)
    (hf : ∀ e, P e → Q (f e)) : FailsOnly (x.mapError f) Q := by
  cases x with
  | error e => exact failsOnly_error (hf e (hx e rfl))
  | ok a => exact failsOnly_ok a

theorem failsOnly_mapError {x : Except ε α} {f : ε → δ} {Q : δ → Prop} (hf : ∀ e, Q (f e)) :
    FailsOnly (x.mapError f) Q := by
  cases x with
  | error e => exact failsOnly_error (hf e)
  | ok a => exact failsOnly_ok a

theorem failsOnly_mapM {f : α → Except ε β} {as : List α} (h : ∀ a ∈ as, FailsOnly (f a) P) :
    FailsOnly (as.mapM f) P := by
  induction as with
  | nil => exact failsOnly_ok []
  | cons a as ih =>
    rw [List.forall_mem_cons] at h
    rw [List.mapM_cons]
    exact h.1.bind fun _ _ => (ih h.2).bind fun _ _ => failsOnly_ok _

end

end ApiDocs
