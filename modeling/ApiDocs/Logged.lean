/-!
# Computations with a log

A computation that may fail and that keeps a log. What was logged before a failure stays.

* `Logged.outcome_bind`, `Logged.log_bind`: the outcome of a sequence is the sequence of outcomes,
  and its log is one log behind the other as far as the computation comes.
-/

namespace ApiDocs

/-- A result or an error, and the entries logged on the way. -/
structure Logged (ε σ α : Type) where
  log : List σ
  outcome : Except ε α

namespace Logged

variable {ε σ α β : Type}

instance : Monad (Logged ε σ) where
  pure a := ⟨[], .ok a⟩
  bind x f :=
    match x.outcome with
    | .error e => ⟨x.log, .error e⟩
    | .ok a => ⟨x.log ++ (f a).log, (f a).outcome⟩

/-- Logs an entry. -/
def emit (entry : σ) : Logged ε σ Unit := ⟨[entry], .ok ()⟩

/-- Logs several entries. -/
def emitAll (entries : List σ) : Logged ε σ Unit := ⟨entries, .ok ()⟩

/-- A result or an error without a log. -/
def ofExcept (x : Except ε α) : Logged ε σ α := ⟨[], x⟩

instance : MonadExcept ε (Logged ε σ) where
  throw e := ⟨[], .error e⟩
  tryCatch x handler :=
    match x.outcome with
    | .error e => ⟨x.log ++ (handler e).log, (handler e).outcome⟩
    | .ok _ => x

/-- Another error in the place of the one that stopped the computation. -/
def mapError {δ : Type} (f : ε → δ) (x : Logged ε σ α) : Logged δ σ α := ⟨x.log, x.outcome.mapError f⟩

@[simp] theorem outcome_pure (a : α) : (pure a : Logged ε σ α).outcome = .ok a := rfl

@[simp] theorem log_pure (a : α) : (pure a : Logged ε σ α).log = [] := rfl

@[simp] theorem outcome_emit (entry : σ) : (emit entry : Logged ε σ Unit).outcome = .ok () := rfl

@[simp] theorem outcome_emitAll (entries : List σ) :
    (emitAll entries : Logged ε σ Unit).outcome = .ok () := rfl

@[simp] theorem outcome_ofExcept (x : Except ε α) : (ofExcept x : Logged ε σ α).outcome = x := rfl

@[simp] theorem outcome_throw (e : ε) : (throw e : Logged ε σ α).outcome = .error e := rfl

@[simp] theorem outcome_mapError {δ : Type} (f : ε → δ) (x : Logged ε σ α) :
    (x.mapError f).outcome = x.outcome.mapError f := rfl

/-- The outcome of a sequence is the sequence of the outcomes. -/
@[simp] theorem outcome_bind (x : Logged ε σ α) (f : α → Logged ε σ β) :
    (x >>= f).outcome = x.outcome >>= fun a => (f a).outcome := by
  obtain ⟨log, outcome⟩ := x
  cases outcome <;> rfl

/-- The log of a sequence that goes on is one log behind the other. -/
theorem log_bind {x : Logged ε σ α} {a : α} (h : x.outcome = .ok a) (f : α → Logged ε σ β) :
    (x >>= f).log = x.log ++ (f a).log := by
  obtain ⟨log, outcome⟩ := x
  subst h
  rfl

end Logged

end ApiDocs
