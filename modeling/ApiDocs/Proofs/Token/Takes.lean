import Mathlib.Data.List.Basic
import Mathlib.Data.List.TakeWhile
import ApiDocs.Token.Lexer

/-!
# What a token takes

The symbol that a token begins with settles its kind and how far it reaches: a sign stands for
itself, or twice if it is a mark, a digit and a letter begin a run, and every other symbol is a token
by itself.

* `Token.Takes`: what is taken behind a symbol, by the class of the symbol;
* `Token.takes_firstLexeme`: the lexer takes it;
* `Token.Takes.form`: what a token is made of, by its kind.
-/

namespace ApiDocs

open Text

namespace Token

/-! ## Signs -/

/-- The kinds of the characters that are tokens by themselves. -/
def punctuationKinds : List TokenKind := [.leftParen, .rightParen, .leftBracket, .rightBracket,
  .leftBrace, .rightBrace, .atSign, .period, .comma, .colon]

theorem mem_punctuationKinds {c : Char} {kind : TokenKind} (h : punctuation? c = some kind) :
    kind ∈ punctuationKinds := by
  rw [punctuation?.eq_def] at h
  split at h <;> cases h <;> decide

theorem doubling?_eq_some {c : Char} {single double : TokenKind}
    (h : doubling? c = some (single, double)) :
    (single = .sharp ∧ double = .doubleSharp) ∨ (single = .backtick ∧ double = .doubleBacktick) := by
  rw [doubling?] at h
  split at h
  · cases h
    exact .inl ⟨rfl, rfl⟩
  · split at h
    · cases h
      exact .inr ⟨rfl, rfl⟩
    · cases h

theorem eq_of_doubling? {c : Char} {kinds : TokenKind × TokenKind} (h : doubling? c = some kinds) :
    c = '#' ∨ c = graveAccent := by
  rw [doubling?] at h
  split at h
  · next hsharp => exact .inl (beq_iff_eq.mp hsharp)
  · split at h
    · next hgrave => exact .inr (beq_iff_eq.mp hgrave)
    · cases h

/-- The characters that are always a token by themselves. -/
def punctuation : List Char := ['(', ')', '[', ']', '{', '}', '@', '.', ',', ':']

theorem mem_punctuation {c : Char} {kind : TokenKind} (h : punctuation? c = some kind) :
    c ∈ punctuation := by
  rw [punctuation?.eq_def] at h
  split at h <;> first | decide | cases h

theorem forall_mem_punctuation {p : Char → Prop} [DecidablePred p]
    (h : punctuation.all fun c => p c) : ∀ c ∈ punctuation, p c := by
  intro c hc
  exact of_decide_eq_true (List.all_eq_true.mp h c hc)

theorem isSome_punctuation? : ∀ c ∈ punctuation, (punctuation? c).isSome = true :=
  forall_mem_punctuation (by decide)

/-- A character that stands in no token with one in front of it. -/
def EndsToken (c : Char) : Prop := isDigit c = false ∧ isNameRest c = false ∧ doubling? c = none

instance (c : Char) : Decidable (EndsToken c) := inferInstanceAs (Decidable (_ ∧ _))

/-- A character that is a token by itself whatever stands around it: it ends the token in front of it,
is not passed over and takes nothing of what follows. -/
def Separates (c : Char) : Prop := EndsToken c ∧ isSkipped (.char c) = false

instance (c : Char) : Decidable (Separates c) := inferInstanceAs (Decidable (_ ∧ _))

theorem separates_of_mem_punctuation : ∀ c ∈ punctuation, Separates c :=
  forall_mem_punctuation (by decide)

theorem endsToken_of_isSkipped {c : Char} (h : isSkipped (.char c) = true) : EndsToken c := by
  have hall : ∀ n < 0x20, EndsToken (Char.ofNat n) := by decide
  have hlt : c.toNat < 0x20 := of_decide_eq_true h
  rw [← Char.ofNat_toNat c]
  exact hall _ hlt

/-- A symbol is not passed over when it passes a test that no character that ends a token passes. -/
theorem isSkipped_eq_false_of_passes {p : Char → Bool} {y : Symbol}
    (hp : ∀ c, EndsToken c → p c = false) (hy : y.passes p = true) : isSkipped y = false := by
  cases y with
  | half place => rfl
  | char c =>
    rw [← Bool.not_eq_true]
    intro hskipped
    have hpasses : p c = true := hy
    rw [hp c (endsToken_of_isSkipped hskipped)] at hpasses
    cases hpasses

/-- The characters that are tokens by themselves or may be doubled. -/
def signs : List Char := '#' :: graveAccent :: punctuation

/-- The kinds of their tokens. -/
def signKinds : List TokenKind :=
  [.sharp, .doubleSharp, .backtick, .doubleBacktick] ++ punctuationKinds

theorem mem_signs_of_doubling? {c : Char} {kinds : TokenKind × TokenKind}
    (h : doubling? c = some kinds) : c ∈ signs := by
  rcases eq_of_doubling? h with rfl | rfl
  · exact List.mem_cons_self
  · exact List.mem_cons_of_mem _ List.mem_cons_self

/-- A sign is no part of a name and no digit. -/
theorem eq_false_of_mem_signs : ∀ c ∈ signs, isNameRest c = false ∧ isDigit c = false := by
  intro c hc
  rcases List.mem_cons.mp hc with rfl | hc
  · decide
  · rcases List.mem_cons.mp hc with rfl | hc
    · decide
    · have hends : EndsToken c := (separates_of_mem_punctuation c hc).1
      exact ⟨hends.2.1, hends.1⟩

/-! ## One token -/

/-- A symbol that begins no token of a known kind. -/
def IsStray (x : Symbol) : Prop :=
  x.passes isNameStart = false ∧ x.passes isDigit = false ∧ ∀ c ∈ signs, x ≠ .char c

/-- What is taken behind a symbol, and the kind of token it makes with it. -/
inductive Takes : TokenKind → Symbol → List Symbol → List Symbol → Prop
  | punctuation {c : Char} {kind : TokenKind} {rest : List Symbol} :
      punctuation? c = some kind → Takes kind (.char c) rest []
  | double {c : Char} {single kind : TokenKind} {rest : List Symbol} :
      doubling? c = some (single, kind) → rest.head? = some (.char c) →
      Takes kind (.char c) rest [.char c]
  | single {c : Char} {kind double : TokenKind} {rest : List Symbol} :
      doubling? c = some (kind, double) → rest.head? ≠ some (.char c) →
      Takes kind (.char c) rest []
  | number {c : Char} {rest : List Symbol} :
      isDigit c = true → Takes .number (.char c) rest (rest.takeWhile (·.passes isDigit))
  | name {c : Char} {rest : List Symbol} :
      isNameStart c = true → Takes .name (.char c) rest (rest.takeWhile (·.passes isNameRest))
  | unknown {x : Symbol} {rest : List Symbol} : IsStray x → Takes .unknown x rest []

theorem takes_firstLexeme (x : Symbol) (rest : List Symbol) :
    Takes (firstLexeme x rest).1 x rest (firstLexeme x rest).2 := by
  cases x with
  | half place => exact .unknown ⟨rfl, rfl, fun c _ => nofun⟩
  | char c =>
    rw [firstLexeme, lexemeAt]
    split
    · next kind hkind => exact .punctuation hkind
    · next hpunctuation =>
      split
      · next single double hdoubling =>
        split
        · next hhead => exact .double hdoubling (beq_iff_eq.mp hhead)
        · next hhead => exact .single hdoubling fun heq => hhead (beq_iff_eq.mpr heq)
      · next hdoubling =>
        split
        · next hdigit => exact .number hdigit
        · next hdigit =>
          split
          · next hstart => exact .name hstart
          · next hstart =>
            refine .unknown ⟨eq_false_of_ne_true hstart, eq_false_of_ne_true hdigit, ?_⟩
            rintro d hd heq
            cases heq
            rcases List.mem_cons.mp hd with rfl | hd
            · cases hdoubling
            · rcases List.mem_cons.mp hd with rfl | hd
              · cases hdoubling
              · have hsome := isSome_punctuation? c hd
                rw [hpunctuation] at hsome
                cases hsome

namespace Takes

variable {kind : TokenKind} {x : Symbol} {rest more : List Symbol}

/-- What is taken is one sign, maybe twice, a run of digits or of what names are made of, or one
stray symbol. -/
theorem form (h : Takes kind x rest more) :
    (kind ∈ signKinds ∧ (∃ c ∈ signs, x = .char c) ∧ ∀ y ∈ more, y = x) ∨
    (kind = .number ∧ x.passes isDigit = true ∧ more = rest.takeWhile (·.passes isDigit)) ∨
    (kind = .name ∧ x.passes isNameStart = true ∧ more = rest.takeWhile (·.passes isNameRest)) ∨
    (kind = .unknown ∧ IsStray x ∧ more = []) := by
  cases h with
  | @punctuation c _ _ hc =>
    have hsign : c ∈ signs := List.mem_cons_of_mem _ (List.mem_cons_of_mem _ (mem_punctuation hc))
    exact .inl ⟨List.mem_append_right _ (mem_punctuationKinds hc), ⟨c, hsign, rfl⟩, nofun⟩
  | @double c _ _ _ hc =>
    refine .inl ⟨?_, ⟨c, mem_signs_of_doubling? hc, rfl⟩, fun y hy => List.mem_singleton.mp hy⟩
    rcases doubling?_eq_some hc with ⟨-, rfl⟩ | ⟨-, rfl⟩ <;> decide
  | @single c _ _ _ hc =>
    refine .inl ⟨?_, ⟨c, mem_signs_of_doubling? hc, rfl⟩, nofun⟩
    rcases doubling?_eq_some hc with ⟨rfl, -⟩ | ⟨rfl, -⟩ <;> decide
  | number hdigit => exact .inr (.inl ⟨rfl, hdigit, rfl⟩)
  | name hstart => exact .inr (.inr (.inl ⟨rfl, hstart, rfl⟩))
  | unknown hstray => exact .inr (.inr (.inr ⟨rfl, hstray, rfl⟩))

theorem of_name (h : Takes .name x rest more) :
    x.passes isNameStart = true ∧ more = rest.takeWhile (·.passes isNameRest) := by
  rcases h.form with ⟨hk, -⟩ | ⟨hk, -⟩ | ⟨-, h⟩ | ⟨hk, -⟩
  · exact absurd hk (by decide)
  · cases hk
  · exact h
  · cases hk

theorem of_number (h : Takes .number x rest more) :
    x.passes isDigit = true ∧ more = rest.takeWhile (·.passes isDigit) := by
  rcases h.form with ⟨hk, -⟩ | ⟨-, h⟩ | ⟨hk, -⟩ | ⟨hk, -⟩
  · exact absurd hk (by decide)
  · exact h
  · cases hk
  · cases hk

theorem of_unknown (h : Takes .unknown x rest more) : IsStray x ∧ more = [] := by
  rcases h.form with ⟨hk, -⟩ | ⟨hk, -⟩ | ⟨hk, -⟩ | ⟨-, h⟩
  · exact absurd hk (by decide)
  · cases hk
  · cases hk
  · exact h

theorem kind_of_isStray (h : Takes kind x rest more) (hx : IsStray x) : kind = .unknown := by
  obtain ⟨hstart, hdigit, hsigns⟩ := hx
  rcases h.form with ⟨-, ⟨c, hc, rfl⟩, -⟩ | ⟨-, hx, -⟩ | ⟨-, hx, -⟩ | ⟨hk, -⟩
  · exact absurd rfl (hsigns c hc)
  · rw [hdigit] at hx
    cases hx
  · rw [hstart] at hx
    cases hx
  · exact hk

/-- A mark that may be doubled is, when it stands there twice. -/
theorem of_doubling {c : Char} {single double : TokenKind} (h : Takes kind (.char c) rest more)
    (hc : doubling? c = some (single, double)) :
    if rest.head? = some (.char c) then kind = double ∧ more = [.char c]
    else kind = single ∧ more = [] := by
  have hsign := mem_signs_of_doubling? hc
  obtain ⟨hname, hdigit⟩ := eq_false_of_mem_signs c hsign
  cases h with
  | punctuation hd =>
    have hends : EndsToken c := (separates_of_mem_punctuation c (mem_punctuation hd)).1
    rw [hends.2.2] at hc
    cases hc
  | double hd hhead =>
    rw [hd] at hc
    cases hc
    rw [if_pos hhead]
    exact ⟨rfl, rfl⟩
  | single hd hhead =>
    rw [hd] at hc
    cases hc
    rw [if_neg hhead]
    exact ⟨rfl, rfl⟩
  | number h =>
    rw [hdigit] at h
    cases h
  | name h =>
    rw [isNameRest_of_isNameStart h] at hname
    cases hname
  | unknown h => exact absurd rfl (h.2.2 c hsign)

theorem isPrefix (h : Takes kind x rest more) : more <+: rest := by
  cases h with
  | punctuation => exact List.nil_prefix
  | double _ hhead =>
    obtain ⟨ys, rfl⟩ := List.head?_eq_some_iff.mp hhead
    exact ⟨ys, rfl⟩
  | single => exact List.nil_prefix
  | number => exact List.takeWhile_prefix _
  | name => exact List.takeWhile_prefix _
  | unknown => exact List.nil_prefix

theorem kind_ne_endOfInput (h : Takes kind x rest more) : kind ≠ .endOfInput := by
  rintro rfl
  rcases h.form with ⟨hk, -⟩ | ⟨hk, -⟩ | ⟨hk, -⟩ | ⟨hk, -⟩
  · exact absurd hk (by decide)
  · cases hk
  · cases hk
  · cases hk

/-- Nothing that is passed over is taken. -/
theorem isSkipped_eq_false (h : Takes kind x rest more) (hx : isSkipped x = false) :
    ∀ y ∈ more, isSkipped y = false := by
  intro y hy
  rcases h.form with ⟨-, -, hmore⟩ | ⟨-, -, rfl⟩ | ⟨-, -, rfl⟩ | ⟨-, -, rfl⟩
  · rw [hmore y hy, hx]
  · exact isSkipped_eq_false_of_passes (fun c hc => hc.1) (List.mem_takeWhile_imp hy)
  · exact isSkipped_eq_false_of_passes (fun c hc => hc.2.1) (List.mem_takeWhile_imp hy)
  · cases hy

end Takes

end Token

end ApiDocs
