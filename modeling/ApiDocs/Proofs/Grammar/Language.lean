import ApiDocs.Proofs.Grammar.Derivation
import Mathlib.Computability.Language

/-!
# The grammar as equations

The tokens that a production derives, whatever the tree, are a language.  The productions say what
these languages are made of: `1` is the empty sentence, `+` a choice and `*` one thing behind another.

* `Grammar.oneOf`: the sentences of one token, of one of some kinds;
* `Grammar.pathTokens_eq`, `Grammar.argumentTokens_eq`, `Grammar.parametersTokens_eq` and the others:
  one equation for each production.
-/

namespace ApiDocs.Grammar

/-! ## Sentences -/

/-- The sentences of one token, of one of some kinds. -/
def oneOf (kinds : List TokenKind) : Language Token := {us | ∃ t, t.kind ∈ kinds ∧ us = [t]}

/-- The kinds of a mark. -/
def markKinds : List TokenKind := [.backtick, .doubleBacktick]

theorem mem_markKinds_iff {kind : TokenKind} : kind ∈ markKinds ↔ ∃ mark, kind.mark? = some mark := by
  cases kind <;> simp [markKinds, TokenKind.mark?]

section
variable {kinds : List TokenKind} {L : Language Token} {us : List Token}

theorem mem_oneOf_single {kind : TokenKind} :
    us ∈ oneOf [kind] ↔ ∃ t, t.kind = kind ∧ us = [t] := by
  show (∃ t, t.kind ∈ [kind] ∧ us = [t]) ↔ _
  simp only [List.mem_singleton]

theorem mem_oneOf_mul : us ∈ oneOf kinds * L ↔ ∃ t vs, t.kind ∈ kinds ∧ vs ∈ L ∧ us = t :: vs := by
  rw [Language.mem_mul]
  constructor
  · rintro ⟨_, ⟨t, ht, rfl⟩, vs, hvs, rfl⟩
    exact ⟨t, vs, ht, hvs, rfl⟩
  · rintro ⟨t, vs, ht, hvs, rfl⟩
    exact ⟨[t], ⟨t, ht, rfl⟩, vs, hvs, rfl⟩

theorem mem_oneOf_single_mul {kind : TokenKind} :
    us ∈ oneOf [kind] * L ↔ ∃ t vs, t.kind = kind ∧ vs ∈ L ∧ us = t :: vs := by
  simp only [mem_oneOf_mul, List.mem_singleton]

theorem mem_mul_oneOf_single {kind : TokenKind} :
    us ∈ L * oneOf [kind] ↔ ∃ vs t, vs ∈ L ∧ t.kind = kind ∧ us = vs ++ [t] := by
  rw [Language.mem_mul]
  constructor
  · rintro ⟨vs, hvs, ws, hws, rfl⟩
    obtain ⟨t, ht, rfl⟩ := mem_oneOf_single.mp hws
    exact ⟨vs, t, hvs, ht, rfl⟩
  · rintro ⟨vs, t, hvs, ht, rfl⟩
    exact ⟨vs, hvs, [t], mem_oneOf_single.mpr ⟨t, ht, rfl⟩, rfl⟩

/-- What may be left out. -/
theorem mem_one_add : us ∈ 1 + L ↔ us = [] ∨ us ∈ L := by
  rw [Language.mem_add, Language.mem_one]

theorem nil_mem_one_add : [] ∈ 1 + L := mem_one_add.mpr (.inl rfl)

/-- What is a list of items with a separator between them. -/
theorem eq_mul_one_add {item : Language Token} {separator : TokenKind}
    (h : ∀ us, us ∈ L ↔ us ∈ item ∨
      ∃ vs t ws, vs ∈ item ∧ t.kind = separator ∧ ws ∈ L ∧ us = vs ++ t :: ws) :
    L = item * (1 + oneOf [separator] * L) := by
  ext us
  simp only [Language.mem_mul (l := item), mem_one_add, mem_oneOf_single_mul]
  rw [h]
  constructor
  · rintro (hus | ⟨vs, t, ws, hvs, ht, hws, rfl⟩)
    · exact ⟨us, hus, [], .inl rfl, List.append_nil us⟩
    · exact ⟨vs, hvs, t :: ws, .inr ⟨t, ws, ht, hws, rfl⟩, rfl⟩
  · rintro ⟨vs, hvs, _, rfl | ⟨t, ws, ht, hws, rfl⟩, rfl⟩
    · rw [List.append_nil]
      exact .inl hvs
    · exact .inr ⟨vs, t, ws, hvs, ht, hws, rfl⟩

end

/-! ## Paths -/

/-- A mark and the number behind it. -/
def numberTokens : Language Token := oneOf markKinds * oneOf [.number]

theorem mem_numberTokens {m n : Token} {mark : Mark} (hm : m.kind.mark? = some mark)
    (hn : n.kind = .number) : [m, n] ∈ numberTokens :=
  mem_oneOf_mul.mpr ⟨m, [n], mem_markKinds_iff.mpr ⟨mark, hm⟩, mem_oneOf_single.mpr ⟨n, hn, rfl⟩, rfl⟩

def hashedNameTokens : Language Token := {us | ∃ names, DerivesHashedName names us}
def segmentNameTokens : Language Token := {us | ∃ name, DerivesSegmentName name us}
def arityTokens : Language Token := {us | ∃ generics, DerivesArity generics us}
def segmentTokens : Language Token := {us | ∃ s, DerivesSegment s us}
def pathTokens : Language Token := {us | ∃ outer last, DerivesPath outer last us}

theorem hashedNameTokens_eq :
    hashedNameTokens = oneOf [.name] * (1 + oneOf [.sharp] * hashedNameTokens) := by
  ext us
  simp only [mem_oneOf_single_mul, mem_one_add]
  constructor
  · rintro ⟨_, h⟩
    cases h with
    | single ht => exact ⟨_, [], ht, .inl rfl, rfl⟩
    | cons ht hsharp hd => exact ⟨_, _, ht, .inr ⟨_, _, hsharp, ⟨_, hd⟩, rfl⟩, rfl⟩
  · rintro ⟨t, vs, ht, rfl | ⟨sharp, ws, hsharp, ⟨names, hd⟩, rfl⟩, rfl⟩
    · exact ⟨_, .single ht⟩
    · exact ⟨_, .cons ht hsharp hd⟩

theorem segmentNameTokens_eq : segmentNameTokens = oneOf [.sharp] * oneOf [.name] +
    (oneOf [.doubleSharp] * oneOf [.name] + hashedNameTokens) := by
  ext us
  simp only [Language.mem_add, mem_oneOf_single_mul, mem_oneOf_single]
  constructor
  · rintro ⟨_, h⟩
    cases h with
    | special hsharp ht => exact .inl ⟨_, _, hsharp, ⟨_, ht, rfl⟩, rfl⟩
    | classSpecial hsharps ht => exact .inr (.inl ⟨_, _, hsharps, ⟨_, ht, rfl⟩, rfl⟩)
    | hashed hd => exact .inr (.inr ⟨_, hd⟩)
  · rintro (⟨sharp, _, hsharp, ⟨t, ht, rfl⟩, rfl⟩ | ⟨sharps, _, hsharps, ⟨t, ht, rfl⟩, rfl⟩ |
      ⟨names, hd⟩)
    · exact ⟨_, .special hsharp ht⟩
    · exact ⟨_, .classSpecial hsharps ht⟩
    · cases hd with
      | single ht => exact ⟨_, .hashed (.single ht)⟩
      | cons ht hsharp hd => exact ⟨_, .hashed (.cons ht hsharp hd)⟩

theorem arityTokens_eq : arityTokens = 1 + numberTokens := by
  ext us
  simp only [numberTokens, mem_one_add, mem_oneOf_mul, mem_oneOf_single, mem_markKinds_iff]
  constructor
  · rintro ⟨_, h⟩
    cases h with
    | none => exact .inl rfl
    | some hm hn => exact .inr ⟨_, _, ⟨_, hm⟩, ⟨_, hn, rfl⟩, rfl⟩
  · rintro (rfl | ⟨m, _, ⟨mark, hm⟩, ⟨n, hn, rfl⟩, rfl⟩)
    · exact ⟨_, .none⟩
    · exact ⟨_, .some hm hn⟩

theorem segmentTokens_eq : segmentTokens = segmentNameTokens * arityTokens := by
  ext us
  rw [Language.mem_mul]
  constructor
  · rintro ⟨_, hname, harity⟩
    exact ⟨_, ⟨_, hname⟩, _, ⟨_, harity⟩, rfl⟩
  · rintro ⟨vs, ⟨_, hname⟩, ws, ⟨_, harity⟩, rfl⟩
    exact ⟨_, .mk hname harity⟩

theorem pathTokens_eq : pathTokens = segmentTokens * (1 + oneOf [.period] * pathTokens) := by
  refine eq_mul_one_add fun us => ⟨?_, ?_⟩
  · rintro ⟨_, _, h⟩
    cases h with
    | single hs => exact .inl ⟨_, hs⟩
    | cons hs hperiod hd => exact .inr ⟨_, _, _, ⟨_, hs⟩, hperiod, ⟨_, _, hd⟩, rfl⟩
  · rintro (⟨_, hs⟩ | ⟨vs, period, ws, ⟨_, hs⟩, hperiod, ⟨_, _, hd⟩, rfl⟩)
    · exact ⟨_, _, .single hs⟩
    · exact ⟨_, _, .cons hs hperiod hd⟩

/-! ## Array suffixes -/

def dimensionsTokens : Language Token := {us | ∃ n, DerivesDimensions n us}
def arraysTokens : Language Token := {us | ∃ ns, DerivesArrays ns us}

/-- What stands behind the left bracket of an array suffix. -/
def arrayBodyTokens : Language Token :=
  oneOf [.rightBracket] + dimensionsTokens * oneOf [.rightBracket]

theorem dimensionsTokens_eq : dimensionsTokens =
    oneOf [.number] * (oneOf [.colon] * (1 + oneOf [.comma] * dimensionsTokens)) := by
  ext us
  simp only [mem_oneOf_single_mul, mem_one_add]
  constructor
  · rintro ⟨_, h⟩
    cases h with
    | single hn hc => exact ⟨_, _, hn, ⟨_, _, hc, .inl rfl, rfl⟩, rfl⟩
    | cons hn hc hcomma hd =>
      exact ⟨_, _, hn, ⟨_, _, hc, .inr ⟨_, _, hcomma, ⟨_, hd⟩, rfl⟩, rfl⟩, rfl⟩
  · rintro ⟨n, _, hn, ⟨c, _, hc, rfl | ⟨comma, vs, hcomma, ⟨_, hd⟩, rfl⟩, rfl⟩, rfl⟩
    · exact ⟨_, .single hn hc⟩
    · exact ⟨_, .cons hn hc hcomma hd⟩

theorem exists_derivesArray_iff {us : List Token} : (∃ n, DerivesArray n us) ↔
    us ∈ oneOf [.leftBracket] * arrayBodyTokens := by
  simp only [mem_oneOf_single_mul, arrayBodyTokens, Language.mem_add, mem_oneOf_single,
    mem_mul_oneOf_single]
  constructor
  · rintro ⟨_, h⟩
    cases h with
    | empty hl hr => exact ⟨_, _, hl, .inl ⟨_, hr, rfl⟩, rfl⟩
    | dimensions hl hd hr => exact ⟨_, _, hl, .inr ⟨_, _, ⟨_, hd⟩, hr, rfl⟩, rfl⟩
  · rintro ⟨l, _, hl, ⟨r, hr, rfl⟩ | ⟨vs, r, ⟨_, hd⟩, hr, rfl⟩, rfl⟩
    · exact ⟨_, .empty hl hr⟩
    · exact ⟨_, .dimensions hl hd hr⟩

theorem arraysTokens_eq :
    arraysTokens = 1 + oneOf [.leftBracket] * (arrayBodyTokens * arraysTokens) := by
  ext us
  rw [← mul_assoc, mem_one_add, Language.mem_mul]
  simp only [← exists_derivesArray_iff]
  constructor
  · rintro ⟨_, h⟩
    cases h with
    | nil => exact .inl rfl
    | cons hn hd => exact .inr ⟨_, ⟨_, hn⟩, _, ⟨_, hd⟩, rfl⟩
  · rintro (rfl | ⟨vs, ⟨_, hn⟩, ws, ⟨_, hd⟩, rfl⟩)
    · exact ⟨_, .nil⟩
    · exact ⟨_, .cons hn hd⟩

/-! ## Arguments -/

def argumentTokens : Language Token := {us | ∃ a, DerivesArgument a us}
def typePathTokens : Language Token := {us | ∃ names, DerivesTypePath names us}
def typeNameTokens : Language Token := {us | ∃ name, DerivesTypeName name us}
def genericArgumentsTokens : Language Token := {us | ∃ as, DerivesGenericArguments as us}

theorem argumentTokens_eq :
    argumentTokens = numberTokens * arraysTokens + typePathTokens * arraysTokens := by
  ext us
  simp only [numberTokens, mul_assoc, Language.mem_add, mem_oneOf_mul, mem_markKinds_iff,
    List.mem_singleton, Language.mem_mul (l := typePathTokens)]
  constructor
  · rintro ⟨_, h⟩
    cases h with
    | reference hm hn hd => exact .inl ⟨_, _, ⟨_, hm⟩, ⟨_, _, hn, ⟨_, hd⟩, rfl⟩, rfl⟩
    | path hd hd' => exact .inr ⟨_, ⟨_, hd⟩, _, ⟨_, hd'⟩, rfl⟩
  · rintro (⟨m, _, ⟨mark, hm⟩, ⟨n, vs, hn, ⟨_, hd⟩, rfl⟩, rfl⟩ | ⟨vs, ⟨_, hd⟩, ws, ⟨_, hd'⟩, rfl⟩)
    · exact ⟨_, .reference hm hn hd⟩
    · exact ⟨_, .path hd hd'⟩

theorem typePathTokens_eq :
    typePathTokens = typeNameTokens * (1 + oneOf [.period] * typePathTokens) := by
  refine eq_mul_one_add fun us => ⟨?_, ?_⟩
  · rintro ⟨_, h⟩
    cases h with
    | single hn => exact .inl ⟨_, hn⟩
    | cons hn hperiod hd => exact .inr ⟨_, _, _, ⟨_, hn⟩, hperiod, ⟨_, hd⟩, rfl⟩
  · rintro (⟨_, hn⟩ | ⟨vs, period, ws, ⟨_, hn⟩, hperiod, ⟨_, hd⟩, rfl⟩)
    · exact ⟨_, .single hn⟩
    · exact ⟨_, .cons hn hperiod hd⟩

theorem typeNameTokens_eq : typeNameTokens = oneOf [.name] *
    (1 + oneOf [.leftBrace] * (genericArgumentsTokens * oneOf [.rightBrace])) := by
  ext us
  simp only [mem_oneOf_single_mul, mem_one_add, mem_mul_oneOf_single]
  constructor
  · rintro ⟨_, h⟩
    cases h with
    | plain ht => exact ⟨_, [], ht, .inl rfl, rfl⟩
    | generic ht hl hd hr => exact ⟨_, _, ht, .inr ⟨_, _, hl, ⟨_, _, ⟨_, hd⟩, hr, rfl⟩, rfl⟩, rfl⟩
  · rintro ⟨t, _, ht, rfl | ⟨l, _, hl, ⟨vs, r, ⟨_, hd⟩, hr, rfl⟩, rfl⟩, rfl⟩
    · exact ⟨_, .plain ht⟩
    · exact ⟨_, .generic ht hl hd hr⟩

theorem genericArgumentsTokens_eq :
    genericArgumentsTokens = argumentTokens * (1 + oneOf [.comma] * genericArgumentsTokens) := by
  refine eq_mul_one_add fun us => ⟨?_, ?_⟩
  · rintro ⟨_, h⟩
    cases h with
    | single ha => exact .inl ⟨_, ha⟩
    | cons ha hcomma hd => exact .inr ⟨_, _, _, ⟨_, ha⟩, hcomma, ⟨_, hd⟩, rfl⟩
  · rintro (⟨_, ha⟩ | ⟨vs, comma, ws, ⟨_, ha⟩, hcomma, ⟨_, hd⟩, rfl⟩)
    · exact ⟨_, .single ha⟩
    · exact ⟨_, .cons ha hcomma hd⟩

/-! ## Parameters -/

def parameterTokens : Language Token := {us | ∃ p, DerivesParameter p us}
def parameterListTokens : Language Token := {us | ∃ ps, DerivesParameterList ps us}
def parametersTokens : Language Token := {us | ∃ ps, DerivesParameters ps us}
def identifierTokens : Language Token := {us | ∃ tree, DerivesIdentifier tree us}

theorem parameterTokens_eq : parameterTokens = argumentTokens * (1 + oneOf [.atSign]) := by
  ext us
  simp only [Language.mem_mul, mem_one_add, mem_oneOf_single]
  constructor
  · rintro ⟨_, h⟩
    cases h with
    | plain ha => exact ⟨us, ⟨_, ha⟩, [], .inl rfl, List.append_nil us⟩
    | out ha hsign => exact ⟨_, ⟨_, ha⟩, _, .inr ⟨_, hsign, rfl⟩, rfl⟩
  · rintro ⟨vs, ⟨a, ha⟩, _, rfl | ⟨sign, hsign, rfl⟩, rfl⟩
    · exact ⟨⟨a, false⟩, by rw [List.append_nil]; exact .plain ha⟩
    · exact ⟨_, .out ha hsign⟩

theorem parameterListTokens_eq :
    parameterListTokens = parameterTokens * (1 + oneOf [.comma] * parameterListTokens) := by
  refine eq_mul_one_add fun us => ⟨?_, ?_⟩
  · rintro ⟨_, h⟩
    cases h with
    | single hp => exact .inl ⟨_, hp⟩
    | cons hp hcomma hd => exact .inr ⟨_, _, _, ⟨_, hp⟩, hcomma, ⟨_, hd⟩, rfl⟩
  · rintro (⟨_, hp⟩ | ⟨vs, comma, ws, ⟨_, hp⟩, hcomma, ⟨_, hd⟩, rfl⟩)
    · exact ⟨_, .single hp⟩
    · exact ⟨_, .cons hp hcomma hd⟩

theorem parametersTokens_eq : parametersTokens = 1 + oneOf [.leftParen] *
    (oneOf [.rightParen] + parameterListTokens * oneOf [.rightParen]) := by
  ext us
  rw [mem_one_add]
  simp only [mem_oneOf_single_mul, Language.mem_add, mem_oneOf_single, mem_mul_oneOf_single]
  constructor
  · rintro ⟨_, h⟩
    cases h with
    | none => exact .inl rfl
    | empty hl hr => exact .inr ⟨_, _, hl, .inl ⟨_, hr, rfl⟩, rfl⟩
    | list hl hd hr => exact .inr ⟨_, _, hl, .inr ⟨_, _, ⟨_, hd⟩, hr, rfl⟩, rfl⟩
  · rintro (rfl | ⟨l, _, hl, ⟨r, hr, rfl⟩ | ⟨vs, r, ⟨_, hd⟩, hr, rfl⟩, rfl⟩)
    · exact ⟨_, .none⟩
    · exact ⟨_, .empty hl hr⟩
    · exact ⟨_, .list hl hd hr⟩

theorem identifierTokens_eq : identifierTokens = pathTokens * parametersTokens := by
  ext us
  rw [Language.mem_mul]
  constructor
  · rintro ⟨_, hpath, hps⟩
    exact ⟨_, ⟨_, _, hpath⟩, _, ⟨_, hps⟩, rfl⟩
  · rintro ⟨vs, ⟨_, _, hpath⟩, ws, ⟨_, hps⟩, rfl⟩
    exact ⟨_, .mk hpath hps⟩

end ApiDocs.Grammar
