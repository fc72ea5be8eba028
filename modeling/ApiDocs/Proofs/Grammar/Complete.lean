import ApiDocs.Proofs.Grammar.Derivation

/-!
# What is derived is accepted

Tokens derived from a production are read by it, whatever stands behind them, as long as the token
behind them does not carry the production on.  Which tokens would do that is said of each production
by `NotNext`.

* `Grammar.path_of_derives`, `Grammar.argument_of_derives`, `Grammar.parameters_of_derives`: the
  three parts of a member id are read back from their tokens.
-/

namespace ApiDocs.Grammar

/-- The next token, if there is one, is of none of some kinds. -/
def NotNext (kinds : List TokenKind) (ts : List Token) : Prop := ∀ t ∈ ts.head?, t.kind ∉ kinds

@[simp] theorem notNext_nil (kinds : List TokenKind) : NotNext kinds [] := nofun

@[simp] theorem notNext_cons {kinds : List TokenKind} {t : Token} {ts : List Token} :
    NotNext kinds (t :: ts) ↔ t.kind ∉ kinds := by
  simp [NotNext]

theorem NotNext.mono {kinds : List TokenKind} {ts : List Token} (h : NotNext kinds ts)
    (kinds' : List TokenKind) (hsub : kinds' ⊆ kinds) : NotNext kinds' ts :=
  fun t ht hk => h t ht (hsub hk)

/-! ## Single tokens -/

theorem expect_cons {kind : TokenKind} {t : Token} (what : Expectation) (rest : List Token)
    (h : t.kind = kind) : ∃ hlt, expect kind what (t :: rest) = .ok ⟨(t, rest), hlt⟩ :=
  ⟨by simp, by rw [expect, if_pos h]⟩

theorem numberOf_of_isReadable {t : Token} (h : t.numeral.IsReadable) :
    numberOf t = .ok t.numeral.value := by
  have hlen : ¬ Decimal.maxDigits < t.length := Nat.not_lt.mpr h
  rw [numberOf, if_neg hlen]
  rfl

/-! ## Paths -/

theorem nameParts_of_notNext {ts : List Token} (h : NotNext [.sharp] ts) :
    ∃ hle, nameParts ts = .ok ⟨([], ts), hle⟩ := by
  refine ⟨Nat.le_refl _, ?_⟩
  cases ts with
  | nil => rw [nameParts]
  | cons t rest =>
    have hne : t.kind ≠ .sharp := by simpa using h
    rw [nameParts, if_neg hne]

theorem nameParts_of_derives {names : List String} {us rest : List Token}
    (h : DerivesHashedName names us) (hrest : NotNext [.sharp] rest) :
    ∃ t us' parts, us = t :: us' ∧ t.kind = .name ∧ names = t.text :: parts ∧
      ∃ hle, nameParts (us' ++ rest) = .ok ⟨(parts, rest), hle⟩ := by
  induction h with
  | @single t ht => exact ⟨t, [], [], rfl, ht, rfl, nameParts_of_notNext hrest⟩
  | @cons t sharp names ts ht hsharp _ ih =>
    obtain ⟨t', us', parts, rfl, ht', rfl, hle, hparts⟩ := ih
    obtain ⟨hlt, hexpect⟩ := expect_cons .interfaceName (us' ++ rest) ht'
    refine ⟨t, sharp :: t' :: us', t'.text :: parts, rfl, ht, rfl, ?_⟩
    show ∃ hle, nameParts (sharp :: t' :: (us' ++ rest)) = .ok ⟨(t'.text :: parts, rest), hle⟩
    refine ⟨by simp at hle ⊢; omega, ?_⟩
    rw [nameParts, if_pos hsharp]
    simp only [hexpect, hparts]

theorem segmentName_of_derives {name : SegmentName} {us rest : List Token}
    (h : DerivesSegmentName name us) (hrest : NotNext [.sharp] rest) :
    ∃ hlt, segmentName (us ++ rest) = .ok ⟨(name, rest), hlt⟩ := by
  cases h with
  | @special sharp t hsharp ht =>
    obtain ⟨hlt, hexpect⟩ := expect_cons .specialName rest ht
    refine ⟨Nat.lt_succ_of_lt hlt, ?_⟩
    simp only [List.cons_append, List.nil_append, segmentName, hsharp, hexpect]
  | @classSpecial sharps t hsharps ht =>
    obtain ⟨hlt, hexpect⟩ := expect_cons .classSpecialName rest ht
    refine ⟨Nat.lt_succ_of_lt hlt, ?_⟩
    simp only [List.cons_append, List.nil_append, segmentName, hsharps, hexpect]
  | hashed hd =>
    obtain ⟨t, us', parts, rfl, ht, heq, hle, hparts⟩ := nameParts_of_derives hd hrest
    cases heq
    refine ⟨Nat.lt_succ_of_le hle, ?_⟩
    simp only [List.cons_append, segmentName, ht, hparts]

theorem generics_of_notNext {ts : List Token} (h : NotNext [.backtick, .doubleBacktick] ts) :
    ∃ hle, generics ts = .ok ⟨(none, ts), hle⟩ := by
  refine ⟨Nat.le_refl _, ?_⟩
  cases ts with
  | nil => rfl
  | cons t rest =>
    have hmark : t.kind.mark? = none := by
      rw [notNext_cons] at h
      cases hk : t.kind <;> simp_all [TokenKind.mark?]
    simp only [generics, hmark]

theorem generics_of_derives {g : Option (Mark × Numeral)} {us rest : List Token}
    (h : DerivesArity g us) (hread : ∀ w ∈ g, w.2.IsReadable)
    (hrest : NotNext [.backtick, .doubleBacktick] rest) :
    ∃ hle, generics (us ++ rest) = .ok ⟨(g.map (fun w => (w.1, w.2.value)), rest), hle⟩ := by
  cases h with
  | none => exact generics_of_notNext hrest
  | @some m number mark hm hk =>
    obtain ⟨hlt, hexpect⟩ := expect_cons (.arity mark) rest hk
    have hnumber := numberOf_of_isReadable (hread _ rfl)
    refine ⟨by simp; omega, ?_⟩
    simp only [List.cons_append, List.nil_append, generics, hm, hexpect, hnumber, Option.map_some]

theorem notNext_of_derivesArity {g : Option (Mark × Numeral)} {us rest : List Token}
    {kinds : List TokenKind} (h : DerivesArity g us) (hrest : NotNext kinds rest)
    (hmarks : ∀ k ∈ kinds, k.mark? = none) : NotNext kinds (us ++ rest) := by
  cases h with
  | none => exact hrest
  | some hm _ =>
    rw [List.cons_append, notNext_cons]
    intro hk
    rw [hmarks _ hk] at hm
    cases hm

/-- The tokens that carry a level of a path on. -/
def segmentGoesOn : List TokenKind := [.sharp, .backtick, .doubleBacktick]

theorem segment_of_derives {tree : SegmentTree} {us rest : List Token}
    (h : DerivesSegment tree us) (hread : ∀ g ∈ tree.generics, g.2.IsReadable)
    (hrest : NotNext segmentGoesOn rest) :
    ∃ hlt, segment (us ++ rest) = .ok ⟨(tree.converted, rest), hlt⟩ := by
  obtain ⟨hname, harity⟩ := h
  have hrest' := notNext_of_derivesArity harity (hrest.mono [.sharp] (by decide))
    (by decide)
  obtain ⟨hlt, hn⟩ := segmentName_of_derives hname hrest'
  obtain ⟨hle, hg⟩ := generics_of_derives harity hread (hrest.mono _ (by decide))
  rw [List.append_assoc]
  refine ⟨Nat.lt_of_le_of_lt hle hlt, ?_⟩
  simp only [segment, hn, hg]
  rfl

/-- A derived path is read back. -/
theorem path_of_derives {outer : List SegmentTree} {last : SegmentTree} {us rest : List Token}
    (h : DerivesPath outer last us)
    (hread : ∀ s ∈ outer ++ [last], ∀ g ∈ s.generics, g.2.IsReadable)
    (hrest : NotNext (.period :: segmentGoesOn) rest) :
    ∃ hlt, path (us ++ rest) = .ok ⟨((outer.map (·.converted), last.converted), rest), hlt⟩ := by
  induction h with
  | single hs =>
    obtain ⟨hlt, hseg⟩ := segment_of_derives hs (hread _ (by simp)) (hrest.mono _ (by decide))
    refine ⟨hlt, ?_⟩
    cases rest with
    | nil => rw [path, hseg]; rfl
    | cons t rest =>
      have hne : t.kind ≠ .period := by
        rw [notNext_cons] at hrest
        exact fun he => hrest (by simp [he])
      rw [path, hseg]
      simp only [if_neg hne, List.map_nil]
  | @cons s last outer period ts us hs hperiod _ ih =>
    have hnext : NotNext segmentGoesOn (period :: (us ++ rest)) := by
      rw [notNext_cons, hperiod]
      decide
    obtain ⟨hlt, hseg⟩ := segment_of_derives hs (hread s (by simp)) hnext
    obtain ⟨hlt', hpath⟩ := ih (fun s' hs' => hread s' (List.mem_cons_of_mem _ hs'))
    rw [List.append_assoc, List.cons_append]
    refine ⟨by simp at hlt hlt' ⊢; omega, ?_⟩
    rw [path, hseg]
    simp only [if_pos hperiod, hpath, List.map_cons]

/-! ## Array suffixes -/

theorem dimensions_of_derives {n : Nat} {us rest : List Token} (h : DerivesDimensions n us)
    (hrest : NotNext [.comma] rest) :
    ∃ hlt, dimensions (us ++ rest) = .ok ⟨(n, rest), hlt⟩ := by
  induction h with
  | @single number colon hn hc =>
    obtain ⟨hlt, hnumber⟩ := expect_cons .dimension (colon :: rest) hn
    obtain ⟨hlt', hcolon⟩ := expect_cons .dimensionColon rest hc
    refine ⟨Nat.lt_succ_of_lt hlt', ?_⟩
    show dimensions (number :: colon :: rest) = _
    rw [dimensions, hnumber]
    simp only [hcolon]
    cases rest with
    | nil => rfl
    | cons t rest =>
      have hne : t.kind ≠ .comma := by simpa using hrest
      simp only [if_neg hne]
  | @cons number colon comma n ts hn hc hcomma _ ih =>
    obtain ⟨hlt, hmore⟩ := ih
    obtain ⟨hlt', hnumber⟩ :=
      expect_cons .dimension (colon :: comma :: (ts ++ rest)) hn
    obtain ⟨hlt'', hcolon⟩ :=
      expect_cons .dimensionColon (comma :: (ts ++ rest)) hc
    refine ⟨by simp at hlt ⊢; omega, ?_⟩
    show dimensions (number :: colon :: comma :: (ts ++ rest)) = _
    rw [dimensions, hnumber]
    simp only [hcolon, if_pos hcomma, hmore]

theorem head_of_derivesDimensions {n : Nat} {us : List Token} (h : DerivesDimensions n us) :
    ∃ t us', us = t :: us' ∧ t.kind = .number := by
  cases h with
  | single hn _ => exact ⟨_, _, rfl, hn⟩
  | cons hn _ _ _ => exact ⟨_, _, rfl, hn⟩

theorem arrayBody_of_derives {n : Nat} {us : List Token} (h : DerivesArray n us)
    (rest : List Token) : ∃ l us', us = l :: us' ∧ l.kind = .leftBracket ∧
      ∃ hlt, arrayBody (us' ++ rest) = .ok ⟨(n, rest), hlt⟩ := by
  cases h with
  | @empty l r hl hr =>
    obtain ⟨hlt, hexpect⟩ := expect_cons .rightBracket rest hr
    have hhead : (ahead (r :: rest)).kind = .rightBracket := hr
    refine ⟨l, [r], rfl, hl, hlt, ?_⟩
    show arrayBody (r :: rest) = _
    rw [arrayBody, if_pos hhead, hexpect]
  | @dimensions l r n ts hl hn hr =>
    have hnext : NotNext [.comma] (r :: rest) := by
      rw [notNext_cons, hr]
      decide
    obtain ⟨hlt, hexpect⟩ := expect_cons .rightBracket rest hr
    obtain ⟨hlt', hdim⟩ := dimensions_of_derives hn hnext
    refine ⟨l, ts ++ [r], rfl, hl, ?_⟩
    rw [List.append_assoc, List.singleton_append]
    refine ⟨Nat.lt_trans hlt hlt', ?_⟩
    have hhead : (ahead (ts ++ r :: rest)).kind ≠ .rightBracket := by
      obtain ⟨t, us', rfl, ht⟩ := head_of_derivesDimensions hn
      show t.kind ≠ .rightBracket
      rw [ht]
      decide
    rw [arrayBody, if_neg hhead]
    simp only [hdim, hexpect]

theorem arrays_of_notNext {ts : List Token} (h : NotNext [.leftBracket] ts) :
    ∃ hle, arrays ts = .ok ⟨([], ts), hle⟩ := by
  refine ⟨Nat.le_refl _, ?_⟩
  cases ts with
  | nil => rw [arrays]
  | cons t rest =>
    have hne : t.kind ≠ .leftBracket := by simpa using h
    rw [arrays, if_neg hne]

theorem arrays_of_derives {ns : List Nat} {us rest : List Token} (h : DerivesArrays ns us)
    (hrest : NotNext [.leftBracket] rest) :
    ∃ hle, arrays (us ++ rest) = .ok ⟨(ns.map fun n : Nat => (n : Int), rest), hle⟩ := by
  induction h with
  | nil => exact arrays_of_notNext hrest
  | @cons n ns ts us hn _ ih =>
    obtain ⟨hle, hmore⟩ := ih
    obtain ⟨l, ts', rfl, hl, hlt, hbody⟩ := arrayBody_of_derives hn (us ++ rest)
    rw [List.append_assoc]
    refine ⟨Nat.le_succ_of_le (Nat.le_trans hle (Nat.le_of_lt hlt)), ?_⟩
    show arrays (l :: (ts' ++ (us ++ rest))) = _
    rw [arrays, if_pos hl]
    simp only [hbody, hmore, List.map_cons]

theorem notNext_of_derivesArrays {ns : List Nat} {us rest : List Token} {kinds : List TokenKind}
    (h : DerivesArrays ns us) (hrest : NotNext kinds rest) (hbracket : .leftBracket ∉ kinds) :
    NotNext kinds (us ++ rest) := by
  cases h with
  | nil => exact hrest
  | cons hn _ =>
    obtain ⟨l, ts', rfl, hl, -⟩ := arrayBody_of_derives hn []
    rw [List.cons_append, List.cons_append, notNext_cons, hl]
    exact hbracket

/-! ## Arguments -/

theorem reference_of_get {scope : Scope} {mark : Mark} {number : Token} (rest : List Token)
    (hk : number.kind = .number) (hread : number.numeral.IsReadable)
    (hlt : number.numeral.value < (scope.names mark).length) :
    ∃ h, reference scope mark (number :: rest) =
      .ok ⟨((scope.names mark)[number.numeral.value]?.getD "", rest), h⟩ := by
  obtain ⟨h, hexpect⟩ := expect_cons (.genericIndex mark) rest hk
  refine ⟨h, ?_⟩
  simp only [reference, hexpect, numberOf_of_isReadable hread, List.getElem?_eq_getElem hlt,
    Option.getD_some]

theorem head_of_derivesTypeName {tree : NameTree} {us : List Token} (h : DerivesTypeName tree us) :
    ∃ t us', us = t :: us' ∧ t.kind = .name := by
  cases h with
  | plain ht => exact ⟨_, _, rfl, ht⟩
  | generic ht _ _ _ => exact ⟨_, _, rfl, ht⟩

theorem head_of_derivesTypePath {trees : List NameTree} {us : List Token}
    (h : DerivesTypePath trees us) : ∃ t us', us = t :: us' ∧ t.kind = .name := by
  cases h with
  | single hn => exact head_of_derivesTypeName hn
  | cons hn _ _ =>
    obtain ⟨t, us', rfl, ht⟩ := head_of_derivesTypeName hn
    exact ⟨t, _, rfl, ht⟩

/-- The tokens that carry an argument on. -/
def argumentGoesOn : List TokenKind := [.leftBracket, .period, .leftBrace]

mutual
/-- A derived argument is read back when its references are names of the scope. -/
theorem argument_of_derives {scope : Scope} {tree : ArgumentTree} {us : List Token}
    (h : DerivesArgument tree us) (hres : scope.Resolves tree.references) (rest : List Token)
    (hrest : NotNext argumentGoesOn rest) :
    ∃ hlt, argument scope (us ++ rest) = .ok ⟨(tree.read scope, rest), hlt⟩ := by
  match h with
  | @DerivesArgument.reference m number mark ns ts hm hk hns =>
    obtain ⟨hread, hlt⟩ := hres (mark, number.numeral) (List.mem_singleton_self _)
    obtain ⟨hlt', href⟩ := reference_of_get (ts ++ rest) hk hread hlt
    obtain ⟨hle, harr⟩ := arrays_of_derives hns (hrest.mono _ (by decide))
    refine ⟨by simp at hle ⊢; omega, ?_⟩
    show argument scope (m :: number :: (ts ++ rest)) = _
    have hmark : (ahead (m :: number :: (ts ++ rest))).kind.mark? = some mark := hm
    rw [argument]
    simp only [hmark, href, harr, ArgumentTree.read]
  | @DerivesArgument.path names ns ts us hnames hns =>
    have hnext := notNext_of_derivesArrays hns
      (hrest.mono [.period, .leftBrace] (by decide)) (by decide)
    obtain ⟨hlt, hpath⟩ := typePath_of_derives hnames hres (us ++ rest) hnext
    obtain ⟨hle, harr⟩ := arrays_of_derives hns (hrest.mono _ (by decide))
    have hmark : (ahead (ts ++ (us ++ rest))).kind.mark? = none := by
      obtain ⟨t, ts', rfl, ht⟩ := head_of_derivesTypePath hnames
      show t.kind.mark? = none
      rw [ht]
      rfl
    rw [List.append_assoc]
    refine ⟨Nat.lt_of_le_of_lt hle hlt, ?_⟩
    rw [argument]
    simp only [hmark, hpath, harr, ArgumentTree.read]

/-- A derived dotted path of names is read back. -/
theorem typePath_of_derives {scope : Scope} {trees : List NameTree} {us : List Token}
    (h : DerivesTypePath trees us) (hres : scope.Resolves (NameTree.referencesAll trees))
    (rest : List Token) (hrest : NotNext [.period, .leftBrace] rest) :
    ∃ hlt, typePath scope (us ++ rest) = .ok ⟨(NameTree.readAll scope trees, rest), hlt⟩ := by
  match h with
  | .single hn =>
    have hres' : scope.Resolves _ := (Scope.resolves_append.mp hres).1
    obtain ⟨hlt, hname⟩ := typeName_of_derives hn hres' rest (hrest.mono _ (by decide))
    refine ⟨hlt, ?_⟩
    cases rest with
    | nil => rw [typePath, hname]; rfl
    | cons t rest =>
      have hne : t.kind ≠ .period := by
        rw [notNext_cons] at hrest
        exact fun he => hrest (by simp [he])
      rw [typePath, hname]
      simp only [if_neg hne, NameTree.readAll]
  | @DerivesTypePath.cons name names period ts us hn hperiod hmore =>
    obtain ⟨hres', hres''⟩ := Scope.resolves_append.mp hres
    have hnext : NotNext [.leftBrace] (period :: (us ++ rest)) := by
      rw [notNext_cons, hperiod]
      decide
    obtain ⟨hlt, hname⟩ := typeName_of_derives hn hres' _ hnext
    obtain ⟨hlt', hpath⟩ := typePath_of_derives hmore hres'' rest hrest
    rw [List.append_assoc, List.cons_append]
    refine ⟨by simp at hlt hlt' ⊢; omega, ?_⟩
    rw [typePath, hname]
    simp only [if_pos hperiod, hpath, NameTree.readAll]

/-- A derived name of a type is read back. -/
theorem typeName_of_derives {scope : Scope} {tree : NameTree} {us : List Token}
    (h : DerivesTypeName tree us) (hres : scope.Resolves tree.references) (rest : List Token)
    (hrest : NotNext [.leftBrace] rest) :
    ∃ hlt, typeName scope (us ++ rest) = .ok ⟨(tree.read scope, rest), hlt⟩ := by
  match h with
  | @DerivesTypeName.plain t ht =>
    obtain ⟨hlt, hname⟩ := expect_cons .typeName rest ht
    refine ⟨hlt, ?_⟩
    show typeName scope (t :: rest) = _
    cases rest with
    | nil => rw [typeName, hname]; rfl
    | cons t' rest =>
      have hne : t'.kind ≠ .leftBrace := by simpa using hrest
      rw [typeName, hname]
      simp only [if_neg hne, NameTree.read, ArgumentTree.readAll]
  | @DerivesTypeName.generic t l r arguments ts ht hl hargs hr =>
    have hnext : NotNext (.comma :: argumentGoesOn) (r :: rest) := by
      rw [notNext_cons, hr]
      decide
    obtain ⟨hlt, hname⟩ := expect_cons .typeName (l :: (ts ++ r :: rest)) ht
    obtain ⟨hlt', hlist⟩ := genericArguments_of_derives hargs hres (r :: rest) hnext
    obtain ⟨hlt'', hbrace⟩ := expect_cons .rightBrace rest hr
    rw [List.append_assoc, List.singleton_append]
    refine ⟨by simp at hlt' ⊢; omega, ?_⟩
    show typeName scope (t :: l :: (ts ++ r :: rest)) = _
    rw [typeName, hname]
    simp only [if_pos hl, hlist, hbrace, NameTree.read]

/-- Derived arguments between braces are read back. -/
theorem genericArguments_of_derives {scope : Scope} {trees : List ArgumentTree} {us : List Token}
    (h : DerivesGenericArguments trees us)
    (hres : scope.Resolves (ArgumentTree.referencesAll trees)) (rest : List Token)
    (hrest : NotNext (.comma :: argumentGoesOn) rest) :
    ∃ hlt, genericArguments scope (us ++ rest) =
      .ok ⟨(ArgumentTree.readAll scope trees, rest), hlt⟩ := by
  match h with
  | .single ha =>
    have hres' : scope.Resolves _ := (Scope.resolves_append.mp hres).1
    obtain ⟨hlt, harg⟩ := argument_of_derives ha hres' rest (hrest.mono _ (by decide))
    refine ⟨hlt, ?_⟩
    cases rest with
    | nil => rw [genericArguments, harg]; rfl
    | cons t rest =>
      have hne : t.kind ≠ .comma := by
        rw [notNext_cons] at hrest
        exact fun he => hrest (by simp [he])
      rw [genericArguments, harg]
      simp only [if_neg hne, ArgumentTree.readAll]
  | @DerivesGenericArguments.cons a more comma ts us ha hcomma hmore =>
    obtain ⟨hres', hres''⟩ := Scope.resolves_append.mp hres
    have hnext : NotNext argumentGoesOn (comma :: (us ++ rest)) := by
      rw [notNext_cons, hcomma]
      decide
    obtain ⟨hlt, harg⟩ := argument_of_derives ha hres' _ hnext
    obtain ⟨hlt', hlist⟩ := genericArguments_of_derives hmore hres'' rest hrest
    rw [List.append_assoc, List.cons_append]
    refine ⟨by simp at hlt hlt' ⊢; omega, ?_⟩
    rw [genericArguments, harg]
    simp only [if_pos hcomma, hlist, ArgumentTree.readAll]
end

/-! ## Parameters -/

/-- The tokens that carry a parameter on. -/
def parameterGoesOn : List TokenKind := .atSign :: argumentGoesOn

theorem parameter_of_derives {scope : Scope} {p : ParameterTree} {us rest : List Token}
    (h : DerivesParameter p us) (hres : scope.Resolves p.argument.references)
    (hrest : NotNext parameterGoesOn rest) : ∃ type kind rest' hlt hle,
      argument scope (us ++ rest) = .ok ⟨(type, rest'), hlt⟩ ∧ outMark rest' = ⟨(kind, rest), hle⟩ ∧
      p.read scope = { type, kind } := by
  cases h with
  | plain ha =>
    obtain ⟨hlt, harg⟩ := argument_of_derives ha hres rest (hrest.mono _ (by decide))
    refine ⟨_, .none, rest, hlt, Nat.le_refl _, harg, ?_, rfl⟩
    cases rest with
    | nil => rfl
    | cons t rest =>
      have hne : t.kind ≠ .atSign := by
        rw [notNext_cons] at hrest
        exact fun he => hrest (by simp [he, parameterGoesOn])
      rw [outMark, if_neg hne]
  | @out a sign ts ha hsign =>
    have hnext : NotNext argumentGoesOn (sign :: rest) := by
      rw [notNext_cons, hsign]
      decide
    obtain ⟨hlt, harg⟩ := argument_of_derives ha hres (sign :: rest) hnext
    rw [List.append_assoc, List.singleton_append]
    refine ⟨_, .outBit, sign :: rest, hlt, by simp, harg, ?_, rfl⟩
    rw [outMark, if_pos hsign]

theorem parameterList_of_derives {scope : Scope} {ps : List ParameterTree} {us rest : List Token}
    (h : DerivesParameterList ps us)
    (hres : scope.Resolves (ps.flatMap (·.argument.references)))
    (hrest : NotNext (.comma :: parameterGoesOn) rest) :
    ∃ hlt, parameterList scope (us ++ rest) = .ok ⟨(ps.map (·.read scope), rest), hlt⟩ := by
  induction h with
  | single hp =>
    have hres' : scope.Resolves _ := (Scope.resolves_append.mp hres).1
    obtain ⟨type, kind, rest', hlt, hle, harg, hout, hread⟩ :=
      parameter_of_derives hp hres' (hrest.mono _ (by decide))
    refine ⟨Nat.lt_of_le_of_lt hle hlt, ?_⟩
    rw [List.map_singleton, hread, parameterList, harg]
    simp only [hout]
    cases rest with
    | nil => rfl
    | cons t rest =>
      have hne : t.kind ≠ .comma := by
        rw [notNext_cons] at hrest
        exact fun he => hrest (by simp [he])
      simp only [if_neg hne]
  | @cons p more comma ts us hp hcomma _ ih =>
    obtain ⟨hres', hres''⟩ := Scope.resolves_append.mp hres
    have hnext : NotNext parameterGoesOn (comma :: (us ++ rest)) := by
      rw [notNext_cons, hcomma]
      decide
    obtain ⟨type, kind, rest', hlt, hle, harg, hout, hread⟩ := parameter_of_derives hp hres' hnext
    obtain ⟨hlt', hlist⟩ := ih hres''
    rw [List.append_assoc, List.cons_append]
    refine ⟨by simp at hlt hle hlt' ⊢; omega, ?_⟩
    rw [List.map_cons, hread, parameterList, harg]
    simp only [hout, if_pos hcomma, hlist]

theorem head_of_derivesParameterList {ps : List ParameterTree} {us : List Token}
    (h : DerivesParameterList ps us) : ∃ t us', us = t :: us' ∧ t.kind ≠ .rightParen := by
  have hargument : ∀ {a : ArgumentTree} {ts : List Token}, DerivesArgument a ts →
      ∃ t ts', ts = t :: ts' ∧ t.kind ≠ .rightParen := by
    intro a ts ha
    cases ha with
    | reference hm _ _ =>
      refine ⟨_, _, rfl, fun he => ?_⟩
      rw [he] at hm
      cases hm
    | path hnames _ =>
      obtain ⟨t, us', rfl, ht⟩ := head_of_derivesTypePath hnames
      exact ⟨t, _, rfl, by rw [ht]; decide⟩
  have hparameter : ∀ {p : ParameterTree} {ts : List Token}, DerivesParameter p ts →
      ∃ t ts', ts = t :: ts' ∧ t.kind ≠ .rightParen := by
    intro p ts hp
    cases hp with
    | plain ha => exact hargument ha
    | out ha _ =>
      obtain ⟨t, ts', rfl, ht⟩ := hargument ha
      exact ⟨t, _, rfl, ht⟩
  cases h with
  | single hp => exact hparameter hp
  | cons hp _ _ =>
    obtain ⟨t, ts', rfl, ht⟩ := hparameter hp
    exact ⟨t, _, rfl, ht⟩

/-- Derived parameters are read back when their references are names of the scope. -/
theorem parameters_of_derives {scope : Scope} {ps : Option (List ParameterTree)}
    {us rest : List Token} (h : DerivesParameters ps us)
    (hres : scope.Resolves ((ps.getD []).flatMap (·.argument.references)))
    (hrest : NotNext [.leftParen] rest) :
    ∃ hle, Grammar.parameters scope (us ++ rest) =
      .ok ⟨((ps.getD []).map (·.read scope), rest), hle⟩ := by
  cases h with
  | none =>
    refine ⟨Nat.le_refl _, ?_⟩
    cases rest with
    | nil => rfl
    | cons t rest =>
      have hne : t.kind ≠ .leftParen := by simpa using hrest
      show Grammar.parameters scope (t :: rest) = _
      rw [Grammar.parameters, if_neg hne]
      rfl
  | @empty l r hl hr =>
    obtain ⟨hlt, hexpect⟩ := expect_cons .rightParen rest hr
    refine ⟨Nat.le_succ_of_le (Nat.le_of_lt hlt), ?_⟩
    have hhead : (ahead (r :: rest)).kind = .rightParen := hr
    show Grammar.parameters scope (l :: r :: rest) = _
    rw [Grammar.parameters, if_pos hl, if_pos hhead, hexpect]
    rfl
  | @list l r ps ts hl hps hr =>
    have hnext : NotNext (.comma :: parameterGoesOn) (r :: rest) := by
      rw [notNext_cons, hr]
      decide
    obtain ⟨hlt, hlist⟩ := parameterList_of_derives hps hres hnext
    obtain ⟨hlt', hexpect⟩ := expect_cons .rightParen rest hr
    have hhead : (ahead (ts ++ r :: rest)).kind ≠ .rightParen := by
      obtain ⟨t, ts', rfl, ht⟩ := head_of_derivesParameterList hps
      exact ht
    rw [List.append_assoc, List.singleton_append]
    refine ⟨Nat.le_succ_of_le (Nat.le_of_lt (Nat.lt_trans hlt' hlt)), ?_⟩
    show Grammar.parameters scope (l :: (ts ++ r :: rest)) = _
    rw [Grammar.parameters, if_pos hl, if_neg hhead]
    simp only [Option.getD_some] at hlist ⊢
    simp only [hlist, hexpect]

end ApiDocs.Grammar
