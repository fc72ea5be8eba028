import ApiDocs.Proofs.Source.MethodKey
import ApiDocs.Source.Documentation

/-!
# One key for a method from both sides

A structural record gives real names to the generic parameters of a path and then reads the types of
its parameters one by one.  A documentation record writes the whole as one member id, in which the
generic parameters are numbers.  Both give the method the same key.

* `MemberPath`, `MemberPath.Argument`: the path of a method in a type, and arguments that can stand
  behind it;
* `StructuralRecord.key_eq_of_memberId`: the key of the method, and that of the type around it;
* `zeroRecord`: a method for which an index of a parameter is too long to be converted.
-/

namespace ApiDocs

open Grammar PathSegment Token

/-! ## Methods of types -/

/-- A path of a method in a type: there is a level in front of the last. -/
structure MemberPath extends MethodPath where
  outer_ne_nil : tree.outer ≠ []

/-- An argument that can stand behind the path and spells none of some names. -/
structure MemberPath.Argument (p : MemberPath) (names : List String) extends
    MethodPath.Argument p.toMethodPath where
  avoids : ∀ t ∈ tokenize text, t.kind = .name → t.text ∉ names

namespace MemberPath

variable {p : MemberPath} {names : List String}

/-- The member id by which documentation refers to the method. -/
def memberId (p : MemberPath) (arguments : List (p.Argument names)) : String :=
  p.toMethodPath.memberId (arguments.map (·.toArgument))

theorem Argument.not_mem_of_mem_names (a : p.Argument names) :
    ∀ name ∈ a.tree.names, name ∉ names := by
  intro name hname
  obtain ⟨t, ht, hk, rfl⟩ := a.derives.spells name hname
  exact a.avoids t (List.dropLast_subset _ ht) hk

/-- With distinct real names none of them is hidden. -/
theorem Argument.isClearOf (a : p.Argument names) (hnodup : names.Nodup) :
    a.toArgument.IsClearOf names :=
  ⟨fun _ _ => Numbering.not_isHidden_of_nodup hnodup _, a.not_mem_of_mem_names⟩

/-- A type stands around the member. -/
theorem exists_parent (p : MemberPath) (flags : NameFlags) :
    ∃ parent, (p.flagged flags).parent? = some parent ∧ parent.parameters = [] := by
  have houter : p.tree.outer.map (·.converted) ≠ [] := mt List.map_eq_nil_iff.mp p.outer_ne_nil
  obtain ⟨s, outer, houter⟩ := List.exists_cons_of_ne_nil houter
  have hpath : (p.flagged flags).classPath = toSegments 0 (s :: outer) :=
    congrArg (toSegments 0) houter
  have hne : (p.flagged flags).classPath ≠ [] := by
    rw [hpath]
    exact List.cons_ne_nil _ _
  refine ⟨_, congrArg (Option.map _) (List.getLast?_eq_some_getLast hne), rfl⟩

end MemberPath

/-! ## One key -/

theorem DocumentationRecord.toEntity_of_method {d : DocumentationRecord} {x : Identifier}
    {exceptions : List ExceptionDoc} (hx : MemberId.parse d.identifier = .ok ⟨.method, x⟩)
    (hexceptions : (d.exceptionDocs d.exceptions).outcome = .ok exceptions) :
    ∃ parts, d.toEntity.outcome = .ok (.member ⟨.method, {
      identifier := x, metadata := d.metadata?, exceptions := exceptions, detail := parts }⟩) := by
  rw [toEntity, hx]
  simp only [Logged.outcome_bind, Logged.outcome_ofExcept, hexceptions]
  exact ⟨_, rfl⟩

/-- A record that makes an entity has an identifier that can be read. -/
theorem DocumentationRecord.exists_parse_of_toEntity {d : DocumentationRecord} {e : Entity}
    (h : d.toEntity.outcome = .ok e) : ∃ id, MemberId.parse d.identifier = .ok id := by
  rw [toEntity, Logged.bind_eq_ok_iff] at h
  obtain ⟨id, hid, -⟩ := h
  rw [Logged.outcome_ofExcept, mapError_eq_ok_iff] at hid
  exact ⟨id, hid⟩

/-- A structural record of a method and a documentation record that writes the same path and
arguments both make an entity.  The two methods have one key, and so have the types around them. -/
theorem StructuralRecord.key_eq_of_memberId {p : MemberPath} {r : StructuralRecord}
    {d : DocumentationRecord} (arguments : List (p.Argument r.genericNames))
    (hkind : MemberKind.ofLabel r.kind = .ok .method) (hpath : r.identifier = p.text)
    (hnodup : r.genericNames.Nodup)
    (hcount : r.genericNames = [] ∨ r.genericNames.length = p.genericCount)
    (htypes : r.parameters.map (·.type) = arguments.map (·.text))
    (hnames : ∀ q ∈ r.parameters, ∃ name, q.displayName = .ok name)
    (hread : ∀ a ∈ arguments, a.IsReadable) (hid : d.identifier = p.memberId arguments)
    (hexceptions : ∃ exceptions, (d.exceptionDocs d.exceptions).outcome = .ok exceptions) :
    ∃ s t : Member .method, r.toEntity = .ok (.member ⟨.method, s⟩) ∧
      d.toEntity.outcome = .ok (.member ⟨.method, t⟩) ∧ s.key = t.key ∧
      ∃ a b, s.identifier.parent? = some a ∧ t.identifier.parent? = some b ∧
        a.canonicalKey = b.canonicalKey := by
  have hmethod : r.IsMethod p.toMethodPath (arguments.map (·.toArgument)) := {
    kind := hkind
    path := hpath
    types := by
      rw [htypes, List.map_map]
      rfl
    displayNames := hnames }
  have hread' : ∀ a ∈ arguments.map (·.toArgument), a.IsReadable := List.forall_mem_map.mpr hread
  obtain ⟨f, ps, hx, hps⟩ := exists_toIdentifier hmethod hcount hread'
    (List.forall_mem_map.mpr fun a _ => a.isClearOf hnodup)
  obtain ⟨exceptions, hexceptions⟩ := hexceptions
  have hparse := (congrArg MemberId.parse hid).trans (p.parse_memberId hread')
  obtain ⟨parts, hdoc⟩ := DocumentationRecord.toEntity_of_method hparse hexceptions
  refine ⟨_, _, toEntity_of_method hkind hx, hdoc, signatureKey_of_renamed hps, ?_⟩
  obtain ⟨parent, hparent, hnone⟩ := p.exists_parent r.flags
  have hrenamed : ((p.flagged r.flags).rename f).parent? = some (parent.rename f) := by
    rw [Identifier.parent?_rename, hparent]
    rfl
  refine ⟨parent.rename f, parent, hrenamed, hparent, ?_⟩
  rw [Identifier.canonicalKey, Identifier.canonical_rename hnone]
  rfl

/-! ## A pair of records -/

theorem tokenize_pairPath : (tokenize "C`1.M``1").dropLast = [⟨.name, 0, [.char 'C']⟩,
    ⟨.backtick, 1, [.char graveAccent]⟩, ⟨.number, 2, [.char '1']⟩, ⟨.period, 3, [.char '.']⟩,
    ⟨.name, 4, [.char 'M']⟩, ⟨.doubleBacktick, 5, [.char graveAccent, .char graveAccent]⟩,
    ⟨.number, 7, [.char '1']⟩] := by decide +kernel

/-- A type and a method in it with one generic parameter each. -/
def pairTree : IdentifierTree where
  outer := [⟨.hashed "C" [], some (.ofType, ⟨[.char '1']⟩)⟩]
  last := ⟨.hashed "M" [], some (.ofMethod, ⟨[.char '1']⟩)⟩
  parameters := none

theorem derives_pairTree : DerivesIdentifier pairTree (tokenize "C`1.M``1").dropLast := by
  have harity : ∀ (m : Token) (mark : Mark) (k : Nat), m.kind.mark? = some mark →
      DerivesArity (some (mark, ⟨[.char '1']⟩)) [m, ⟨.number, k, [.char '1']⟩] :=
    fun m mark k hm => @DerivesArity.some m ⟨.number, k, [.char '1']⟩ mark hm rfl
  have hname : ∀ (c : Char) (k : Nat),
      DerivesSegmentName (.hashed (Text.ofSymbols [.char c]) []) [⟨.name, k, [.char c]⟩] :=
    fun c k => .hashed (@DerivesHashedName.single ⟨.name, k, [.char c]⟩ rfl)
  have htype := DerivesSegment.mk (hname 'C' 0)
    (harity ⟨.backtick, 1, [.char graveAccent]⟩ .ofType 2 rfl)
  have hmethod := DerivesSegment.mk (hname 'M' 4)
    (harity ⟨.doubleBacktick, 5, [.char graveAccent, .char graveAccent]⟩ .ofMethod 7 rfl)
  have hpath := @DerivesPath.cons _ _ _ ⟨.period, 3, [.char '.']⟩ _ _ htype rfl (.single hmethod)
  rw [tokenize_pairPath]
  exact .mk hpath .none

/-- The same as a path with its text. -/
def pairPath : MemberPath where
  text := "C`1.M``1"
  tree := pairTree
  derives := derives_pairTree
  isAccepted := ⟨_, Identifier.parse_of_derives derives_pairTree (by decide) nofun false⟩
  parameters_eq_none := rfl
  outer_ne_nil := List.cons_ne_nil _ _
  mark_of_mem_outer := by decide
  mark_of_last := by decide

/-- A reference to the generic parameter of the type. -/
def pairFirst : pairPath.Argument ["T2", "T1"] where
  text := "`0"
  isOut := false
  tree := .reference .ofType ⟨[.char '0']⟩ []
  derives := by
    have htokens : (tokenize "`0").dropLast =
        [⟨.backtick, 0, [.char graveAccent]⟩, ⟨.number, 1, [.char '0']⟩] := by decide +kernel
    rw [htokens]
    exact @DerivesArgument.reference _ ⟨.number, 1, [.char '0']⟩ _ _ _ rfl rfl .nil
  inRange := by decide
  avoids := by decide +kernel

/-- A list of lists of the generic parameter of the method. -/
def pairSecond : pairPath.Argument ["T2", "T1"] where
  text := "L\x7b``0\x7d[]"
  isOut := true
  tree := .path [.mk "L" [.reference .ofMethod ⟨[.char '0']⟩ []]] [0]
  derives := by
    have htokens : (tokenize "L\x7b``0\x7d[]").dropLast = [⟨.name, 0, [.char 'L']⟩,
        ⟨.leftBrace, 1, [.char '\x7b']⟩, ⟨.doubleBacktick, 2, [.char graveAccent, .char graveAccent]⟩,
        ⟨.number, 4, [.char '0']⟩, ⟨.rightBrace, 5, [.char '\x7d']⟩, ⟨.leftBracket, 6, [.char '[']⟩,
        ⟨.rightBracket, 7, [.char ']']⟩] := by decide +kernel
    have hinner := @DerivesArgument.reference
      ⟨.doubleBacktick, 2, [.char graveAccent, .char graveAccent]⟩ ⟨.number, 4, [.char '0']⟩
      .ofMethod [] [] rfl rfl .nil
    have hname := @DerivesTypeName.generic ⟨.name, 0, [.char 'L']⟩ ⟨.leftBrace, 1, [.char '\x7b']⟩
      ⟨.rightBrace, 5, [.char '\x7d']⟩ _ _ rfl rfl (.single hinner) rfl
    have harray := @DerivesArray.empty ⟨.leftBracket, 6, [.char '[']⟩ ⟨.rightBracket, 7, [.char ']']⟩
      rfl rfl
    rw [htokens]
    exact .path (.single hname) (.cons harray .nil)
  inRange := by decide
  avoids := by decide +kernel

/-- A method whose generic names are the numbers in the other order. -/
def pairRecord : StructuralRecord where
  kind := "method"
  identifier := "C`1.M``1"
  genericNames := ["T2", "T1"]
  parameters := [⟨"`0", .text "x", .none⟩, ⟨"L\x7b``0\x7d[]", .null, .outBit⟩]

/-- The documentation of that method. -/
def pairDocumentation : DocumentationRecord where
  identifier := "M:C`1.M``1(`0,L\x7b``0\x7d[]@)"

theorem StructuralRecord.key_eq_of_memberId_pair :
    ∃ s t : Member .method, pairRecord.toEntity = .ok (.member ⟨.method, s⟩) ∧
      pairDocumentation.toEntity.outcome = .ok (.member ⟨.method, t⟩) ∧ s.key = t.key ∧
      ∃ a b, s.identifier.parent? = some a ∧ t.identifier.parent? = some b ∧
        a.canonicalKey = b.canonicalKey := by
  have hread : ∀ a ∈ [pairFirst, pairSecond], a.IsReadable := by
    intro a ha
    rcases List.mem_cons.mp ha with rfl | ha
    · show ∀ r ∈ pairFirst.tree.references, r.2.IsReadable
      decide
    · rw [List.mem_singleton.mp ha]
      show ∀ r ∈ pairSecond.tree.references, r.2.IsReadable
      decide
  have hnames : ∀ q ∈ pairRecord.parameters, ∃ name, q.displayName = .ok name :=
    List.forall_mem_cons.mpr ⟨⟨some "x", rfl⟩, List.forall_mem_cons.mpr ⟨⟨none, rfl⟩, nofun⟩⟩
  exact key_eq_of_memberId (p := pairPath) [pairFirst, pairSecond] rfl rfl (by decide) (.inr rfl)
    rfl hnames hread rfl ⟨[], rfl⟩

/-! ## An index that is too long -/

/-- The index zero behind the mark for types, written with some more digits than one. -/
def zeroText (n : Nat) : String := String.ofList (graveAccent :: List.replicate (n + 1) '0')

theorem symbols_replicate {c : Char} (hc : c ≠ Text.halfMark) (n : Nat) :
    Text.symbols (List.replicate n c) = List.replicate n (.char c) := by
  induction n with
  | zero => rfl
  | succ n ih => rw [List.replicate_succ, Text.symbols_cons_of_ne hc, ih, List.replicate_succ]

theorem tokenize_zeroText (n : Nat) : (tokenize (zeroText n)).dropLast =
    [⟨.backtick, 0, [.char graveAccent]⟩, ⟨.number, 1, List.replicate (n + 1) (.char '0')⟩] := by
  have hsymbols : Text.symbols (zeroText n).toList =
      .char graveAccent :: .char '0' :: List.replicate n (.char '0') := by
    rw [zeroText, String.toList_ofList, Text.symbols_cons_of_ne (by decide),
      symbols_replicate (by decide), List.replicate_succ]
  have hmark : firstLexeme (.char graveAccent) (.char '0' :: List.replicate n (.char '0')) =
      (.backtick, []) := rfl
  have hnumber : firstLexeme (.char '0') (List.replicate n (.char '0')) =
      (.number, List.replicate n (.char '0')) := by
    show (TokenKind.number, (List.replicate n (Text.Symbol.char '0')).takeWhile _) = _
    rw [List.takeWhile_replicate, if_pos (by decide)]
  have hscan : written 0 (.char graveAccent :: .char '0' :: List.replicate n (.char '0')) =
      [⟨.backtick, 0, [.char graveAccent]⟩, ⟨.number, 1, List.replicate (n + 1) (.char '0')⟩] := by
    rw [written_of_not_isSkipped (by decide), hmark, restAfter, hmark, List.length_nil,
      List.drop_zero, written_of_not_isSkipped (by decide), hnumber, restAfter, hnumber,
      List.drop_length, written_nil, List.replicate_succ]
  rw [tokenize, hsymbols]
  exact hscan

theorem value_replicate (n : Nat) : Numeral.value ⟨List.replicate n (.char '0')⟩ = 0 := by
  rw [Numeral.value]
  induction n with
  | zero => rfl
  | succ n ih => exact ih

/-- The reference that is written so. -/
def zeroArgument (n : Nat) : pairPath.Argument [] where
  text := zeroText n
  isOut := false
  tree := .reference .ofType ⟨List.replicate (n + 1) (.char '0')⟩ []
  derives := by
    rw [tokenize_zeroText]
    exact @DerivesArgument.reference _ ⟨.number, 1, List.replicate (n + 1) (.char '0')⟩ _ _ _ rfl
      rfl .nil
  inRange := by
    intro r hr
    rw [List.mem_singleton.mp hr, value_replicate]
    show 0 < declaredCount .ofType pairPath.tree.segments
    decide
  avoids := fun _ _ _ => List.not_mem_nil

theorem not_isReadable_zeroArgument {n : Nat} (h : Decimal.maxDigits ≤ n) :
    ¬ (zeroArgument n).IsReadable := by
  intro hread
  have hlength := hread _ (List.mem_singleton_self _)
  rw [Numeral.IsReadable, List.length_replicate] at hlength
  omega

/-- The record of a method with that reference as its only argument. -/
def zeroRecord (n : Nat) : StructuralRecord where
  kind := "method"
  identifier := "C`1.M``1"
  parameters := [⟨zeroText n, .text "x", .none⟩]

theorem ofLabel_kind_zeroRecord (n : Nat) :
    MemberKind.ofLabel (zeroRecord n).kind = .ok .method := by
  have hkind : MemberKind.ofLabel "method" = .ok .method := rfl
  exact hkind

/-- An index with more digits than can be converted is in range when it begins with zeros, and yet
such a member id is not read. -/
theorem StructuralRecord.key_eq_of_memberId_not_of_long_index :
    ¬ ∀ (p : MemberPath) (r : StructuralRecord) (d : DocumentationRecord)
      (arguments : List (p.Argument r.genericNames)),
      MemberKind.ofLabel r.kind = .ok .method → r.identifier = p.text → r.genericNames.Nodup →
      (r.genericNames = [] ∨ r.genericNames.length = p.genericCount) →
      r.parameters.map (·.type) = arguments.map (·.text) →
      (∀ q ∈ r.parameters, ∃ name, q.displayName = .ok name) →
      d.identifier = p.memberId arguments →
      (∃ exceptions, (d.exceptionDocs d.exceptions).outcome = .ok exceptions) →
      ∃ s t : Member .method, r.toEntity = .ok (.member ⟨.method, s⟩) ∧
        d.toEntity.outcome = .ok (.member ⟨.method, t⟩) ∧ s.key = t.key ∧
        ∃ a b, s.identifier.parent? = some a ∧ t.identifier.parent? = some b ∧
          a.canonicalKey = b.canonicalKey := by
  intro hall
  obtain ⟨n, hn⟩ : ∃ n, Decimal.maxDigits ≤ n := ⟨_, Nat.le.refl⟩
  have hnames : ∀ q ∈ (zeroRecord n).parameters, ∃ name, q.displayName = .ok name := by
    intro q hq
    rw [List.mem_singleton.mp hq]
    exact ⟨some "x", rfl⟩
  obtain ⟨s, t, -, hdoc, -⟩ := hall pairPath (zeroRecord n)
    { identifier := pairPath.memberId [zeroArgument n] } [zeroArgument n]
    (ofLabel_kind_zeroRecord n) rfl List.nodup_nil (.inl rfl) rfl hnames rfl ⟨[], rfl⟩
  obtain ⟨id, hid⟩ := DocumentationRecord.exists_parse_of_toEntity hdoc
  exact not_isReadable_zeroArgument hn
    (pairPath.isReadable_of_parse_memberId hid _ (List.mem_singleton_self _))

end ApiDocs
