import ApiDocs.Proofs.Source.MemberKey

/-!
# References to generic parameters

The type of a parameter refers to a generic parameter by a mark and an index or, once real names are
given, by a name.  On the way from the text to the key a reference by an index is a name as well, so it
is lost when its name is declared again further inside.  And since all names of a type are replaced, the
parts of a qualified name are taken for references too.

* `StructuralRecord.exists_key_of_references`: parameters that are references, for all generic names;
* `StructuralRecord.not_forall_key_of_references`: a hidden reference, and an index that is too long;
* `StructuralRecord.canonical_names_and_key`: what becomes of the names of the types in a parameter list;
* `StructuralRecord.not_forall_qualified`: a qualified name with the name of a generic parameter.
-/

namespace ApiDocs

open Grammar ApiDocs.Numbering PathSegment Token

/-- The argument is a reference to a generic parameter, with any array suffixes. -/
def ArgumentTree.IsReference : ArgumentTree → Prop
  | .reference _ _ _ => True
  | .path _ _ => False

theorem ArgumentTree.names_of_isReference {a : ArgumentTree} (h : a.IsReference) : a.names = [] := by
  cases a with
  | reference mark index arrays => rfl
  | path names arrays => cases h

namespace StructuralRecord

/-! ## A method in a generic type -/

/-- A method with one parameter in a type, with one generic parameter each. -/
def pairMethod (a b type : String) : StructuralRecord where
  kind := "method"
  identifier := "C`1.M``1"
  genericNames := [a, b]
  parameters := [⟨type, .text "x", .none⟩]

/-- The identifier of that method. -/
def pairIdentifier (a b : String) (type : TypeRef) : Identifier where
  classPath := [{ name := "C", typeParameters := [a] }]
  name := "M"
  typeParameters := [b]
  parameters := [{ type, name := some "x" }]
  flags := .methodBit

theorem ofLabel_kind_pairMethod (a b type : String) :
    MemberKind.ofLabel (pairMethod a b type).kind = .ok .method := by
  have hkind : MemberKind.ofLabel "method" = .ok .method := rfl
  exact hkind

theorem isMethod_pairMethod (a b : String) (argument : pairPath.toMethodPath.Argument) :
    (pairMethod a b argument.text).IsMethod pairPath.toMethodPath [argument] :=
  ⟨ofLabel_kind_pairMethod a b _, rfl, rfl, List.forall_mem_singleton.mpr ⟨some "x", rfl⟩⟩

theorem toEntity_pairMethod {a b : String} {argument : pairPath.toMethodPath.Argument}
    (hres : (Scope.mk [a] [b]).Resolves argument.tree.references) : ∃ s : Member .method,
      (pairMethod a b argument.text).toEntity = .ok (.member ⟨.method, s⟩) ∧
      s.identifier = pairIdentifier a b (argument.tree.read ⟨[a], [b]⟩) := by
  have hkind := ofLabel_kind_pairMethod a b argument.text
  have hflagged : pairPath.flagged .none = {
      classPath := [{ name := "C", typeParameters := ["T1"] }]
      name := "M"
      typeParameters := ["T2"]
      flags := .methodBit } := rfl
  have happly : applyGenericNames [a, b] (pairPath.flagged .none) = .ok {
      classPath := [{ name := "C", typeParameters := [a] }]
      name := "M"
      typeParameters := [b]
      flags := .methodBit } := by
    rw [hflagged]
    refine (@applyGenericNames_of_count [a, b] _ (.inr rfl)).trans ?_
    simp [Identifier.rename, Segment.rename, realName, Numbering.apply, Identifier.genericNames,
      Identifier.pathGenericNames, List.lookup_cons]
  have hparameters : (pairMethod a b argument.text).parameters.mapM (·.toParameter ⟨[a], [b]⟩) =
      .ok [{ type := argument.tree.read ⟨[a], [b]⟩, name := some "x" }] := by
    have hparameter : ParameterShape.toParameter ⟨[a], [b]⟩ ⟨argument.text, .text "x", .none⟩ =
        .ok { type := argument.tree.read ⟨[a], [b]⟩, name := some "x" } :=
      ParameterShape.toParameter_eq rfl rfl hres
    show List.mapM _ [_] = _
    rw [List.mapM_cons, hparameter, List.mapM_nil]
    rfl
  have hx := @toIdentifier_of_steps (pairMethod a b argument.text) _ _ _ hkind
    (pairPath.toMethodPath.parse_text true) happly
  rw [if_neg (by exact Bool.false_ne_true)] at hx
  exact ⟨_, toEntity_of_method hkind (hx.trans (congrArg (· >>= _) hparameters)), rfl⟩

/-! ## Parameters that are references -/

/-- A method all of whose parameters are references has the key of the member id with the same
references, whatever its generic names are, as long as they are as many as the path declares and none
that is referred to is declared again further inside. -/
theorem exists_key_of_references {r : StructuralRecord} {p : MethodPath} {arguments : List p.Argument}
    (h : r.IsMethod p arguments) (hreferences : ∀ a ∈ arguments, a.tree.IsReference)
    (hread : ∀ a ∈ arguments, a.IsReadable) :
    ∃ y, MemberId.parse (p.memberId arguments) = .ok ⟨.method, y⟩ ∧
      ∀ names : List String, names.length = p.genericCount →
        (∀ a ∈ arguments, ∀ ref ∈ a.tree.references, ¬ IsHidden names (p.position ref)) →
        ∃ s : Member .method, { r with genericNames := names }.toEntity = .ok (.member ⟨.method, s⟩) ∧
          s.key = y.signatureKey := by
  refine ⟨_, p.parse_memberId hread, fun names hcount hshown => ?_⟩
  have hmethod : { r with genericNames := names }.IsMethod p arguments :=
    ⟨h.kind, h.path, h.types, h.displayNames⟩
  refine exists_toEntity_key hmethod (.inr hcount) hread fun a ha => ⟨hshown a ha, ?_⟩
  rw [ArgumentTree.names_of_isReference (hreferences a ha)]
  exact nofun

/-- A list of the generic parameter of the method. -/
def innerArgument : pairPath.toMethodPath.Argument where
  text := "``0[]"
  isOut := true
  tree := .reference .ofMethod ⟨[.char '0']⟩ [0]
  derives := by
    have htokens : (tokenize "``0[]").dropLast = [⟨.doubleBacktick, 0, [.char graveAccent,
        .char graveAccent]⟩, ⟨.number, 2, [.char '0']⟩, ⟨.leftBracket, 3, [.char '[']⟩,
        ⟨.rightBracket, 4, [.char ']']⟩] := by decide +kernel
    have harray := @DerivesArray.empty ⟨.leftBracket, 3, [.char '[']⟩ ⟨.rightBracket, 4, [.char ']']⟩
      rfl rfl
    rw [htokens]
    exact @DerivesArgument.reference _ ⟨.number, 2, [.char '0']⟩ _ _ _ rfl rfl (.cons harray .nil)
  inRange := by decide

/-- The generic parameter of the method may have the name of that of the type when only the former is
referred to. -/
theorem exists_key_of_references_of_repeated :
    ∃ y, MemberId.parse "M:C`1.M``1(``0[]@)" = .ok ⟨.method, y⟩ ∧
      ∃ s : Member .method, (pairMethod "A" "A" "``0[]").toEntity = .ok (.member ⟨.method, s⟩) ∧
        s.key = y.signatureKey := by
  have hread : ∀ a ∈ [innerArgument], a.IsReadable := by
    refine List.forall_mem_singleton.mpr ?_
    show ∀ r ∈ innerArgument.tree.references, r.2.IsReadable
    decide
  obtain ⟨y, hy, hall⟩ := exists_key_of_references (isMethod_pairMethod "A" "A" innerArgument)
    (List.forall_mem_singleton.mpr trivial) hread
  exact ⟨y, hy, hall ["A", "A"] rfl (List.forall_mem_singleton.mpr (by decide))⟩

/-- The generic parameter of the type is not found when it is called like that of the method, and an
index that is too long to be converted is not read at all. -/
theorem not_forall_key_of_references :
    (¬ ∀ (r : StructuralRecord) (p : MethodPath) (arguments : List p.Argument) (names : List String)
      (y : Identifier), r.IsMethod p arguments → (∀ a ∈ arguments, a.tree.IsReference) →
      names.length = p.genericCount → MemberId.parse (p.memberId arguments) = .ok ⟨.method, y⟩ →
      ∃ s : Member .method, { r with genericNames := names }.toEntity = .ok (.member ⟨.method, s⟩) ∧
        s.key = y.signatureKey) ∧
    ¬ ∀ (r : StructuralRecord) (p : MethodPath) (arguments : List p.Argument),
      r.IsMethod p arguments → (∀ a ∈ arguments, a.tree.IsReference) →
      ∃ y, MemberId.parse (p.memberId arguments) = .ok ⟨.method, y⟩ := by
  constructor
  · intro hall
    have hread : ∀ a ∈ [pairFirst.toArgument], a.IsReadable := by
      refine List.forall_mem_singleton.mpr ?_
      show ∀ r ∈ pairFirst.tree.references, r.2.IsReadable
      decide
    have hres : (Scope.mk ["A"] ["A"]).Resolves pairFirst.toArgument.tree.references := by
      intro ref href
      rw [List.mem_singleton.mp href]
      decide
    obtain ⟨s, hs, hkey⟩ := hall (pairMethod "A" "A" "`0") pairPath.toMethodPath
      [pairFirst.toArgument] ["A", "A"] _ (isMethod_pairMethod "A" "A" pairFirst.toArgument)
      (List.forall_mem_singleton.mpr trivial) rfl (pairPath.toMethodPath.parse_memberId hread)
    obtain ⟨s', hs', hx⟩ := toEntity_pairMethod hres
    cases hs.symm.trans hs'
    rw [Member.key, hx] at hkey
    exact absurd hkey (by decide)
  · intro hall
    obtain ⟨n, hn⟩ : ∃ n, Decimal.maxDigits ≤ n := ⟨_, Nat.le.refl⟩
    obtain ⟨y, hy⟩ := hall (zeroRecord n) pairPath.toMethodPath [(zeroArgument n).toArgument]
      ⟨ofLabel_kind_zeroRecord n, rfl, rfl, List.forall_mem_singleton.mpr ⟨some "x", rfl⟩⟩
      (List.forall_mem_singleton.mpr trivial)
    exact not_isReadable_zeroArgument hn
      (pairPath.toMethodPath.isReadable_of_parse_memberId hy _ (List.mem_singleton_self _))

/-! ## Qualified names -/

/-- In the canonical form every type in the parameter list stays at its place, with its array suffixes.
The names of its path are kept when each that is a generic name is the number of the declaration that
counts, and only then.  A name by itself is kept when it is no generic name, and otherwise it becomes
that number.  A method has then the key of the member id with the same types, as long as they write none
of its generic names. -/
theorem canonical_names_and_key (x : Identifier) (r : StructuralRecord) :
    (∀ (i : Nat) (place : List (Nat × Nat)) (t : TypeRef), x.typeAt? i place = some t →
      ∃ u, x.canonical.typeAt? i place = some u ∧ u.arrays = t.arrays ∧
        (u.path = t.path ↔ ∀ a ∈ t.path, ∀ k, x.genericNames[k]? = some a →
          ¬ IsHidden x.genericNames k → a = numberedName (k + 1)) ∧
        ∀ a, t.path = [a] → (a ∉ x.genericNames → u.path = [a]) ∧
          (a ∈ x.genericNames → ∃ k, x.genericNames[k]? = some a ∧ ¬ IsHidden x.genericNames k ∧
            u.path = [numberedName (k + 1)])) ∧
    ∀ (p : MethodPath) (arguments : List p.Argument), r.IsMethod p arguments →
      (r.genericNames = [] ∨ r.genericNames.length = p.genericCount) →
      (∀ a ∈ arguments, a.IsReadable) → (∀ a ∈ arguments, a.IsClearOf r.genericNames) →
      ∃ (s : Member .method) (y : Identifier), r.toEntity = .ok (.member ⟨.method, s⟩) ∧
        MemberId.parse (p.memberId arguments) = .ok ⟨.method, y⟩ ∧ s.key = y.signatureKey := by
  refine ⟨fun i place t ht => ?_, fun p arguments h hcount hread hclear => ?_⟩
  · refine ⟨t.rename x.numbering.apply, ?_, t.arrays_rename _, ?_, fun a ha => ?_⟩
    · rw [x.typeAt?_canonical, ht, Option.map_some]
    · have hkept : t.path.map x.numbering.apply = t.path ↔ ∀ a ∈ t.path, x.numbering.apply a = a := by
        have h := @List.map_inj_left _ _ t.path x.numbering.apply id
        rwa [List.map_id] at h
      rw [t.path_rename, hkept]
      exact forall₂_congr fun a _ => Identifier.numbering_apply_eq_self_iff
    · rw [t.path_rename, ha, List.map_singleton]
      constructor
      · intro hnone
        rw [Identifier.numbering_apply_of_not_mem hnone]
      · intro hmem
        obtain ⟨k, hk, hshown⟩ := exists_not_isHidden hmem
        exact ⟨k, hk, hshown, by rw [Identifier.numbering_apply_of_not_isHidden hk hshown]⟩
  · obtain ⟨s, hs, hkey⟩ := exists_toEntity_key h hcount hread hclear
    exact ⟨s, _, hs, p.parse_memberId hread, hkey⟩

/-- A type in a namespace. -/
def qualifiedArgument : pairPath.toMethodPath.Argument where
  text := "Ns.T"
  isOut := false
  tree := .path [.mk "Ns" [], .mk "T" []] []
  derives := by
    have htokens : (tokenize "Ns.T").dropLast = [⟨.name, 0, [.char 'N', .char 's']⟩,
        ⟨.period, 2, [.char '.']⟩, ⟨.name, 3, [.char 'T']⟩] := by decide +kernel
    have hfirst := @DerivesTypeName.plain ⟨.name, 0, [.char 'N', .char 's']⟩ rfl
    have hsecond := @DerivesTypeName.plain ⟨.name, 3, [.char 'T']⟩ rfl
    have hpath := @DerivesTypePath.cons _ _ ⟨.period, 2, [.char '.']⟩ _ _ hfirst rfl (.single hsecond)
    rw [htokens]
    exact .path hpath .nil
  inRange := nofun

/-- A method with an array of types in a namespace, the first of which is generic. -/
def mapIdentifier : Identifier :=
  pairIdentifier "K" "V" (.mk [.mk "Ns" [], .mk "Map" [.simple ["K"]]] [1])

/-- Under generic names that it does not write, a qualified name is kept, and so is the key. -/
theorem canonical_names_and_key_of_qualified :
    (∃ u v, mapIdentifier.canonical.typeAt? 0 [] = some u ∧ u.path = ["Ns", "Map"] ∧
      mapIdentifier.canonical.typeAt? 0 [(1, 0)] = some v ∧ v.path = ["T1"]) ∧
    ∃ (s : Member .method) (y : Identifier),
      (pairMethod "K" "V" "Ns.T").toEntity = .ok (.member ⟨.method, s⟩) ∧
      MemberId.parse "M:C`1.M``1(Ns.T)" = .ok ⟨.method, y⟩ ∧ s.key = y.signatureKey := by
  obtain ⟨hnames, hkey⟩ := canonical_names_and_key mapIdentifier (pairMethod "K" "V" "Ns.T")
  constructor
  · obtain ⟨u, hu, -, hqualified, -⟩ := hnames 0 [] _ rfl
    obtain ⟨v, hv, -, -, hsingle⟩ := hnames 0 [(1, 0)] _ rfl
    obtain ⟨k, hk, -, hpath⟩ := (hsingle "K" rfl).2 (by decide)
    have hforeign : ∀ a ∈ ["Ns", "Map"], a ∉ mapIdentifier.genericNames := by decide
    refine ⟨u, v, hu, hqualified.mpr fun a ha k hk _ => ?_, hv, ?_⟩
    · exact absurd (List.mem_of_getElem? hk) (hforeign a ha)
    have hplace : k = 0 := by
      have hlt : k < 2 := (List.getElem?_eq_some_iff.mp hk).1
      have hall : ∀ k < 2, ["K", "V"][k]? = some "K" → k = 0 := by decide
      exact hall k hlt hk
    rw [hpath, hplace]
    rfl
  · refine hkey pairPath.toMethodPath [qualifiedArgument]
      (isMethod_pairMethod "K" "V" qualifiedArgument) (.inr rfl)
      (List.forall_mem_singleton.mpr nofun) (List.forall_mem_singleton.mpr ⟨nofun, ?_⟩)
    decide

/-- A part of a qualified name that is spelled like a generic parameter is taken for it, and then the
key is not that of the member id with the same type. -/
theorem not_forall_qualified :
    (¬ ∀ (x : Identifier) (i : Nat) (place : List (Nat × Nat)) (t : TypeRef),
      x.typeAt? i place = some t → 2 ≤ t.path.length →
      ∃ u, x.canonical.typeAt? i place = some u ∧ u.path = t.path) ∧
    ¬ ∀ (r : StructuralRecord) (p : MethodPath) (arguments : List p.Argument) (s : Member .method)
      (y : Identifier), r.IsMethod p arguments →
      (∀ a ∈ arguments, ∃ first second more, a.tree = .path (first :: second :: more) []) →
      r.toEntity = .ok (.member ⟨.method, s⟩) →
      MemberId.parse (p.memberId arguments) = .ok ⟨.method, y⟩ → s.key = y.signatureKey := by
  constructor
  · intro hall
    obtain ⟨u, hu, hpath⟩ :=
      hall (pairIdentifier "T" "U" (.simple ["Ns", "T"])) 0 [] (.simple ["Ns", "T"]) rfl (by decide)
    rw [Identifier.typeAt?_canonical] at hu
    cases hu
    exact absurd hpath (by decide)
  · intro hall
    have hres : (Scope.mk ["T"] ["U"]).Resolves qualifiedArgument.tree.references := nofun
    have hread : ∀ a ∈ [qualifiedArgument], a.IsReadable := List.forall_mem_singleton.mpr nofun
    obtain ⟨s, hs, hx⟩ := toEntity_pairMethod hres
    have hkey := hall (pairMethod "T" "U" "Ns.T") pairPath.toMethodPath [qualifiedArgument] s _
      (isMethod_pairMethod "T" "U" qualifiedArgument)
      (List.forall_mem_singleton.mpr ⟨_, _, _, rfl⟩) hs (pairPath.toMethodPath.parse_memberId hread)
    rw [Member.key, hx] at hkey
    exact absurd hkey (by decide)

end StructuralRecord

end ApiDocs
