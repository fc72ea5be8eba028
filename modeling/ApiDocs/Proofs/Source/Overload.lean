import Mathlib
import ApiDocs.Proofs.Source.Naming
import ApiDocs.Proofs.Source.Record
import ApiDocs.Proofs.TypeRef.Text

/-!
# Overloads

Methods of one name in one type are told apart by the types of their parameters.  Their keys are too,
as long as no name is taken for a generic one: the canonical form writes numbered names for the
generic ones and leaves all others, so that a type that happens to have a numbered name is then
written like a generic parameter.

* `Identifier.IsCaptureFree`: no such name is among the types of the parameters;
* `Identifier.map_text_eq_of_signatureKey_eq`: equal keys of callables that agree in their names;
* `StructuralRecord.key_ne_of_types_ne`: records of overloads make members with different keys, and
  both fit in one type.
-/

namespace ApiDocs

open Grammar PathSegment

namespace Identifier

/-! ## Names that are taken for others -/

/-- A name in the types of the parameters that is no generic name is none of the numbered names that
the canonical form gives to those. -/
def IsCaptureFree (x : Identifier) : Prop :=
  ∀ p ∈ x.parameters, ∀ a ∈ p.type.mentions, a ∉ x.genericNames →
    a ∉ numbered 0 x.genericNames.length

instance (x : Identifier) : Decidable x.IsCaptureFree :=
  inferInstanceAs (Decidable (∀ p ∈ _, ∀ a ∈ _, _ → _))

/-- Different names get different ones in the canonical form, unless a name is taken for a generic
one. -/
theorem injOn_numbering_apply {x : Identifier} (hnodup : x.genericNames.Nodup) :
    Set.InjOn x.numbering.apply
      {a | a ∉ x.genericNames → a ∉ numbered 0 x.genericNames.length} := by
  have hmem : ∀ a ∈ x.genericNames, x.numbering.apply a ∈ numbered 0 x.genericNames.length := by
    intro a ha
    rw [← map_numbering_apply hnodup]
    exact List.mem_map_of_mem ha
  have hinj : ∀ a ∈ x.genericNames, ∀ b ∈ x.genericNames,
      x.numbering.apply a = x.numbering.apply b → a = b := by
    have hmap : (x.genericNames.map x.numbering.apply).Nodup := by
      rw [map_numbering_apply hnodup]
      exact nodup_numbered _ _
    exact fun a ha b hb => List.inj_on_of_nodup_map hmap ha hb
  intro a ha b hb heq
  by_cases hdeclared : a ∈ x.genericNames
  · by_cases hdeclared' : b ∈ x.genericNames
    · exact hinj a hdeclared b hdeclared' heq
    · rw [numbering_apply_of_not_mem hdeclared'] at heq
      exact absurd (heq ▸ hmem a hdeclared) (hb hdeclared')
  · by_cases hdeclared' : b ∈ x.genericNames
    · rw [numbering_apply_of_not_mem hdeclared] at heq
      exact absurd (heq ▸ hmem b hdeclared') (ha hdeclared)
    · rwa [numbering_apply_of_not_mem hdeclared, numbering_apply_of_not_mem hdeclared'] at heq

/-! ## Keys -/

/-- The key of a callable: name, generic names and types. -/
theorem signatureKey_of_isCallable {x : Identifier} (h : x.isCallable = true) :
    x.signatureKey = x.name ++
      angled (numbered x.pathGenericNames.length x.typeParameters.length) ++
      ("(" ++ ", ".intercalate (x.canonicalTypes.map TypeRef.text) ++ ")") := by
  rw [signatureKey_eq, h, Bool.true_or, if_pos rfl]

/-- Callables agree in what is not said by the types of their parameters. -/
structure IsOverload (x y : Identifier) : Prop where
  name : x.name = y.name
  classPath : x.classPath = y.classPath
  typeParameters : x.typeParameters = y.typeParameters

theorem IsOverload.genericNames_eq {x y : Identifier} (h : x.IsOverload y) :
    x.genericNames = y.genericNames := by
  rw [genericNames, genericNames, pathGenericNames, pathGenericNames, h.classPath,
    h.typeParameters]

theorem IsOverload.numbering_eq {x y : Identifier} (h : x.IsOverload y) :
    x.numbering = y.numbering := by
  rw [numbering, numbering, h.genericNames_eq]

/-- The names in the canonical types are words when names that are not generic are. -/
theorem built_canonicalTypes {x : Identifier} (hnodup : x.genericNames.Nodup)
    (hbuilt : ∀ p ∈ x.parameters, p.type.Built fun a => IsWord a ∨ a ∈ x.genericNames) :
    ∀ t ∈ x.canonicalTypes, t.Built IsWord := by
  rw [canonicalTypes, List.forall_mem_map]
  intro p hp
  refine (hbuilt p hp).rename fun a ha => ?_
  by_cases hdeclared : a ∈ x.genericNames
  · refine isWord_of_mem_numbered _ (?_ : _ ∈ numbered 0 x.genericNames.length)
    rw [← map_numbering_apply hnodup]
    exact List.mem_map_of_mem hdeclared
  · rw [numbering_apply_of_not_mem hdeclared]
    exact ha.resolve_right hdeclared

/-- Overloads with equal keys have parameters of the same types. -/
theorem map_text_eq_of_signatureKey_eq {x y : Identifier} (h : x.IsOverload y)
    (hnodup : x.genericNames.Nodup) (hx : x.isCallable = true) (hy : y.isCallable = true)
    (hbuilt : ∀ p ∈ x.parameters, p.type.Built fun a => IsWord a ∨ a ∈ x.genericNames)
    (hbuilt' : ∀ p ∈ y.parameters, p.type.Built fun a => IsWord a ∨ a ∈ y.genericNames)
    (hfree : x.IsCaptureFree) (hfree' : y.IsCaptureFree) (hkey : x.signatureKey = y.signatureKey) :
    x.parameters.map (·.type.text) = y.parameters.map (·.type.text) := by
  rw [signatureKey_of_isCallable hx, signatureKey_of_isCallable hy, h.name, h.typeParameters,
    pathGenericNames, h.classPath, ← pathGenericNames, String.append_right_inj,
    String.append_left_inj, String.append_right_inj] at hkey
  have hcanonical : x.canonicalTypes.map TypeRef.standard = y.canonicalTypes.map TypeRef.standard :=
    TypeRef.map_standard_eq_of_intercalate_eq (built_canonicalTypes hnodup hbuilt)
      (built_canonicalTypes (h.genericNames_eq ▸ hnodup) hbuilt') hkey
  -- The numbering is undone, on both sides by the same renaming.
  obtain ⟨g, hg⟩ := TypeRef.exists_rename_rename_eq (injOn_numbering_apply hnodup)
  have hback : ∀ z : Identifier, z.genericNames = x.genericNames → z.numbering = x.numbering →
      z.IsCaptureFree → ((z.canonicalTypes.map TypeRef.standard).map (TypeRef.rename g)).map
        TypeRef.text = z.parameters.map (·.type.text) := by
    intro z hgeneric hnumbering hz
    rw [canonicalTypes, hnumbering, List.map_map, List.map_map, List.map_map]
    refine List.map_congr_left fun p hp => ?_
    have hnames : ∀ a ∈ p.type.standard.mentions,
        a ∉ x.genericNames → a ∉ numbered 0 x.genericNames.length := by
      rw [TypeRef.mentions_standard, ← hgeneric]
      exact hz p hp
    simp only [Function.comp_apply]
    rw [TypeRef.standard_rename, hg _ hnames, TypeRef.text_standard]
  rw [← hback x rfl rfl hfree, hcanonical,
    hback y h.genericNames_eq.symm h.numbering_eq.symm hfree']

end Identifier

/-! ## Overloads in one type -/

/-- Members of one class with different keys fit in a type that has neither key. -/
theorem TypeDoc.exists_addMember_addMember {c : MemberClass} {owner : TypeDoc} {m n : Member c}
    (hm : (owner.members.get c).contains m.key = false)
    (hn : (owner.members.get c).contains n.key = false) (hne : m.key ≠ n.key) :
    ∃ a b, owner.addMember ⟨c, m⟩ = .ok a ∧ a.addMember ⟨c, n⟩ = .ok b := by
  refine ⟨_, _, if_neg (by rw [hm]; exact nofun), if_neg ?_⟩
  rw [MemberTables.get_set_self, KeyTable.contains, KeyTable.get?_insert, if_neg hne]
  rw [KeyTable.contains] at hn
  rw [hn]
  exact nofun

namespace StructuralRecord

/-- What a record of a method makes, in terms of identifiers. -/
theorem toIdentifier_of_method {r : StructuralRecord} {m : Member .method}
    (h : r.toEntity = .ok (.member ⟨.method, m⟩)) :
    MemberKind.ofLabel r.kind = .ok .method ∧ r.toIdentifier = .ok m.identifier :=
  ⟨(toEntity_outcome h).1.kind, (toEntity_outcome h).1.identifier⟩

theorem isCallable_of_method {r : StructuralRecord} {x : Identifier}
    (hkind : MemberKind.ofLabel r.kind = .ok .method) (h : r.toIdentifier = .ok x) :
    x.isCallable = true := by
  obtain ⟨kind, y, z, hkind', hy, -, -, hx, -⟩ := toIdentifier_eq_ok h
  rw [hkind] at hkind'
  cases hkind'
  obtain ⟨tree, -, -, -, rfl⟩ := Identifier.derives_of_parse hy
  rw [hx]
  exact NameFlags.overlaps_or_left tree.isCallable_toIdentifier r.flags

/-- Records of one text and the same real names make overloads. -/
theorem isOverload_of_toIdentifier {r r' : StructuralRecord} {x y : Identifier}
    (hkind : MemberKind.ofLabel r.kind = MemberKind.ofLabel r'.kind)
    (hidentifier : r.identifier = r'.identifier) (hnames : r.genericNames = r'.genericNames)
    (hx : r.toIdentifier = .ok x) (hy : r'.toIdentifier = .ok y) : x.IsOverload y := by
  obtain ⟨kind, z, -, hk, hz, -, rfl, hx, -⟩ := toIdentifier_eq_ok hx
  obtain ⟨kind', z', -, hk', hz', -, rfl, hy, -⟩ := toIdentifier_eq_ok hy
  rw [hkind, hk'] at hk
  cases hk
  rw [hidentifier, hz'] at hz
  cases hz
  rw [hx, hy, hnames]
  exact ⟨rfl, rfl, rfl⟩

/-- Two records of methods with one text and the same distinct generic names make members of
different keys when the types of their parameters are written differently, as long as no name is
taken for a generic one.  Both members then fit in a type that has neither key. -/
theorem key_ne_of_types_ne {r r' : StructuralRecord} {m n : Member .method}
    (hidentifier : r.identifier = r'.identifier) (hnames : r.genericNames = r'.genericNames)
    (hnodup : r.genericNames.Nodup) (hm : r.toEntity = .ok (.member ⟨.method, m⟩))
    (hn : r'.toEntity = .ok (.member ⟨.method, n⟩)) (hfree : m.identifier.IsCaptureFree)
    (hfree' : n.identifier.IsCaptureFree)
    (hne : m.identifier.parameters.map (·.type.text) ≠ n.identifier.parameters.map (·.type.text)) :
    m.key ≠ n.key ∧ ∀ owner : TypeDoc, owner.members.methods.contains m.key = false →
      owner.members.methods.contains n.key = false →
      ∃ a b, owner.addMember ⟨.method, m⟩ = .ok a ∧ a.addMember ⟨.method, n⟩ = .ok b := by
  obtain ⟨hkind, hm⟩ := toIdentifier_of_method hm
  obtain ⟨hkind', hn⟩ := toIdentifier_of_method hn
  have hkey : m.key ≠ n.key := by
    intro hkey
    refine hne (Identifier.map_text_eq_of_signatureKey_eq ?_ (nodup_genericNames hm hnodup)
      (isCallable_of_method hkind hm) (isCallable_of_method hkind' hn) (built_of_toIdentifier hm)
      (built_of_toIdentifier hn) hfree hfree' hkey)
    exact isOverload_of_toIdentifier (hkind.trans hkind'.symm) hidentifier hnames hm hn
  exact ⟨hkey, fun owner hm' hn' => TypeDoc.exists_addMember_addMember hm' hn' hkey⟩

/-- A generic method with one parameter. -/
def overload (type : String) : StructuralRecord where
  kind := "method"
  identifier := "C.M``1"
  genericNames := ["A"]
  parameters := [{ type }]

/-- The identifier of that method. -/
def overloadIdentifier (type : TypeRef) : Identifier where
  classPath := [{ name := "C" }]
  name := "M"
  typeParameters := ["A"]
  parameters := [{ type }]
  flags := .methodBit

theorem toEntity_overload {type : String} {t : TypeRef}
    (h : TypeRef.parse type ⟨[], ["A"]⟩ = .ok t) : ∃ m : Member .method,
      (overload type).toEntity = .ok (.member ⟨.method, m⟩) ∧
      m.identifier = overloadIdentifier t := by
  have hkind : MemberKind.ofLabel "method" = .ok .method := rfl
  have hparse : Identifier.parse "C.M``1" true =
      .ok ⟨[{ name := "C" }], "M", ["T1"], [], .methodBit⟩ := by cbv
  have happly : applyGenericNames ["A"] ⟨[{ name := "C" }], "M", ["T1"], [], .methodBit ||| .none⟩ =
      .ok ⟨[{ name := "C" }], "M", ["A"], [], .methodBit⟩ := by cbv
  have hparameter : ParameterShape.toParameter ⟨[], ["A"]⟩ { type } = .ok { type := t } := by
    rw [ParameterShape.toParameter, h]
    rfl
  have hx : (overload type).toIdentifier = .ok (overloadIdentifier t) := by
    rw [@toIdentifier_of_steps (overload type) _ _ _ hkind hparse happly]
    show (List.mapM (ParameterShape.toParameter ⟨[], ["A"]⟩) [{ type }] >>= _) = _
    rw [List.mapM_cons, hparameter, List.mapM_nil]
    rfl
  exact ⟨_, toEntity_of_method hkind hx, rfl⟩

theorem parse_generic : TypeRef.parse "``0" ⟨[], ["A"]⟩ = .ok (.simple ["A"]) := by
  have htokens : (Token.tokenize "``0").dropLast = [⟨.doubleBacktick, 0, [.char Token.graveAccent,
      .char Token.graveAccent]⟩, ⟨.number, 2, [.char '0']⟩] := by decide +kernel
  have hderives : DerivesArgument (.reference .ofMethod ⟨[.char '0']⟩ [])
      (Token.tokenize "``0").dropLast := by
    rw [htokens]
    exact @DerivesArgument.reference _ ⟨.number, 2, [.char '0']⟩ _ _ _ rfl rfl .nil
  refine TypeRef.parse_of_derives hderives fun r hr => ?_
  rw [List.mem_singleton.mp hr]
  decide

theorem key_ne_of_types_ne_of_numbered : ∃ m n : Member .method,
    (overload "``0").toEntity = .ok (.member ⟨.method, m⟩) ∧
    (overload "T2").toEntity = .ok (.member ⟨.method, n⟩) ∧ m.key ≠ n.key ∧
    ∀ owner : TypeDoc, owner.members.methods.contains m.key = false →
      owner.members.methods.contains n.key = false →
      ∃ a b, owner.addMember ⟨.method, m⟩ = .ok a ∧ a.addMember ⟨.method, n⟩ = .ok b := by
  obtain ⟨m, hm, hmx⟩ := toEntity_overload parse_generic
  obtain ⟨n, hn, hnx⟩ := @toEntity_overload "T2" _
    (TypeRef.parse_plain _ (t := ⟨.name, 0, [.char 'T', .char '2']⟩) (by decide +kernel) rfl)
  refine ⟨m, n, hm, hn, ?_⟩
  refine @key_ne_of_types_ne (overload "``0") (overload "T2") m n rfl rfl (by decide) hm hn ?_ ?_ ?_
  · rw [hmx]
    decide
  · rw [hnx]
    decide
  · rw [hmx, hnx]
    decide

/-- A type with a numbered name is taken for a generic parameter, and then overloads have one key. -/
theorem not_forall_key_ne : ¬ ∀ (r r' : StructuralRecord) (m n : Member .method),
    r.identifier = r'.identifier → r.genericNames = r'.genericNames → r.genericNames.Nodup →
    r.toEntity = .ok (.member ⟨.method, m⟩) → r'.toEntity = .ok (.member ⟨.method, n⟩) →
    m.identifier.parameters.map (·.type.text) ≠ n.identifier.parameters.map (·.type.text) →
    m.key ≠ n.key := by
  intro hall
  obtain ⟨m, hm, hmx⟩ := toEntity_overload parse_generic
  obtain ⟨n, hn, hnx⟩ := @toEntity_overload "T1" _
    (TypeRef.parse_plain _ (t := ⟨.name, 0, [.char 'T', .char '1']⟩) (by decide +kernel) rfl)
  refine hall (overload "``0") (overload "T1") m n rfl rfl (by decide) hm hn ?_ ?_
  · rw [hmx, hnx]
    decide
  · rw [Member.key, Member.key, hmx, hnx]
    decide

end StructuralRecord

end ApiDocs
