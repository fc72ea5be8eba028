import ApiDocs.Proofs.Catalog.Merge
import ApiDocs.Proofs.Grammar.MemberId
import ApiDocs.Proofs.Identifier.Keys
import ApiDocs.Proofs.Source.Naming
import ApiDocs.Proofs.Source.Record

/-!
# One key for a type from both sides

The key of a type is the text of its canonical form.  Real generic names are not seen in it, and of the
flags it shows only whether the type is callable, since what is callable is written with parentheses.  So
a structural record of a type and a documentation record that writes the same path name one type, unless
the structural record has parameters or the flags of something callable.

* `Identifier.text_with_flags`: the flags of which the text depends;
* `StructuralRecord.key_eq_of_type`: the key of a type, and what a merge does with it;
* `StructuralRecord.not_forall_key_of_type`: types with the flags of a method or with parameters.
-/

namespace ApiDocs

open PathSegment

/-! ## Flags in texts -/

/-- A name as it is written is callable if and only if it is that of a constructor. -/
theorem SegmentName.overlaps_anyConstructor (name : SegmentName) :
    name.flags.overlaps .anyConstructor = name.flags.overlaps .callable := by
  cases name with
  | hashed first more =>
    cases more with
    | nil => rw [flags]; decide
    | cons next more => rw [flags]; decide
  | special name =>
    rw [flags]
    split <;> decide
  | classSpecial name =>
    rw [flags]
    split <;> decide

/-- Further flags add nothing callable to a name when they have nothing callable or the name is that of
a constructor. -/
theorem SegmentName.overlaps_flags_or {name : SegmentName} (hwords : ∀ w ∈ name.words, IsWord w)
    {g : NameFlags} (hg : g.overlaps .callable = true → IsConstructor name.text) :
    (name.flags ||| g).overlaps .anyConstructor = name.flags.overlaps .anyConstructor ∧
      (name.flags ||| g).overlaps .callable = name.flags.overlaps .callable := by
  by_cases hcallable : g.overlaps .callable = true
  · have hname := (overlaps_callable_iff hwords).mpr (hg hcallable)
    rw [NameFlags.overlaps_or, NameFlags.overlaps_or, name.overlaps_anyConstructor, hname]
    exact ⟨rfl, rfl⟩
  · have hnone : g.overlaps .callable = false := Bool.not_eq_true _ ▸ hcallable
    have hboth := hnone
    rw [g.overlaps_callable, Bool.or_eq_false_iff] at hboth
    rw [NameFlags.overlaps_or, NameFlags.overlaps_or, hnone, hboth.2, Bool.or_false, Bool.or_false]
    exact ⟨rfl, rfl⟩

/-- Of the flags the text shows only what is a constructor and what is callable. -/
theorem Identifier.text_with_flags {x : Identifier} {f : NameFlags}
    (hconstructor : f.overlaps .anyConstructor = x.flags.overlaps .anyConstructor)
    (hcallable : f.overlaps .callable = x.flags.overlaps .callable) :
    { x with flags := f }.text = x.text := by
  have hname : { x with flags := f }.displayName = x.displayName := by
    rw [displayName, displayName]
    simp only [hconstructor]
  have hparameters : { x with flags := f }.parameterText = x.parameterText := by
    rw [parameterText, parameterText, isCallable, isCallable]
    simp only [hcallable]
  rw [text, text, render, render, hname, hparameters]
  rfl

/-! ## One key -/

namespace StructuralRecord

variable {r : StructuralRecord} {t : TypeDoc}

/-- A structural record of a type without parameters has the canonical form of what is read from its
text, but with its own flags added. -/
theorem exists_canonical_of_type (h : r.toEntity = .ok (.type t)) (hparens : '(' ∉ r.identifier.toList)
    (hparameters : r.parameters = []) : ∃ y, Identifier.parse r.identifier false = .ok y ∧
      t.identifier.name = y.name ∧
      t.identifier.canonical = { y.canonical with flags := y.flags ||| r.flags } := by
  have htype : MemberKind.ofLabel r.kind = .ok .type := (toEntity_outcome h).1.kind
  have hidentifier : r.toIdentifier = .ok t.identifier := (toEntity_outcome h).1.identifier
  obtain ⟨kind, y, z, hkind, hy, -, rfl, hx, hps⟩ := toIdentifier_eq_ok hidentifier
  cases htype.symm.trans hkind
  have hnone : y.parameters = [] := Identifier.parameters_eq_nil_of_parse hy hparens
  have hnone' : t.identifier.parameters = [] := by
    rcases hps with hps | hps
    · rw [hps]
      show y.parameters.map _ = []
      rw [hnone]
      rfl
    · rw [hparameters] at hps
      exact (Except.ok.inj hps).symm
  rw [hnone'] at hx
  rw [hx]
  refine ⟨y, hy, rfl, ?_⟩
  rw [← Identifier.canonical_rename hnone (realName y.genericNames r.genericNames)]
  simp only [Identifier.canonical, Identifier.rename, hnone, List.map_nil]
  rfl

/-- A structural record of a type without parameters has the key of the member id with the same text,
whatever its generic names are, as long as its own flags make it nothing callable.  A merge then joins
what the two sides have of that type. -/
theorem key_eq_of_type (h : r.toEntity = .ok (.type t)) (hparens : '(' ∉ r.identifier.toList)
    (hparameters : r.parameters = [])
    (hflags : r.flags.overlaps .callable = true → SegmentName.IsConstructor t.identifier.name) :
    ∃ y, MemberId.parse ("T:" ++ r.identifier) = .ok ⟨.type, y⟩ ∧ t.key = y.canonicalKey ∧
      ∀ structural documentation : Catalog, structural.IsKeyed → documentation.IsKeyed →
        ∀ v u, structural.find? t.identifier = some v → documentation.find? y = some u →
          ∃ merged, (structural.merge documentation).outcome = .ok merged ∧
            merged.find? t.identifier = some (v.merge u) := by
  obtain ⟨y, hy, hname, hcanonical⟩ := exists_canonical_of_type h hparens hparameters
  have hkey : t.key = y.canonicalKey := by
    obtain ⟨outer, last, ps, rfl, hwords⟩ := Identifier.exists_eq_ofPath_of_parse hy
    rw [hname] at hflags
    have hlast := List.forall_mem_singleton.mp (List.forall_mem_append.mp hwords).2
    have hor := SegmentName.overlaps_flags_or hlast hflags
    show t.identifier.canonical.text = _
    rw [hcanonical]
    exact Identifier.text_with_flags hor.1 hor.2
  refine ⟨y, ?_, hkey, fun structural documentation hs hd v u hv hu => ?_⟩
  · refine @MemberId.parse_of_letter .type _ r.identifier ?_ y hy
    rw [String.toList_append]
    rfl
  · refine ⟨_, Catalog.merge_outcome hs hd, ?_⟩
    have hv : structural.table.get? t.key = some v := hv
    have hu : documentation.table.get? t.key = some u := by
      rw [hkey]
      exact hu
    show (KeyTable.outerJoin _ _ _).get? t.key = _
    rw [KeyTable.get?_outerJoin, hv, hu]

/-- A delegate with two generic parameters. -/
def mapRecord : StructuralRecord where
  kind := "delegate"
  identifier := "N.Map`2"
  genericNames := ["K", "V"]
  flags := .publicBit

theorem key_eq_of_type_of_generic : ∃ t y, mapRecord.toEntity = .ok (.type t) ∧
    MemberId.parse "T:N.Map`2" = .ok ⟨.type, y⟩ ∧ t.key = y.canonicalKey ∧
      ∀ structural documentation : Catalog, structural.IsKeyed → documentation.IsKeyed →
        ∀ v u, structural.find? t.identifier = some v → documentation.find? y = some u →
          ∃ merged, (structural.merge documentation).outcome = .ok merged ∧
            merged.find? t.identifier = some (v.merge u) := by
  have hkind : MemberKind.ofLabel mapRecord.kind = .ok .type := rfl
  have hparse : Identifier.parse "N.Map`2" false =
      .ok ⟨[{ name := "N" }], "Map", ["T1", "T2"], [], .none⟩ := by cbv
  have hx := @toIdentifier_of_steps mapRecord _ _ _ hkind hparse
    (applyGenericNames_of_count (.inr rfl))
  have hentity : ∃ t, mapRecord.toEntity = .ok (.type t) := by
    rw [toEntity, hkind, hx]
    exact ⟨_, rfl⟩
  obtain ⟨t, ht⟩ := hentity
  obtain ⟨y, hy, hkey⟩ :=
    key_eq_of_type ht (by decide) rfl fun hcallable => absurd hcallable (by decide)
  exact ⟨t, y, ht, hy, hkey⟩

/-- A type at the top with flags and parameters. -/
def plainRecord (flags : NameFlags) (parameters : List ParameterShape) : StructuralRecord where
  kind := "delegate"
  identifier := "D"
  flags := flags
  parameters := parameters

theorem exists_toEntity_plainRecord (flags : NameFlags) {shapes : List ParameterShape}
    {ps : List Parameter} (h : shapes.mapM (·.toParameter {}) = .ok ps) :
    ∃ t, (plainRecord flags shapes).toEntity = .ok (.type t) ∧
      t.identifier = { name := "D", parameters := ps, flags := .none ||| flags } := by
  have hkind : MemberKind.ofLabel (plainRecord flags shapes).kind = .ok .type := by
    have hdelegate : MemberKind.ofLabel "delegate" = .ok .type := rfl
    exact hdelegate
  have hparse : Identifier.parse "D" false = .ok { name := "D" } := by cbv
  have hx := @toIdentifier_of_steps (plainRecord flags shapes) _ _ _ hkind hparse rfl
  have hidentifier : (plainRecord flags shapes).toIdentifier =
      .ok { name := "D", parameters := ps, flags := .none ||| flags } := by
    cases shapes with
    | nil =>
      cases h
      exact hx
    | cons shape shapes => exact hx.trans (congrArg (· >>= _) h)
  rw [toEntity, hkind, hidentifier]
  exact ⟨_, rfl, rfl⟩

/-- The flags of a method and the parameters of a delegate both stand in the key. -/
theorem not_forall_key_of_type :
    (¬ ∀ (r : StructuralRecord) (t : TypeDoc) (y : Identifier), r.toEntity = .ok (.type t) →
      '(' ∉ r.identifier.toList → r.parameters = [] →
      MemberId.parse ("T:" ++ r.identifier) = .ok ⟨.type, y⟩ → t.key = y.canonicalKey) ∧
    ¬ ∀ (r : StructuralRecord) (t : TypeDoc) (y : Identifier), r.toEntity = .ok (.type t) →
      '(' ∉ r.identifier.toList → r.flags.overlaps .callable = false →
      MemberId.parse ("T:" ++ r.identifier) = .ok ⟨.type, y⟩ → t.key = y.canonicalKey := by
  have hparse : Identifier.parse "D" false = .ok { name := "D" } := by cbv
  have hid : MemberId.parse "T:D" = .ok ⟨.type, { name := "D" }⟩ :=
    @MemberId.parse_of_letter .type _ "D" rfl _ hparse
  constructor
  · intro hall
    obtain ⟨t, ht, hx⟩ := @exists_toEntity_plainRecord .methodBit [] _ rfl
    have hkey := hall _ t _ ht (by decide) rfl hid
    rw [TypeDoc.key, hx] at hkey
    exact absurd hkey (by decide)
  · intro hall
    have hint : ParameterShape.toParameter {} { type := "int" } = .ok { type := .simple ["int"] } := by
      have hplain := @TypeRef.parse_plain {} "int" ⟨.name, 0, [.char 'i', .char 'n', .char 't']⟩
        (by decide +kernel) rfl
      rw [ParameterShape.toParameter, hplain]
      rfl
    have hshapes : List.mapM (·.toParameter {}) [({ type := "int" } : ParameterShape)] =
        .ok [{ type := .simple ["int"] }] := by
      rw [List.mapM_cons, hint, List.mapM_nil]
      rfl
    obtain ⟨t, ht, hx⟩ := exists_toEntity_plainRecord .none hshapes
    have hkey := hall _ t _ ht (by decide) (by decide) hid
    rw [TypeDoc.key, hx] at hkey
    exact absurd hkey (by decide)

end StructuralRecord

end ApiDocs
