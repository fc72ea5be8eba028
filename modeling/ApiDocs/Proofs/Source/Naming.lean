import ApiDocs.Proofs.Flags
import ApiDocs.Proofs.Grammar.Words
import ApiDocs.Proofs.Identifier.Numbering
import ApiDocs.Proofs.Logged
import ApiDocs.Source.Structural

/-!
# The identifier of a structural record

A structural record reads an identifier whose generic names are numbers and gives them real names.
Its parameters, if it has any, take the place of those that were read.

* `StructuralRecord.realName`: what a name becomes when the real ones are given;
* `StructuralRecord.toIdentifier_eq_ok`: what the identifier of a record is made of;
* `StructuralRecord.nodup_genericNames`, `StructuralRecord.built_of_toIdentifier`: its generic names
  are distinct when the real ones are, and the names in its parameters are words or generic names.
-/

namespace ApiDocs

open Grammar PathSegment Text

theorem exists_of_mem_mapM {ε α β : Type} {f : α → Except ε β} {as : List α} {bs : List β}
    (h : as.mapM f = .ok bs) : ∀ b ∈ bs, ∃ a ∈ as, f a = .ok b := by
  induction as generalizing bs with
  | nil =>
    cases h
    exact nofun
  | cons a as ih =>
    rw [List.mapM_cons, bind_eq_ok_iff] at h
    obtain ⟨b, hb, h⟩ := h
    obtain ⟨more, hmore, h⟩ := bind_eq_ok_iff.mp h
    cases h
    rw [List.forall_mem_cons]
    refine ⟨⟨a, List.mem_cons_self, hb⟩, fun c hc => ?_⟩
    obtain ⟨a', ha', hc⟩ := ih hmore c hc
    exact ⟨a', List.mem_cons_of_mem _ ha', hc⟩

theorem Identifier.exists_genericNames_of_parse {text : String} {isMethod : Bool} {x : Identifier}
    (h : Identifier.parse text isMethod = .ok x) : ∃ n, x.genericNames = numbered 0 n := by
  obtain ⟨tree, -, -, -, rfl⟩ := Identifier.derives_of_parse h
  exact ⟨_, Identifier.genericNames_ofPath isMethod _ _ _⟩

theorem IdentifierTree.isCallable_toIdentifier (tree : IdentifierTree) :
    (tree.toIdentifier true).isCallable = true :=
  NameFlags.overlaps_or_right (by decide) _

namespace StructuralRecord

/-! ## Real names -/

/-- What a name becomes when the declared ones get real names; without real names it stays. -/
def realName (declared names : List String) : String → String := Numbering.apply (declared.zip names)

theorem realName_nil (declared : List String) : realName declared [] = id := by
  funext a
  rw [realName, List.zip_nil_right]
  rfl

theorem realName_of_not_mem {declared names : List String} {a : String} (h : a ∉ declared) :
    realName declared names a = a := by
  refine Numbering.apply_of_not_mem fun hmem => h ?_
  obtain ⟨e, he, rfl⟩ := List.mem_map.mp hmem
  exact (List.of_mem_zip he).1

theorem applyGenericNames_eq_ok {names : List String} {x y : Identifier}
    (h : applyGenericNames names x = .ok y) : (names = [] ∨ names.length = x.genericNames.length) ∧
      y = x.rename (realName x.genericNames names) := by
  rw [applyGenericNames] at h
  split at h
  · next hempty =>
    cases h
    rw [List.isEmpty_iff.mp hempty, realName_nil, x.rename_id]
    exact ⟨.inl rfl, rfl⟩
  · split at h
    · cases h
    · next hlength =>
      cases h
      exact ⟨.inr (not_not.mp hlength).symm, rfl⟩

theorem applyGenericNames_of_count {names : List String} {x : Identifier}
    (hcount : names = [] ∨ names.length = x.genericNames.length) :
    applyGenericNames names x = .ok (x.rename (realName x.genericNames names)) := by
  rw [applyGenericNames]
  by_cases hnames : names = []
  · rw [hnames, realName_nil, x.rename_id]
    rfl
  · have hempty : ¬ names.isEmpty = true := by simpa using hnames
    have hsame : x.genericNames.length = names.length := (hcount.resolve_left hnames).symm
    rw [if_neg hempty, if_neg (not_not.mpr hsame)]
    rfl

theorem map_realName {declared names : List String} (hdeclared : declared.Nodup)
    (hcount : names = [] ∨ names.length = declared.length) :
    declared.map (realName declared names) = if names = [] then declared else names := by
  split
  · next hnil => rw [hnil, realName_nil, List.map_id]
  · next hne => exact Numbering.map_apply_zip hdeclared (hcount.resolve_left hne).symm

/-! ## Identifiers -/

/-- The steps by which a structural record gets its identifier, once its path has real names. -/
theorem toIdentifier_of_steps {r : StructuralRecord} {kind : MemberKind}
    {x y : Identifier} (hkind : MemberKind.ofLabel r.kind = .ok kind)
    (hparse : Identifier.parse r.identifier (kind == .method) = .ok x)
    (happly : applyGenericNames r.genericNames { x with flags := x.flags ||| r.flags } = .ok y) :
    r.toIdentifier =
      (if r.parameters.isEmpty then .ok y else do
        let parameters ← r.parameters.mapM (·.toParameter ⟨y.pathGenericNames, y.typeParameters⟩)
        .ok { y with parameters }) := by
  rw [toIdentifier, hkind]
  show ((Identifier.parse r.identifier (kind == .method)).mapError Fault.parse >>= _) = _
  rw [hparse]
  show (applyGenericNames r.genericNames { x with flags := x.flags ||| r.flags } >>= _) = _
  rw [happly]
  rfl

/-- What the identifier of a record is made of: what was read, with real names and the flags of the
record, and the parameters of the record unless it has none. -/
theorem toIdentifier_eq_ok {r : StructuralRecord} {x : Identifier} (h : r.toIdentifier = .ok x) :
    ∃ kind y z, MemberKind.ofLabel r.kind = .ok kind ∧
      Identifier.parse r.identifier (kind == .method) = .ok y ∧
      (r.genericNames = [] ∨ r.genericNames.length = y.genericNames.length) ∧
      z = y.rename (realName y.genericNames r.genericNames) ∧
      x = { z with flags := y.flags ||| r.flags, parameters := x.parameters } ∧
      (x.parameters = z.parameters ∨
        r.parameters.mapM (·.toParameter ⟨z.pathGenericNames, z.typeParameters⟩)
          = .ok x.parameters) := by
  simp only [toIdentifier, bind_eq_ok_iff, mapError_eq_ok_iff] at h
  obtain ⟨kind, hkind, y, hy, z, hz, h⟩ := h
  obtain ⟨hcount, rfl⟩ := applyGenericNames_eq_ok hz
  refine ⟨kind, y, _, hkind, hy, hcount, rfl, ?_⟩
  split at h
  · cases h
    exact ⟨rfl, .inl rfl⟩
  · obtain ⟨ps, hps, h⟩ := bind_eq_ok_iff.mp h
    cases h
    exact ⟨rfl, .inr hps⟩

theorem toEntity_of_method {r : StructuralRecord} {x : Identifier}
    (hkind : MemberKind.ofLabel r.kind = .ok .method) (hx : r.toIdentifier = .ok x) :
    r.toEntity = .ok (.member ⟨.method, { identifier := x, detail :=
      ⟨x.typeParameters.map ({ name := · }), parameterDocs x⟩ }⟩) := by
  rw [toEntity, hkind, hx]
  rfl

/-- Distinct real names are distinct generic names, and so are the numbers that stand without them. -/
theorem nodup_genericNames {r : StructuralRecord} {x : Identifier} (h : r.toIdentifier = .ok x)
    (hnodup : r.genericNames.Nodup) : x.genericNames.Nodup := by
  obtain ⟨kind, y, z, -, hy, hcount, rfl, hx, -⟩ := toIdentifier_eq_ok h
  obtain ⟨n, hn⟩ := Identifier.exists_genericNames_of_parse hy
  have hdeclared : y.genericNames.Nodup := hn ▸ nodup_numbered 0 n
  have hnames : x.genericNames = y.genericNames.map (realName y.genericNames r.genericNames) := by
    rw [hx]
    exact Identifier.genericNames_rename _ y
  rw [hnames, map_realName hdeclared hcount]
  split
  · exact hdeclared
  · exact hnodup

/-- The names in the parameters are words or generic names. -/
theorem built_of_toIdentifier {r : StructuralRecord} {x : Identifier} (h : r.toIdentifier = .ok x) :
    ∀ p ∈ x.parameters, p.type.Built fun a => IsWord a ∨ a ∈ x.genericNames := by
  obtain ⟨kind, y, z, -, hy, -, rfl, hx, hparameters⟩ := toIdentifier_eq_ok h
  have hgeneric : x.genericNames =
      (y.rename (realName y.genericNames r.genericNames)).genericNames := by
    rw [hx]
    rfl
  rw [hgeneric]
  intro p hp
  rcases hparameters with hparameters | hparameters
  · rw [hparameters] at hp
    obtain ⟨q, hq, rfl⟩ := List.mem_map.mp hp
    refine (Identifier.built_of_parse hy q hq).rename fun a ha => ?_
    rw [Identifier.genericNames_rename]
    by_cases hdeclared : a ∈ y.genericNames
    · exact .inr (List.mem_map_of_mem hdeclared)
    · rw [realName_of_not_mem hdeclared]
      exact .inl ha
  · obtain ⟨q, -, hq⟩ := exists_of_mem_mapM hparameters p hp
    rw [ParameterShape.toParameter, bind_eq_ok_iff] at hq
    obtain ⟨type, htype, hq⟩ := hq
    obtain ⟨name, -, hq⟩ := bind_eq_ok_iff.mp hq
    cases hq
    refine (TypeRef.built_of_parse (mapError_eq_ok_iff.mp htype)).mono ?_
    rintro a (ha | ⟨mark, ha⟩)
    · exact .inl ha
    · cases mark with
      | ofType => exact .inr (List.mem_append_left _ ha)
      | ofMethod => exact .inr (List.mem_append_right _ ha)

end StructuralRecord

end ApiDocs
