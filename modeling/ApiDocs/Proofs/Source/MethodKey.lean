import ApiDocs.Proofs.Grammar.MethodText
import ApiDocs.Proofs.Identifier.Hiding
import ApiDocs.Proofs.Source.Naming

/-!
# The key of a structural method

A structural record gives real names to the generic parameters of a path and then reads the types of
its parameters one by one.  The key numbers them again.  As long as no declaration that a type refers to
is hidden by another one of the same name, and no type spells a real name, each reference gets the number
of its own place back, so that the key is that of the member id with the same arguments.

* `StructuralRecord.exists_applyGenericNames`: what becomes of real names that are numbered again;
* `StructuralRecord.exists_toIdentifier`: what a structural record makes of a path and arguments;
* `StructuralRecord.signatureKey_of_renamed`, `StructuralRecord.exists_toEntity_key`: the key of the
  method.
-/

namespace ApiDocs

open Grammar ApiDocs.Numbering PathSegment

/-! ## Real names -/

/-- Real names are given and numbered again: what was numbered gets its number back unless its real
name is hidden, and what is no real name stays. -/
theorem StructuralRecord.exists_applyGenericNames {x : Identifier} {names : List String} {n : Nat}
    (hx : x.genericNames = numbered 0 n) (hcount : names = [] ∨ names.length = n) :
    ∃ f, applyGenericNames names x = .ok (x.rename f) ∧
      (∀ k < n, ¬ IsHidden names k →
        (x.rename f).numbering.apply (f (numberedName (k + 1))) = numberedName (k + 1)) ∧
      ∀ a, a ∉ names → (x.rename f).numbering.apply a = a := by
  have hcount' : names = [] ∨ names.length = (numbered 0 n).length := by rwa [length_numbered]
  have happly : applyGenericNames names x = .ok (x.rename (realName (numbered 0 n) names)) := by
    rw [applyGenericNames_of_count (by rwa [hx]), hx]
  refine ⟨_, happly, ?_⟩
  by_cases hnames : names = []
  · have hsame := Identifier.numbering_apply_of_numbered hx
    rw [hnames, realName_nil, x.rename_id]
    exact ⟨fun _ _ _ => hsame _, fun a _ => hsame a⟩
  · have hreal : (numbered 0 n).map (realName (numbered 0 n) names) = names := by
      rw [map_realName (nodup_numbered 0 n) hcount', if_neg hnames]
    have hgeneric : (x.rename (realName (numbered 0 n) names)).genericNames = names := by
      rw [Identifier.genericNames_rename, hx, hreal]
    refine ⟨fun k hk hshown => ?_, fun a ha =>
      Identifier.numbering_apply_of_not_mem (hgeneric.symm ▸ ha)⟩
    have hplace : (x.rename (realName (numbered 0 n) names)).genericNames[k]? =
        some (realName (numbered 0 n) names (numberedName (k + 1))) := by
      rw [Identifier.genericNames_rename, hx, List.getElem?_map, getElem?_numbered hk, Nat.zero_add]
      rfl
    exact Identifier.numbering_apply_of_not_isHidden hplace (hgeneric.symm ▸ hshown)

/-! ## Parameters -/

section
variable {p : MethodPath}

theorem ParameterShape.toParameter_eq {scope : Scope} {q : ParameterShape} {a : p.Argument}
    {name : Option String} (htype : q.type = a.text) (hname : q.displayName = .ok name)
    (hres : scope.Resolves a.tree.references) :
    q.toParameter scope = .ok { type := a.tree.read scope, name, kind := q.kind } := by
  have hparse := TypeRef.parse_of_derives a.derives hres
  rw [toParameter, htype, hparse, hname]
  rfl

theorem exists_mapM_toParameter {scope : Scope} {shapes : List ParameterShape}
    {arguments : List p.Argument} (htypes : shapes.map (·.type) = arguments.map (·.text))
    (hnames : ∀ q ∈ shapes, ∃ name, q.displayName = .ok name)
    (hres : ∀ a ∈ arguments, scope.Resolves a.tree.references) :
    ∃ ps : List Parameter, shapes.mapM (·.toParameter scope) = .ok ps ∧
      ps.map (·.type) = arguments.map (·.tree.read scope) := by
  induction shapes generalizing arguments with
  | nil =>
    cases arguments with
    | nil => exact ⟨[], rfl, rfl⟩
    | cons a arguments => cases htypes
  | cons q shapes ih =>
    cases arguments with
    | nil => cases htypes
    | cons a arguments =>
      obtain ⟨htype, htypes⟩ := List.cons.inj htypes
      rw [List.forall_mem_cons] at hnames hres
      obtain ⟨name, hname⟩ := hnames.1
      obtain ⟨ps, hps, hread⟩ := ih htypes hnames.2 hres.2
      refine ⟨{ type := a.tree.read scope, name, kind := q.kind } :: ps, ?_, ?_⟩
      · rw [List.mapM_cons, ParameterShape.toParameter_eq htype hname hres.1, hps]
        rfl
      · rw [List.map_cons, List.map_cons, hread]

/-- The identifier of a path with the flags of a record, before real names are given. -/
def MethodPath.flagged (p : MethodPath) (flags : NameFlags) : Identifier :=
  { p.tree.toIdentifier true with flags := (p.tree.toIdentifier true).flags ||| flags }

theorem MethodPath.parameters_flagged (p : MethodPath) (flags : NameFlags) :
    (p.flagged flags).parameters = [] := by
  show p.tree.parameterList.map _ = []
  rw [IdentifierTree.parameterList, p.parameters_eq_none]
  rfl

end

/-- No generic name that the argument refers to is hidden by another one, and it spells none of
them. -/
def MethodPath.Argument.IsClearOf {p : MethodPath} (names : List String) (a : p.Argument) : Prop :=
  (∀ ref ∈ a.tree.references, ¬ IsHidden names (p.position ref)) ∧ ∀ name ∈ a.tree.names, name ∉ names

/-! ## The structural side -/

namespace StructuralRecord

/-- The record is that of a method with a path and with arguments for the types of its parameters. -/
structure IsMethod (r : StructuralRecord) (p : MethodPath) (arguments : List p.Argument) : Prop where
  kind : MemberKind.ofLabel r.kind = .ok .method
  path : r.identifier = p.text
  types : r.parameters.map (·.type) = arguments.map (·.text)
  displayNames : ∀ q ∈ r.parameters, ∃ name, q.displayName = .ok name

variable {r : StructuralRecord} {p : MethodPath} {arguments : List p.Argument}

/-- A structural record gives real names to the path and reads its parameters with them.  Numbered
again, the parameters are what the arguments mean behind the path. -/
theorem exists_toIdentifier (h : r.IsMethod p arguments)
    (hcount : r.genericNames = [] ∨ r.genericNames.length = p.genericCount)
    (hread : ∀ a ∈ arguments, a.IsReadable)
    (hclear : ∀ a ∈ arguments, a.IsClearOf r.genericNames) :
    ∃ f ps, r.toIdentifier = .ok { (p.flagged r.flags).rename f with parameters := ps } ∧
      ps.map (fun q => q.type.rename ((p.flagged r.flags).rename f).numbering.apply) =
        arguments.map (·.tree.read p.scope) := by
  have hgeneric : (p.flagged r.flags).genericNames = numbered 0 p.genericCount :=
    p.genericNames_toIdentifier true
  obtain ⟨f, happly, hback, hstay⟩ := exists_applyGenericNames hgeneric hcount
  have hscope : Scope.mk ((p.flagged r.flags).rename f).pathGenericNames
      ((p.flagged r.flags).rename f).typeParameters = p.scope.map f := by
    rw [Identifier.pathGenericNames_rename, p.scope_eq true]
    rfl
  obtain ⟨ps, hps, hmeant⟩ := exists_mapM_toParameter h.types h.displayNames fun a ha =>
    (MethodPath.resolves_scope (hread a ha)).map f
  refine ⟨f, ps, ?_, ?_⟩
  · rw [toIdentifier_of_steps h.kind (h.path ▸ p.parse_text true) happly, hscope, hps]
    split
    · next hempty =>
      rw [List.isEmpty_iff.mp hempty] at hps
      have hnil : ps = [] := (Except.ok.inj hps).symm
      have hnone : ((p.flagged r.flags).rename f).parameters = [] := by
        show (p.flagged r.flags).parameters.map _ = []
        rw [p.parameters_flagged]
        rfl
      rw [hnil, ← hnone]
    · rfl
  · have htypes' : ps.map (fun q => q.type.rename ((p.flagged r.flags).rename f).numbering.apply) =
        (ps.map (·.type)).map (TypeRef.rename ((p.flagged r.flags).rename f).numbering.apply) := by
      rw [List.map_map]
      rfl
    rw [htypes', hmeant, List.map_map]
    refine List.map_congr_left fun a ha => ?_
    obtain ⟨hshown, havoids⟩ := hclear a ha
    refine ArgumentTree.rename_read _ _ _ a.tree ?_ ?_
    · intro ref href
      obtain ⟨hlt, hmeaning⟩ := p.scope_meaning (a.inRange ref href)
      rw [Scope.meaning_map f (MethodPath.resolves_scope (hread a ha) ref href).2, hmeaning]
      exact hback _ hlt (hshown ref href)
    · intro name hname
      exact hstay _ (havoids name hname)

/-- What has been renamed so and numbered again has the key of the member id with the same path and
arguments. -/
theorem signatureKey_of_renamed {flags : NameFlags} {f : String → String} {ps : List Parameter}
    (hps : ps.map (fun q => q.type.rename ((p.flagged flags).rename f).numbering.apply) =
      arguments.map (·.tree.read p.scope)) :
    Identifier.signatureKey { (p.flagged flags).rename f with parameters := ps } =
      ((p.treeWith arguments).toIdentifier true).signatureKey := by
  refine Identifier.signatureKey_congr rfl ?_ ?_ ?_ ?_
  · show ((p.flagged flags).rename f).pathGenericNames.length = _
    rw [Identifier.pathGenericNames_rename, List.length_map]
    rfl
  · exact List.length_map f
  · refine hps.trans ?_
    show _ = (arguments.map _ |>.map _).map _
    rw [List.map_map, List.map_map]
    refine List.map_congr_left fun a _ => ?_
    have hstay := Identifier.numbering_apply_of_numbered
      (p.genericNames_toIdentifier true :
        ((p.treeWith arguments).toIdentifier true).genericNames = _)
    exact (ArgumentTree.rename_read _ p.scope p.scope a.tree (fun _ _ => hstay _)
      fun _ _ => hstay _).symm
  · rw [(p.treeWith arguments).isCallable_toIdentifier]
    exact NameFlags.overlaps_or_left p.tree.isCallable_toIdentifier flags

/-- A structural record of a method makes an entity, the key of which is that of the member id with
the same path and arguments. -/
theorem exists_toEntity_key (h : r.IsMethod p arguments)
    (hcount : r.genericNames = [] ∨ r.genericNames.length = p.genericCount)
    (hread : ∀ a ∈ arguments, a.IsReadable)
    (hclear : ∀ a ∈ arguments, a.IsClearOf r.genericNames) :
    ∃ s : Member .method, r.toEntity = .ok (.member ⟨.method, s⟩) ∧
      s.key = ((p.treeWith arguments).toIdentifier true).signatureKey := by
  obtain ⟨f, ps, hx, hps⟩ := exists_toIdentifier h hcount hread hclear
  exact ⟨_, toEntity_of_method h.kind hx, signatureKey_of_renamed hps⟩

end StructuralRecord

end ApiDocs
