import ApiDocs.Entity.Basic
import ApiDocs.Identifier.MemberId
import ApiDocs.Proofs.Entity.MergeByName

/-!
# What a merge leaves as it is

The text of another entity goes into an entity, and what the entity declares stays: its kind and
identifier, the flags of its accessors, and its parameters, behind which others may follow.

* `Entity.Keeps`: what one entity declares, another one declares as well;
* `Entity.merge_outcome`: what comes of a merge;
* `Entity.Joined`: what comes of two sides of which one may have nothing.
-/

namespace ApiDocs

/-! ## Kinds -/

/-- The class of the members of a kind; a type is no member. -/
def MemberKind.class? : MemberKind → Option MemberClass
  | .type => none
  | .method => some .method
  | .field => some .field
  | .property => some .property
  | .event => some .event

/-- The kind of the members of a class. -/
def MemberClass.kind : MemberClass → MemberKind
  | .method => .method
  | .field => .field
  | .property => .property
  | .event => .event

theorem MemberClass.class?_kind (c : MemberClass) : c.kind.class? = some c := by cases c <;> rfl

/-- The kind of an entity. -/
def Entity.kind : Entity → MemberKind
  | type _ => .type
  | member m => m.cls.kind

/-! ## Declarations -/

/-- What a parameter declares: a name, which is empty if there is none, a type and a kind. -/
def Parameter.slot (p : Parameter) : String × Option TypeRef × ParameterKind :=
  (p.name.getD "", some p.type, p.kind)

/-- A documented parameter without its text. -/
def ParameterDoc.slot (p : ParameterDoc) : String × Option TypeRef × ParameterKind :=
  (p.name, p.type, p.kind)

/-- The structural parameters stand in front after a merge, each as it was but for the text. -/
theorem ParameterDoc.map_slot_prefix_merge (structural documented : List ParameterDoc) :
    structural.map slot <+: (ParameterDoc.merge structural documented).map slot :=
  @MergeByName.map_prefix_map_mergeByName ParameterDoc (·.name)
    (fun s d => { s with description := d.description }) (fun _ _ _ => rfl) _ slot
    (fun _ _ _ => rfl) structural documented

namespace Entity

/-- The flags of the accessors, which properties and events have. -/
def accessors? : Entity → Option Accessors
  | member ⟨.property, m⟩ => some m.detail
  | member ⟨.event, m⟩ => some m.detail
  | _ => none

/-- The parameters, which methods have. -/
def parameters? : Entity → Option (List ParameterDoc)
  | member ⟨.method, m⟩ => some m.detail.parameters
  | _ => none

/-- What one entity declares, another one declares as well. -/
structure Keeps (e e' : Entity) : Prop where
  kind : e'.kind = e.kind
  identifier : e'.identifier = e.identifier
  accessors : e'.accessors? = e.accessors?
  parameters : ∀ ps', e'.parameters? = some ps' →
    ∃ ps, e.parameters? = some ps ∧ ps.map ParameterDoc.slot <+: ps'.map ParameterDoc.slot

theorem Keeps.refl (e : Entity) : e.Keeps e :=
  ⟨rfl, rfl, rfl, fun ps h => ⟨ps, h, List.prefix_refl _⟩⟩

/-- What the text of another entity does to an entity. -/
theorem merge_outcome {s d e : Entity} (h : s.merge d = .ok e) : s.Keeps e ∧
    e.metadata = (d.metadata <|> s.metadata) ∧
    e.exceptions = if d.exceptions.isEmpty then s.exceptions else d.exceptions := by
  cases s with
  | type s =>
    cases d with
    | type d =>
      cases h
      exact ⟨⟨rfl, rfl, rfl, nofun⟩, rfl, rfl⟩
    | member d => cases h
  | member m =>
    obtain ⟨c, m⟩ := m
    cases c with
    | method =>
      cases d with
      | type d => cases h
      | member d =>
        obtain ⟨c', d⟩ := d
        cases c' with
        | method =>
          cases h
          refine ⟨⟨rfl, rfl, rfl, fun ps' hps => ?_⟩, rfl, rfl⟩
          cases hps
          exact ⟨_, rfl, ParameterDoc.map_slot_prefix_merge _ _⟩
        | field => cases h
        | property => cases h
        | event => cases h
    | field =>
      cases d <;> cases h <;> exact ⟨⟨rfl, rfl, rfl, nofun⟩, rfl, rfl⟩
    | property =>
      cases d <;> cases h <;> exact ⟨⟨rfl, rfl, rfl, nofun⟩, rfl, rfl⟩
    | event =>
      cases d <;> cases h <;> exact ⟨⟨rfl, rfl, rfl, nofun⟩, rfl, rfl⟩

/-- Members of one class are merged as such. -/
theorem merge_member {c : MemberClass} (s d : Member c) :
    (member ⟨c, s⟩).merge (member ⟨c, d⟩) = .ok (member ⟨c, s.merge d⟩) := by
  cases c <;> rfl

/-! ## Joins -/

/-- What comes of what structure and documentation have, if anything. -/
inductive Joined : Option Entity → Option Entity → Option Entity → Prop
  | left (s : Option Entity) : Joined s none s
  | right (d : Option Entity) : Joined none d d
  | both {s d e : Entity} (h : s.merge d = .ok e) : Joined (some s) (some d) (some e)

namespace Joined

theorem exists_keeps {s : Entity} {d e : Option Entity} (h : Joined (some s) d e) :
    ∃ e', e = some e' ∧ s.Keeps e' := by
  cases h with
  | left => exact ⟨s, rfl, .refl s⟩
  | both h => exact ⟨_, rfl, (merge_outcome h).1⟩

theorem exists_text {s e : Option Entity} {d : Entity} (h : Joined s (some d) e) :
    ∃ e', e = some e' ∧ (∀ m, d.metadata = some m → e'.metadata = some m) ∧
      (d.exceptions ≠ [] → e'.exceptions = d.exceptions) := by
  cases h with
  | right => exact ⟨d, rfl, fun _ hm => hm, fun _ => rfl⟩
  | both h =>
    obtain ⟨-, hmetadata, hexceptions⟩ := merge_outcome h
    refine ⟨_, rfl, fun m hm => ?_, fun hne => ?_⟩
    · rw [hmetadata, hm]
      rfl
    · rw [hexceptions, if_neg fun hempty => hne (List.isEmpty_iff.mp hempty)]

theorem origin {s d : Option Entity} {e : Entity} (h : Joined s d (some e)) :
    (∃ s', s = some s' ∧ s'.Keeps e) ∨ d = some e := by
  cases h with
  | left => exact .inl ⟨e, rfl, .refl e⟩
  | right => exact .inr rfl
  | both h => exact .inl ⟨_, rfl, (merge_outcome h).1⟩

theorem eq_right {d e : Option Entity} (h : Joined none d e) : e = d := by
  cases h <;> rfl

end Joined

end Entity

end ApiDocs
