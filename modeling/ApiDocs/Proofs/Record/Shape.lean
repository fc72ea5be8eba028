import ApiDocs.Proofs.Logged
import ApiDocs.Record.Reader

/-!
# The shapes of records

A record is read from data of any shape.  Most of what is wrong with its shape is found where a value is
used, and condemns the record.  Two things go unnoticed until it is too late: a field is asked of what
has no fields, and a list is gone through that lies within itself.

* `Datum.HasFields`, `Datum.LoopsThroughLists`: what has fields, and what has no end;
* `StructuralRecord.IsShaped`, `DocumentationRecord.IsShaped`: no field is asked of what has none, and
  no text is wanted of what has no end;
* `StructuralRecord.failsOnly_ofDatum`, `DocumentationRecord.failsOnly_ofDatum`: then whatever is wrong
  with a record condemns it.
-/

namespace ApiDocs

/-- A fault that condemns a record of a file, and does not stop everything. -/
def Fault.IsOfShape (f : Fault) : Prop := f ≠ .noField ∧ f ≠ .endless

namespace Datum

/-- What has fields: a map, which may lie within itself. -/
def HasFields (d : Datum) : Prop := ∃ entries, d.opened = .map entries

/-- What comes back to itself through nothing but lists. -/
inductive LoopsThroughLists : Datum → Prop
  | again (mark : Nat) (isMap : Bool) : LoopsThroughLists (.again mark isMap)
  | list {x : Datum} {xs : List Datum} (hx : x ∈ xs) (h : LoopsThroughLists x) :
    LoopsThroughLists (.list xs)
  | knot {x : Datum} {xs : List Datum} (mark : Nat) (hx : x ∈ xs) (h : LoopsThroughLists x) :
    LoopsThroughLists (.knot mark (.list xs))

/-! ## Values -/

theorem hasFields_map (entries : List (Datum × Datum)) : HasFields (.map entries) := ⟨entries, rfl⟩

theorem HasFields.exists_field {d : Datum} (h : d.HasFields) (key : String) :
    ∃ v, d.field key = .ok v := by
  obtain ⟨entries, hentries⟩ := h
  exact ⟨_, by rw [field, hentries]⟩

theorem HasFields.failsOnly_field {d : Datum} (h : d.HasFields) (key : String) :
    FailsOnly (d.field key) Fault.IsOfShape := by
  obtain ⟨v, hv⟩ := h.exists_field key
  rw [hv]
  exact failsOnly_ok v

theorem failsOnly_written (d : Datum) : FailsOnly d.written Fault.IsOfShape := by
  rw [written]
  split
  · exact failsOnly_ok _
  · exact failsOnly_error ⟨nofun, nofun⟩

theorem failsOnly_elements (d : Datum) : FailsOnly d.elements Fault.IsOfShape := by
  rw [elements]
  split
  case h_7 => exact failsOnly_error ⟨nofun, nofun⟩
  all_goals exact failsOnly_ok _

theorem failsOnly_optionalElements (d : Datum) : FailsOnly d.optionalElements Fault.IsOfShape := by
  rw [optionalElements]
  split
  · exact d.failsOnly_elements
  · exact failsOnly_ok _

theorem HasFields.failsOnly_requiredField {d : Datum} (h : d.HasFields) (key : String) :
    FailsOnly (d.requiredField key) Fault.IsOfShape := by
  refine (h.failsOnly_field key).bind fun value _ => ?_
  split
  · exact value.failsOnly_written
  · exact failsOnly_error ⟨nofun, nofun⟩

theorem failsOnly_holds (key : String) (d : Datum) : FailsOnly (d.holds key) Fault.IsOfShape := by
  rw [holds]
  split
  case h_5 => exact failsOnly_error ⟨nofun, nofun⟩
  case h_7 => exact failsOnly_error ⟨nofun, nofun⟩
  all_goals exact failsOnly_ok _

end Datum

/-! ## Bits -/

theorem failsOnly_bitsOfNames {β : Type} [OrOp β] {table : List (String × β)}
    {unknown : Datum → Fault} (hunknown : ∀ d, (unknown d).IsOfShape) (bits : β) (ds : List Datum) :
    FailsOnly (bitsOfNames table unknown bits ds) Fault.IsOfShape := by
  induction ds generalizing bits with
  | nil => exact failsOnly_ok _
  | cons d ds ih =>
    rw [bitsOfNames]
    refine FailsOnly.bind (d.failsOnly_written.bind fun _ _ => failsOnly_ok _) fun name _ => ?_
    split
    · exact ih _
    · exact failsOnly_error (hunknown d)

theorem failsOnly_bitNamesOf (d : Datum) : FailsOnly (bitNamesOf d) Fault.IsOfShape := by
  unfold bitNamesOf
  split
  · exact failsOnly_ok _
  · exact d.failsOnly_elements

theorem failsOnly_bitsOf {β : Type} [OrOp β] {table : List (String × β)} {unknown : Datum → Fault}
    (hunknown : ∀ d, (unknown d).IsOfShape) (bits : β) (d : Datum) :
    FailsOnly (bitNamesOf d >>= bitsOfNames table unknown bits) Fault.IsOfShape :=
  (failsOnly_bitNamesOf d).bind fun names _ => failsOnly_bitsOfNames hunknown bits names

theorem NameFlags.failsOnly_ofDatum (d : Datum) : FailsOnly (ofDatum d) Fault.IsOfShape := by
  have hunknown : ∀ name, (Fault.unknownFlag name).IsOfShape := fun _ => ⟨nofun, nofun⟩
  unfold ofDatum
  split
  case h_4 => exact failsOnly_bitsOf hunknown _ _
  all_goals exact failsOnly_ok _

theorem ParameterKind.failsOnly_ofDatum (d : Datum) : FailsOnly (ofDatum d) Fault.IsOfShape := by
  have hunknown : ∀ name, (Fault.unknownParameterKind name).IsOfShape := fun _ => ⟨nofun, nofun⟩
  unfold ofDatum
  split
  case h_4 => exact failsOnly_bitsOf hunknown _ _
  all_goals exact failsOnly_ok _

/-! ## Texts -/

namespace Datum

theorem failsOnly_writtenProse (d : Datum) :
    FailsOnly (do .ok (nonempty? (Text.strip (← d.written)))) Fault.IsOfShape :=
  d.failsOnly_written.bind fun _ _ => failsOnly_ok _

mutual
/-- Going through lists that come to an end ends, and fails at most for want of a text. -/
theorem failsOnly_proseWithin (known : List (Nat × Datum)) (d : Datum)
    (h : ¬ d.LoopsThroughLists) : FailsOnly (d.proseWithin known) Fault.IsOfShape := by
  cases d with
  | null => exact failsOnly_ok _
  | again mark isMap => exact absurd (.again mark isMap) h
  | list xs =>
    rw [proseWithin]
    refine (failsOnly_prosesWithin known xs fun x hx hloops => h (.list hx hloops)).bind ?_
    exact fun _ _ => failsOnly_ok _
  | knot mark whole =>
    cases whole with
    | list xs =>
      rw [proseWithin]
      refine (failsOnly_prosesWithin _ xs fun x hx hloops => h (.knot mark hx hloops)).bind ?_
      exact fun _ _ => failsOnly_ok _
    | _ => exact failsOnly_writtenProse _
  | _ => exact failsOnly_writtenProse _
theorem failsOnly_prosesWithin (known : List (Nat × Datum)) (ds : List Datum)
    (h : ∀ d ∈ ds, ¬ d.LoopsThroughLists) :
    FailsOnly (prosesWithin known ds) Fault.IsOfShape := by
  cases ds with
  | nil => exact failsOnly_ok _
  | cons d ds =>
    rw [List.forall_mem_cons] at h
    refine (failsOnly_proseWithin known d h.1).bind fun _ _ => ?_
    exact (failsOnly_prosesWithin known ds h.2).bind fun _ _ => failsOnly_ok _
end

theorem failsOnly_prose {d : Datum} (h : ¬ d.LoopsThroughLists) :
    FailsOnly d.prose Fault.IsOfShape :=
  failsOnly_proseWithin [] d h

/-- What is read as the text of a name, given with it as a map or a pair. -/
def descriptionOf (d : Datum) : Datum :=
  match d.opened with
  | map entries => (find? "description" entries).getD .null
  | d =>
    match d.elements with
    | .ok [_, description] => description
    | _ => null

/-- What is read as the texts of names, given as a map or a list. -/
def descriptions (d : Datum) : List Datum :=
  match d.opened with
  | map entries => entries.map (·.2)
  | list xs => xs.map descriptionOf
  | _ => []

theorem failsOnly_asPair (d : Datum) : FailsOnly d.asPair Fault.IsOfShape := by
  rw [asPair]
  split
  · exact failsOnly_error ⟨nofun, nofun⟩
  · exact failsOnly_ok _
  · exact failsOnly_error ⟨nofun, nofun⟩

theorem elements_eq_of_asPair {d a b : Datum} (h : d.asPair = .ok (a, b)) :
    d.elements = .ok [a, b] := by
  rw [asPair] at h
  split at h
  · cases h
  · next a' b' helements =>
    cases h
    exact helements
  · cases h

theorem failsOnly_namedText {d : Datum} (h : ¬ d.descriptionOf.LoopsThroughLists) :
    FailsOnly d.namedText Fault.IsOfShape := by
  rw [descriptionOf] at h
  rw [namedText]
  split
  · next entries hentries =>
    rw [hentries] at h
    split
    · exact failsOnly_error ⟨nofun, nofun⟩
    · next name _ =>
      exact name.failsOnly_written.bind fun _ _ => (failsOnly_prose h).bind fun _ _ => failsOnly_ok _
  · next hnomap =>
    refine d.opened.failsOnly_asPair.bind fun pair hpair => ?_
    obtain ⟨name, description⟩ := pair
    have hdescription : ¬ description.LoopsThroughLists := by
      split at h
      · next entries hentries => exact absurd hentries (hnomap entries)
      · next hother =>
        rw [elements_eq_of_asPair hpair] at h
        exact h
    refine name.failsOnly_written.bind fun _ _ => ?_
    exact (failsOnly_prose hdescription).bind fun _ _ => failsOnly_ok _

theorem failsOnly_pairs {d : Datum} (h : ∀ t ∈ d.descriptions, ¬ t.LoopsThroughLists) :
    FailsOnly d.pairs Fault.IsOfShape := by
  rw [descriptions] at h
  rw [pairs]
  split
  · exact failsOnly_ok _
  · split
    · next entries hentries =>
      rw [hentries] at h
      refine failsOnly_mapM fun e he => ?_
      refine e.1.failsOnly_written.bind fun _ _ => ?_
      exact (failsOnly_prose (h _ (List.mem_map.mpr ⟨e, he, rfl⟩))).bind fun _ _ => failsOnly_ok _
    · next xs hxs =>
      rw [hxs] at h
      exact failsOnly_mapM fun x hx => failsOnly_namedText (h _ (List.mem_map.mpr ⟨x, hx, rfl⟩))
    · exact failsOnly_error ⟨nofun, nofun⟩

end Datum

/-! ## Records -/

/-- The fields in which the flags of accessors are given. -/
def accessorKeys : List String := ["getter", "setter", "adder", "remover"]

/-- What has fields, or holds no accessor, so that no field is asked of it. -/
def Datum.IsAccessorTable (d : Datum) : Prop :=
  d.HasFields ∨ ∀ key ∈ accessorKeys, d.holds key ≠ .ok true

theorem ParameterShape.failsOnly_ofDatum {d : Datum} (h : d.HasFields) :
    FailsOnly (ofDatum d) Fault.IsOfShape := by
  refine (h.failsOnly_requiredField "type").bind fun type _ => ?_
  refine (h.failsOnly_field "name").bind fun name _ => ?_
  refine (h.failsOnly_field "kind").bind fun kind _ => ?_
  exact (ParameterKind.failsOnly_ofDatum kind).bind fun _ _ => failsOnly_ok _

theorem Datum.isAccessorTable_given {d : Datum} (h : d.IsAccessorTable) :
    (if d.isGiven then d else .map []).IsAccessorTable := by
  split
  · exact h
  · exact .inl (hasFields_map [])

theorem failsOnly_accessorsUnder {d : Datum} (h : d.IsAccessorTable) {first second : String}
    (hfirst : first ∈ accessorKeys) (hsecond : second ∈ accessorKeys) :
    FailsOnly (accessorsUnder first second d) Fault.IsOfShape := by
  -- a field is asked only when a key is held
  have hread : ∀ key ∈ accessorKeys, d.holds key = .ok true → FailsOnly (do
      let a ← NameFlags.ofDatum (← d.field first)
      let b ← NameFlags.ofDatum (← d.field second)
      .ok (some (a, b))) Fault.IsOfShape := by
    intro key hkey hholds
    have hfields : d.HasFields := h.resolve_right fun hnone => hnone key hkey hholds
    refine (hfields.failsOnly_field first).bind fun a _ => ?_
    refine (NameFlags.failsOnly_ofDatum a).bind fun _ _ => ?_
    refine (hfields.failsOnly_field second).bind fun b _ => ?_
    exact (NameFlags.failsOnly_ofDatum b).bind fun _ _ => failsOnly_ok _
  refine (d.failsOnly_holds first).bind fun holdsFirst hf => ?_
  cases holdsFirst with
  | true => exact hread first hfirst hf
  | false =>
    refine (d.failsOnly_holds second).bind fun holdsSecond hs => ?_
    cases holdsSecond with
    | true => exact hread second hsecond hs
    | false => exact failsOnly_ok _

theorem failsOnly_accessorsOfDatum {d : Datum} (h : d.IsAccessorTable) :
    FailsOnly (accessorsOfDatum d) Fault.IsOfShape := by
  have hgiven := Datum.isAccessorTable_given h
  refine (failsOnly_accessorsUnder hgiven (by decide) (by decide)).bind fun _ _ => ?_
  refine (failsOnly_accessorsUnder hgiven (by decide) (by decide)).bind fun _ _ => ?_
  exact failsOnly_ok _

namespace StructuralRecord

/-- A structural record in which no field is asked of what has none. -/
structure IsShaped (d : Datum) : Prop where
  hasFields : d.HasFields
  accessors : ∀ v, d.field "accessor_flags" = .ok v → v.IsAccessorTable
  parameters : ∀ v ps, d.field "parameters" = .ok v → v.optionalElements = .ok ps →
    ∀ p ∈ ps, p.HasFields

theorem failsOnly_ofDatum {d : Datum} (h : IsShaped d) :
    FailsOnly (ofDatum d) Fault.IsOfShape := by
  have hfield := h.hasFields.failsOnly_field
  have hrequired := h.hasFields.failsOnly_requiredField
  refine (hfield "accessor_flags").bind fun flags hflags => ?_
  refine (failsOnly_accessorsOfDatum (h.accessors flags hflags)).bind fun accessors _ => ?_
  refine (hrequired "kind").bind fun kind _ => (hrequired "identifier").bind fun identifier _ => ?_
  refine (hfield "generic_names").bind fun names _ => ?_
  refine names.failsOnly_optionalElements.bind fun names _ => ?_
  refine (failsOnly_mapM fun name _ => name.failsOnly_written).bind fun _ _ => ?_
  refine (hfield "flags").bind fun flags _ => (NameFlags.failsOnly_ofDatum flags).bind fun _ _ => ?_
  refine (hfield "parameters").bind fun v hv => v.failsOnly_optionalElements.bind fun ps hps => ?_
  refine (failsOnly_mapM fun p hp => ?_).bind fun _ _ => failsOnly_ok _
  exact ParameterShape.failsOnly_ofDatum (h.parameters v ps hv hps p hp)

end StructuralRecord

namespace DocumentationRecord

/-- The fields of a documentation record that are texts. -/
def proseKeys : List String := ["summary", "remarks", "example", "see", "see_also"]

/-- The fields of a documentation record that are names with texts. -/
def pairKeys : List String := ["parameters", "type_parameters", "exceptions"]

/-- A documentation record in which no text is wanted of what has no end. -/
structure IsShaped (d : Datum) : Prop where
  hasFields : d.HasFields
  prose : ∀ key ∈ proseKeys, ∀ v, d.field key = .ok v → ¬ v.LoopsThroughLists
  pairs : ∀ key ∈ pairKeys, ∀ v, d.field key = .ok v →
    ∀ t ∈ v.descriptions, ¬ t.LoopsThroughLists

theorem failsOnly_ofDatum {d : Datum} (h : IsShaped d) :
    FailsOnly (ofDatum d) Fault.IsOfShape := by
  have hprose : ∀ key ∈ proseKeys,
      FailsOnly (do (← d.field key).prose) Fault.IsOfShape := by
    intro key hkey
    refine (h.hasFields.failsOnly_field key).bind fun v hv => ?_
    exact Datum.failsOnly_prose (h.prose key hkey v hv)
  have hpairs : ∀ key ∈ pairKeys, ∀ v, d.field key = .ok v → FailsOnly v.pairs Fault.IsOfShape :=
    fun key hkey v hv => Datum.failsOnly_pairs (h.pairs key hkey v hv)
  have hfield := h.hasFields.failsOnly_field
  refine (h.hasFields.failsOnly_requiredField "identifier").bind fun _ _ => ?_
  refine (hprose "summary" (by decide)).bind fun _ _ => ?_
  refine (hprose "remarks" (by decide)).bind fun _ _ => ?_
  refine (hprose "example" (by decide)).bind fun _ _ => ?_
  refine (hprose "see" (by decide)).bind fun _ _ => ?_
  refine (hprose "see_also" (by decide)).bind fun _ _ => ?_
  refine (hfield "parameters").bind fun ps hps => ?_
  refine (hpairs _ (by decide) ps hps).bind fun _ _ => ?_
  refine (hfield "type_parameters").bind fun ts hts => ?_
  refine (hpairs _ (by decide) ts hts).bind fun _ _ => ?_
  refine (hfield "exceptions").bind fun es hes => ?_
  exact (hpairs _ (by decide) es hes).bind fun _ _ => failsOnly_ok _

end DocumentationRecord

end ApiDocs
