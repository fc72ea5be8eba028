import ApiDocs.Proofs.Source.Hidden
import ApiDocs.Proofs.Source.Naming
import ApiDocs.Record.Reader

/-!
# Sources fail alone

A fault in a record condemns the source of the record.  The other sources are loaded all the same,
and in the end every source that failed is reported under its name.

One fault condemns everything: the name of a parameter is taken over as the producer gave it, and a
name that is given and no text stops loading altogether.

* `Source.failsOnly_load`: a source fails with an error of its own;
* `Source.HasBadRecord`: some record of a source makes no entity, so that the source fails;
* `loadSources_reports`: what loading comes to, and what it reports of each source.
-/

namespace ApiDocs

/-! ## Faults of records -/

/-- Every name of a parameter that is given is a text. -/
def StructuralRecord.HasTextNames (r : StructuralRecord) : Prop :=
  ∀ p ∈ r.parameters, p.name.isGiven = true → ∃ s, p.name = .text s

theorem StructuralRecord.hasTextNames_of_eq_nil {r : StructuralRecord} (h : r.parameters = []) :
    r.HasTextNames := by
  intro p hp
  rw [h] at hp
  cases hp

/-- A fault that lies in what a record says. -/
def Fault.IsOfRecord (f : Fault) : Prop := f.isOfRecord = true

theorem ParameterShape.failsOnly_toParameter (scope : Scope) {p : ParameterShape}
    (hname : p.name.isGiven = true → ∃ s, p.name = .text s) :
    FailsOnly (p.toParameter scope) Fault.IsOfRecord := by
  have hdisplay : FailsOnly p.displayName Fault.IsOfRecord := by
    rw [displayName]
    split
    · exact failsOnly_ok _
    · next hne =>
      split
      · next hgiven =>
        obtain ⟨s, hs⟩ := hname hgiven
        exact absurd hs (hne s)
      · exact failsOnly_ok _
  have htype : FailsOnly ((TypeRef.parse p.type scope).mapError Fault.parse) Fault.IsOfRecord :=
    failsOnly_mapError fun _ => rfl
  exact htype.bind fun _ _ => hdisplay.bind fun _ _ => failsOnly_ok _

theorem MemberKind.failsOnly_ofLabel (label : String) :
    FailsOnly (MemberKind.ofLabel label) Fault.IsOfRecord := by
  rw [MemberKind.ofLabel]
  split
  · exact failsOnly_ok _
  · split
    · exact failsOnly_ok _
    · split
      · exact failsOnly_ok _
      · exact failsOnly_error rfl

theorem StructuralRecord.failsOnly_applyGenericNames (names : List String) (x : Identifier) :
    FailsOnly (applyGenericNames names x) Fault.IsOfRecord := by
  rw [applyGenericNames]
  split
  · exact failsOnly_ok _
  · split
    · exact failsOnly_error rfl
    · exact failsOnly_ok _

theorem StructuralRecord.failsOnly_toIdentifier {r : StructuralRecord} (h : r.HasTextNames) :
    FailsOnly r.toIdentifier Fault.IsOfRecord := by
  refine (MemberKind.failsOnly_ofLabel r.kind).bind fun kind _ => ?_
  have hparse : FailsOnly ((Identifier.parse r.identifier (kind == .method)).mapError Fault.parse)
      Fault.IsOfRecord :=
    failsOnly_mapError fun _ => rfl
  refine hparse.bind fun x _ => (failsOnly_applyGenericNames _ _).bind fun y _ => ?_
  split
  · exact failsOnly_ok _
  · refine FailsOnly.bind (failsOnly_mapM fun p hp => ?_) fun _ _ => failsOnly_ok _
    exact ParameterShape.failsOnly_toParameter _ (h p hp)

theorem StructuralRecord.failsOnly_toEntity {r : StructuralRecord} (h : r.HasTextNames) :
    FailsOnly r.toEntity Fault.IsOfRecord :=
  (MemberKind.failsOnly_ofLabel r.kind).bind fun _ _ =>
    (failsOnly_toIdentifier h).bind fun _ _ => failsOnly_ok _

namespace DocumentationRecord

theorem failsOnly_mapError_parse {α : Type} (x : Except ParseFault α) :
    FailsOnly (x.mapError .parse) Fault.IsOfRecord := failsOnly_mapError fun _ => rfl

theorem failsOnly_exceptionDocs (r : DocumentationRecord) (xs : List (String × Option String)) :
    FailsOnly (r.exceptionDocs xs).outcome Fault.IsOfRecord := by
  induction xs with
  | nil => exact failsOnly_ok _
  | cons x xs ih =>
    obtain ⟨cref, description⟩ := x
    rw [exceptionDocs]
    split
    · simp only [Logged.outcome_bind, Logged.outcome_ofExcept]
      refine (failsOnly_mapError_parse _).bind fun _ _ => ?_
      exact ih.bind fun _ _ => failsOnly_ok _
    · rw [Logged.outcome_bind]
      exact (failsOnly_ok _).bind fun _ _ => ih

theorem failsOnly_toEntity (r : DocumentationRecord) :
    FailsOnly r.toEntity.outcome Fault.IsOfRecord := by
  simp only [toEntity, Logged.outcome_bind, Logged.outcome_ofExcept]
  refine (failsOnly_mapError_parse _).bind fun _ _ => ?_
  exact (failsOnly_exceptionDocs r _).bind fun _ _ => failsOnly_ok _

end DocumentationRecord

/-! ## Errors of a source -/

/-- An error is about the source with a name. -/
def LoadError.IsAbout (name : String) : LoadError → Prop
  | .source e => e.source = name
  | .other _ => False

theorem LoadError.isAbout_ofRecord (name identifier : String) {f : Fault} (h : f.IsOfRecord) :
    (LoadError.ofRecord name identifier f).IsAbout name := by
  have hrecord : f.isOfRecord = true := h
  rw [ofRecord, if_pos hrecord]
  rfl

theorem LoadError.isAbout_ofSource (name : String) {f : Fault} (h : f.IsOfRecord) :
    (LoadError.ofSource name f).IsAbout name := by
  have hrecord : f.isOfRecord = true := h
  rw [ofSource, if_pos hrecord]
  rfl

namespace Catalog

theorem failsOnly_addTypes (c : Catalog) (types : List TypeDoc) :
    FailsOnly (c.addTypes types) fun f => ∃ key, f = .duplicate key := by
  induction types generalizing c with
  | nil => exact failsOnly_ok c
  | cons t types ih =>
    rw [addTypes, addType]
    by_cases h : c.table.contains t.key = true
    · rw [if_pos h]
      exact failsOnly_error ⟨t.key, rfl⟩
    · rw [if_neg h]
      exact ih _

theorem failsOnly_attach (c : Catalog) (m : AnyMember) :
    FailsOnly (c.attach m).outcome Fault.IsOfRecord := by
  rw [attach]
  cases m.identifier.parent? with
  | none => exact failsOnly_error rfl
  | some parent =>
    simp only [Logged.outcome_bind, ownerOf_outcome, Logged.outcome_ofExcept]
    refine (failsOnly_ok _).bind fun owner _ => FailsOnly.bind ?_ fun _ _ => failsOnly_ok _
    rw [TypeDoc.addMember]
    split
    · exact failsOnly_error rfl
    · exact failsOnly_ok _

theorem failsOnly_attachAll (c : Catalog) (members : List AnyMember) :
    FailsOnly (c.attachAll members).outcome Fault.IsOfRecord := by
  induction members generalizing c with
  | nil => exact failsOnly_ok c
  | cons m members ih =>
    rw [attachAll, Logged.outcome_bind]
    exact (failsOnly_attach c m).bind fun c' _ => ih c'

theorem failsOnly_connect (types : List TypeDoc) (members : List AnyMember) :
    FailsOnly (connect types members).outcome Fault.IsOfRecord := by
  rw [connect, Logged.outcome_bind]
  refine FailsOnly.bind ?_ fun c _ => failsOnly_attachAll c members
  refine (failsOnly_addTypes empty types).mono ?_
  rintro _ ⟨key, rfl⟩
  rfl

end Catalog

/-! ## The halves of a source -/

section
variable {options : LoadOptions}

/-- Every prefix is a text. -/
def LoadOptions.HasTextPrefixes (options : LoadOptions) : Prop :=
  ∀ p ∈ options.prefixes, ∃ s, p = .text s

theorem Prefixes.exists_matches {prefixes : Prefixes} (h : ∀ p ∈ prefixes, ∃ s, p = .text s)
    (part : List Char) : ∃ matched, prefixes.matches part = .ok matched := by
  induction prefixes with
  | nil => exact ⟨false, rfl⟩
  | cons p rest ih =>
    obtain ⟨⟨s, rfl⟩, hrest⟩ := List.forall_mem_cons.mp h
    rw [Prefixes.matches]
    split
    · exact ⟨true, rfl⟩
    · exact ih hrest

theorem exists_anyPartMatches {prefixes : Prefixes} (h : ∀ p ∈ prefixes, ∃ s, p = .text s)
    (parts : List (List Char)) : ∃ matched, anyPartMatches prefixes parts = .ok matched := by
  induction parts with
  | nil => exact ⟨false, rfl⟩
  | cons part parts ih =>
    obtain ⟨matched, hmatched⟩ := Prefixes.exists_matches h part
    rw [anyPartMatches, hmatched]
    cases matched with
    | true => exact ⟨true, rfl⟩
    | false => exact ih

/-- With prefixes that are texts it can be told of every record whether it is passed over. -/
theorem LoadOptions.HasTextPrefixes.exists_skips (h : options.HasTextPrefixes)
    (r : StructuralRecord) : ∃ skipped, options.skips r = .ok skipped := by
  rw [skips]
  split
  · exact exists_anyPartMatches h _
  · exact ⟨false, rfl⟩

theorem LoadOptions.hasTextPrefixes_of_default (hprefixes : options.prefixes = .default) :
    options.HasTextPrefixes := by
  intro p hp
  rw [hprefixes] at hp
  exact ⟨"<", List.mem_singleton.mp hp⟩

theorem Entities.failsOnly_ofStructural (hprefixes : options.HasTextPrefixes) (name : String)
    {records : List StructuralRecord} (hnames : ∀ r ∈ options.kept records, r.HasTextNames) :
    FailsOnly (ofStructural name options records) (LoadError.IsAbout name) := by
  induction records with
  | nil => exact failsOnly_ok _
  | cons r rest ih =>
    obtain ⟨skipped, hskips⟩ := hprefixes.exists_skips r
    rw [LoadOptions.kept, List.filter_cons, hskips] at hnames
    rw [ofStructural, hskips]
    refine (failsOnly_ok skipped).bind fun _ hskipped => ?_
    cases hskipped
    cases skipped with
    | true => exact (ih hnames).bind fun _ _ => failsOnly_ok _
    | false =>
      obtain ⟨hr, hrest⟩ := List.forall_mem_cons.mp hnames
      have hentity : FailsOnly (r.toEntity.mapError (.ofRecord name r.identifier))
          (LoadError.IsAbout name) :=
        (StructuralRecord.failsOnly_toEntity hr).mapError fun _ => LoadError.isAbout_ofRecord name _
      exact hentity.bind fun _ _ => (ih hrest).bind fun _ _ => failsOnly_ok _

theorem failsOnly_documentedEntities (name : String) (records : List DocumentationRecord) :
    FailsOnly (documentedEntities name records).outcome (LoadError.IsAbout name) := by
  induction records with
  | nil => exact failsOnly_ok _
  | cons r rest ih =>
    simp only [documentedEntities, Logged.outcome_bind, Logged.outcome_mapError]
    refine FailsOnly.bind ?_ fun _ _ => ih.bind fun _ _ => failsOnly_ok _
    exact r.failsOnly_toEntity.mapError fun _ => LoadError.isAbout_ofRecord name _

namespace Catalog

theorem failsOnly_mapError_connect (name : String) (types : List TypeDoc)
    (members : List AnyMember) :
    FailsOnly ((connect types members).mapError (LoadError.ofSource name)).outcome
      (LoadError.IsAbout name) :=
  (failsOnly_connect types members).mapError fun _ => LoadError.isAbout_ofSource name

theorem failsOnly_ofStructural (hprefixes : options.HasTextPrefixes) (name : String)
    {records : List StructuralRecord} (hnames : ∀ r ∈ options.kept records, r.HasTextNames) :
    FailsOnly (ofStructural name options records).outcome (LoadError.IsAbout name) := by
  rw [ofStructural, Logged.outcome_bind]
  refine (Entities.failsOnly_ofStructural hprefixes name hnames).bind fun es _ => ?_
  have hconnect : FailsOnly ((connect es.types es.members).mapError (LoadError.ofSource name) >>=
      fun c => pure (c.filterVisibility options.visibilities)).outcome (LoadError.IsAbout name) := by
    rw [Logged.outcome_bind]
    exact (failsOnly_mapError_connect name es.types es.members).bind fun _ _ => failsOnly_ok _
  dsimp only
  split
  · rw [Logged.outcome_bind]
    exact (failsOnly_ok ()).bind fun _ _ => hconnect
  · exact hconnect

theorem failsOnly_ofDocumentation (name : String) (records : List DocumentationRecord) :
    FailsOnly (ofDocumentation name records).outcome (LoadError.IsAbout name) := by
  simp only [ofDocumentation, Logged.outcome_bind]
  refine (failsOnly_documentedEntities name records).bind fun es _ => ?_
  exact (failsOnly_ok ()).bind fun _ _ => failsOnly_mapError_connect name es.1 es.2

end Catalog

/-! ## Sources -/

namespace Source

/-- Every name of a parameter that the source gives in a record that is not passed over is a text. -/
def HasTextNames (options : LoadOptions) (s : Source) : Prop :=
  ∀ r ∈ options.kept s.structural, r.HasTextNames

/-- Some record makes no entity, and it is not passed over. -/
def HasBadRecord (options : LoadOptions) (s : Source) : Prop :=
  (∃ r ∈ options.kept s.structural, ∀ e, r.toEntity ≠ .ok e) ∨
    ∃ r ∈ s.documentation, ∀ e, r.toEntity.outcome ≠ .ok e

/-- A source fails with an error of its own. -/
theorem failsOnly_load {s : Source} (hprefixes : options.prefixes = .default)
    (hnames : s.HasTextNames options) :
    FailsOnly (s.load options).outcome (LoadError.IsAbout s.name) := by
  simp only [load, Logged.outcome_bind]
  have htexts := LoadOptions.hasTextPrefixes_of_default hprefixes
  refine (Catalog.failsOnly_ofStructural htexts s.name hnames).bind fun structural hs => ?_
  refine (Catalog.failsOnly_ofDocumentation s.name _).bind fun documentation hd => ?_
  obtain ⟨c, _, rfl, -, hc⟩ := Catalog.ofStructural_outcome hs
  obtain ⟨_, -, hd⟩ := Catalog.ofDocumentation_outcome hd
  -- Everything is in its place in the halves, so that merging them does not fail.
  have hkeyed := (hc.isPlaced.filterVisibility options.visibilities).isKeyed
  rw [Work.unexplained, Logged.outcome_mapError, Catalog.merge_outcome hkeyed hd.isPlaced.isKeyed]
  exact failsOnly_ok _

/-- A source with a record that makes no entity fails. -/
theorem HasBadRecord.load_ne {s : Source} (h : s.HasBadRecord options) (c : Catalog) :
    (s.load options).outcome ≠ .ok c := by
  intro hload
  obtain ⟨-, -, declared, described, hdeclared, -, -, hdescribed, -⟩ := load_halves hload
  rcases h with ⟨r, hr, hbad⟩ | ⟨r, hr, hbad⟩
  · obtain ⟨e, -, he⟩ := exists_eq_of_map_eq hdeclared hr
    exact hbad e he.symm
  · obtain ⟨e, -, he⟩ := exists_eq_of_map_eq hdescribed hr
    exact hbad e he.symm

end Source

theorem failsOnly_uniteSource (name : String) (loaded merged : Catalog) :
    FailsOnly (uniteSource name loaded merged) (LoadError.IsAbout name) := by
  rw [uniteSource]
  split
  · exact failsOnly_ok _
  · exact failsOnly_error rfl
  · next f hne hunion =>
    obtain ⟨key, rfl⟩ := Catalog.failsOnly_addTypes _ _ f hunion
    exact absurd rfl (hne key)

theorem failsOnly_loadOne {s : Source} (hprefixes : options.prefixes = .default)
    (hnames : s.HasTextNames options) (loaded : Catalog) :
    FailsOnly (loadOne options loaded s).outcome (LoadError.IsAbout s.name) := by
  simp only [loadOne, Logged.outcome_bind]
  refine (Source.failsOnly_load hprefixes hnames).bind fun merged _ => ?_
  exact (failsOnly_uniteSource s.name loaded merged).bind fun _ _ => failsOnly_ok _

/-! ## All sources -/

/-- What loading comes to for a source is an error of it or none.  With a record that makes no entity it
is an error. -/
structure Source.IsReportedBy (options : LoadOptions) (s : Source) (report : Option SourceError) :
    Prop where
  own : ∀ e, report = some e → e.source = s.name
  bad : s.HasBadRecord options → report.isSome

theorem loadFrom_reports (hprefixes : options.prefixes = .default) {sources : List Source}
    (hnames : ∀ s ∈ sources, s.HasTextNames options) (result : LoadResult) : ∃ catalog reports,
      (loadFrom options false result sources).outcome =
        .ok ⟨catalog, result.failures ++ reports.filterMap id⟩ ∧
      List.Forall₂ (Source.IsReportedBy options) sources reports := by
  induction sources generalizing result with
  | nil => exact ⟨result.catalog, [], by rw [List.filterMap_nil, List.append_nil]; rfl, .nil⟩
  | cons s rest ih =>
    obtain ⟨hs, hrest⟩ := List.forall_mem_cons.mp hnames
    rw [loadFrom]
    cases hstep : (loadOne options result.catalog s).outcome with
    | ok catalog =>
      obtain ⟨c, reports, hresult, hreports⟩ := ih hrest { result with catalog }
      refine ⟨c, none :: reports, ?_, .cons ⟨nofun, fun hbad => ?_⟩ hreports⟩
      · simp only [Logged.outcome_bind, hresult]
        rfl
      · obtain ⟨merged, hload, -⟩ := Logged.bind_eq_ok_iff.mp hstep
        exact absurd hload (hbad.load_ne merged)
    | error error =>
      have habout := failsOnly_loadOne hprefixes hs result.catalog error hstep
      cases error with
      | other f => exact habout.elim
      | source e =>
        obtain ⟨c, reports, hresult, hreports⟩ :=
          ih hrest { result with failures := result.failures ++ [e] }
        refine ⟨c, some e :: reports, ?_, .cons ⟨?_, fun _ => rfl⟩ hreports⟩
        · rw [List.append_assoc] at hresult
          simp only [Logged.outcome_bind, Bool.false_eq_true, if_false, hresult]
          rfl
        · rintro _ ⟨⟩
          exact habout

/-- A bad record never takes the other sources down.  Unless a name of a parameter is given that is no
text, loading comes to a result, whatever is wrong with the sources.  Its failures are the errors that
the sources are reported by, in the order of the sources. -/
theorem loadSources_reports (hprefixes : options.prefixes = .default) {sources : List Source}
    (hnames : ∀ s ∈ sources, s.HasTextNames options) : ∃ result reports,
      (loadSources options false sources).outcome = .ok result ∧
      result.failures = reports.filterMap id ∧
      List.Forall₂ (Source.IsReportedBy options) sources reports := by
  obtain ⟨catalog, reports, hresult, hreports⟩ :=
    loadFrom_reports hprefixes hnames ⟨.empty, []⟩
  exact ⟨_, reports, hresult, rfl, hreports⟩

end

/-- A source with a method that nothing contains, one with a record of no kind that there is, and one
with a type. -/
def troubledSources : List Source := [
  { name := "loose", structural := [{ kind := "method", identifier := "f" }] },
  { name := "odd", structural := [{ kind := "type", identifier := "A" },
    { kind := "thing", identifier := "B" }] },
  { name := "sound", structural := [{ kind := "type", identifier := "C" }] }]

theorem loadSources_reports_troubled : ({} : LoadOptions).prefixes = .default ∧
    (∀ s ∈ troubledSources, s.HasTextNames {}) ∧ ∃ result reports,
      (loadSources {} false troubledSources).outcome = .ok result ∧
      result.failures = reports.filterMap id ∧
      List.Forall₂ (Source.IsReportedBy {}) troubledSources reports := by
  have hnames : ∀ s ∈ troubledSources, s.HasTextNames {} := by
    have hplain : ∀ s ∈ troubledSources, ∀ r ∈ s.structural, r.parameters = [] := by decide
    intro s hs r hr p hp
    rw [hplain s hs r (List.mem_of_mem_filter hr)] at hp
    cases hp
  exact ⟨rfl, hnames, loadSources_reports rfl hnames⟩

/-! ## A name that is no text -/

/-- A method with a parameter that has a number for a name. -/
def numberedParameter : StructuralRecord where
  kind := "method"
  identifier := "A.f"
  parameters := [{ type := "int", name := .int 5 }]

/-- The data of that method. -/
def numberedParameterDatum : Datum := .map [
  (.text "kind", .text "method"), (.text "identifier", .text "A.f"),
  (.text "parameters", .list [.map [(.text "type", .text "int"), (.text "name", .int 5)]])]

theorem numberedParameter_toEntity : numberedParameter.toEntity = .error .notText := by
  have hkind : MemberKind.ofLabel "method" = .ok .method := rfl
  have hparse : Identifier.parse "A.f" true =
      .ok ⟨[{ name := "A" }], "f", [], [], .methodBit⟩ := by cbv
  have htype : TypeRef.parse "int" ⟨[], []⟩ = .ok (.simple ["int"]) :=
    TypeRef.parse_plain _ (t := ⟨.name, 0, [.char 'i', .char 'n', .char 't']⟩) (by decide +kernel) rfl
  have hparameter : ParameterShape.toParameter ⟨[], []⟩ { type := "int", name := .int 5 } =
      .error .notText := by
    rw [ParameterShape.toParameter, htype]
    rfl
  have hx : numberedParameter.toIdentifier = .error .notText := by
    rw [@StructuralRecord.toIdentifier_of_steps numberedParameter _ _ _ hkind hparse rfl]
    show (List.mapM (ParameterShape.toParameter ⟨[], []⟩) [{ type := "int", name := .int 5 }] >>= _) = _
    rw [List.mapM_cons, hparameter]
    rfl
  rw [StructuralRecord.toEntity]
  show (numberedParameter.toIdentifier >>= _) = _
  rw [hx]
  rfl

/-- Such a name stops loading, and then the other sources are not loaded. -/
theorem not_forall_loadSources_ok : ¬ ∀ sources : List Source,
    (∀ s ∈ sources, (∀ r ∈ s.structural, ∃ d, StructuralRecord.ofDatum d = .ok r) ∧
      ∀ r ∈ s.documentation, ∃ d, DocumentationRecord.ofDatum d = .ok r) →
    ∃ result, (loadSources {} false sources).outcome = .ok result := by
  intro hall
  have hread : StructuralRecord.ofDatum numberedParameterDatum = .ok numberedParameter := by cbv
  have haccepted : ∀ s ∈ [({ name := "bad", structural := [numberedParameter] } : Source)],
      (∀ r ∈ s.structural, ∃ d, StructuralRecord.ofDatum d = .ok r) ∧
        ∀ r ∈ s.documentation, ∃ d, DocumentationRecord.ofDatum d = .ok r := by
    intro s hs
    rw [List.mem_singleton.mp hs]
    constructor
    · intro r hr
      rw [List.mem_singleton.mp hr]
      exact ⟨numberedParameterDatum, hread⟩
    · intro r hr
      cases hr
  obtain ⟨result, h⟩ := hall _ haccepted
  have hskips : LoadOptions.skips {} numberedParameter = .ok false := by cbv
  have hentities : Entities.ofStructural "bad" {} [numberedParameter] = .error (.other .notText) := by
    rw [Entities.ofStructural, hskips, numberedParameter_toEntity]
    rfl
  rw [loadSources, loadFrom, loadOne, Source.load, Catalog.ofStructural, hentities] at h
  cases h

end ApiDocs
