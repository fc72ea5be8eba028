import ApiDocs.CommandLine.Run
import ApiDocs.Proofs.Source.RecordFile
import ApiDocs.Proofs.Yaml.Reading

/-!
# Reading files of records

Without being told to stop at the first failure, the program goes through all files: of each it gets a
source or an error that it reports.  Only what is neither ends the run.

* `CommandLine.readSources_outcome`: what comes of reading files;
* `CommandLine.readSources_of_isShapedFile`: files with shaped records never end the run;
* `CommandLine.not_forall_ofFile_isAbout`: a file with a number in the place of a record does.
-/

namespace ApiDocs

namespace Source

/-- The source in a file, if there is one. -/
def inFile? (view : View) (path : Path) : Option Source := (ofFile view path).toOption

/-- The error by which a file is reported, if it is. -/
def errorOfFile? (view : View) (path : Path) : Option SourceError :=
  match ofFile view path with
  | .error (.source e) => some e
  | _ => none

end Source

namespace CommandLine

/-- What comes of the files that can be read and of those that are reported. -/
def readings (view : View) (paths : List Path) : List Source × List SourceError :=
  (paths.filterMap (Source.inFile? view), paths.filterMap (Source.errorOfFile? view))

/-- Reading goes on past every file that is reported. -/
theorem readSources_outcome {view : View} {paths : List Path}
    (h : ∀ p ∈ paths, ∀ f, Source.ofFile view p ≠ .error (.other f)) (least : Nat) :
    (readSources view least false paths).outcome = .ok (readings view paths) := by
  induction paths with
  | nil => rfl
  | cons path paths ih =>
    obtain ⟨hpath, hpaths⟩ := List.forall_mem_cons.mp h
    rw [readSources, readings, List.filterMap_cons, List.filterMap_cons, Source.inFile?,
      Source.errorOfFile?]
    cases hfile : Source.ofFile view path with
    | ok s =>
      rw [Logged.outcome_bind, ih hpaths]
      rfl
    | error e =>
      cases e with
      | other f => exact absurd hfile (hpath f)
      | source e =>
        simp only [Logged.outcome_bind, Logged.outcome_emitAll, Bool.false_eq_true, if_false,
          ih hpaths]
        rfl

theorem ofFile_ne_other_of_readSources {view : View} {least : Nat} {paths : List Path}
    {result : List Source × List SourceError}
    (h : (readSources view least false paths).outcome = .ok result) :
    ∀ p ∈ paths, ∀ f, Source.ofFile view p ≠ .error (.other f) := by
  induction paths generalizing result with
  | nil => exact nofun
  | cons path paths ih =>
    rw [readSources] at h
    split at h
    · next s hfile =>
      obtain ⟨rest, hrest, -⟩ := Logged.bind_eq_ok_iff.mp h
      refine List.forall_mem_cons.mpr ⟨fun f hf => ?_, ih hrest⟩
      rw [hf] at hfile
      cases hfile
    · cases h
    · next e hfile =>
      obtain ⟨-, -, h⟩ := Logged.bind_eq_ok_iff.mp h
      obtain ⟨rest, hrest, -⟩ := Logged.bind_eq_ok_iff.mp h
      refine List.forall_mem_cons.mpr ⟨fun f hf => ?_, ih hrest⟩
      rw [hf] at hfile
      cases hfile

/-! ## A number in the place of records -/

/-- A number that is to be gone through as a list of records. -/
theorem ofYaml_numberForRecords :
    Datum.ofYaml "structural: 5\n" = .ok (.map [(.text "structural", .int 5)]) := by
  have htokens : Yaml.tokens "structural: 5\n" = [.mapStart, .key, .scalar "structural" true, .value,
      .scalar "5" true, .blockEnd, .streamEnd] :=
    Yaml.tokens_of_runWithin (n := 5) (by decide) (by decide) (by cbv)
  have hkind : Yaml.Properties.scalarKind {} "structural" true = .text := rfl
  have hitem : Yaml.Properties.scalarKind {} "5" true = .int := rfl
  rw [Yaml.ofYaml_of_tokens htokens (Yaml.ofTokens_scalarEntry _ _), hkind, hitem]
  cbv

/-- A list with a number in the place of a record. -/
theorem ofYaml_numberForRecord :
    Datum.ofYaml "structural: [5]\n" = .ok (.map [(.text "structural", .list [.int 5])]) := by
  have htokens : Yaml.tokens "structural: [5]\n" = [.mapStart, .key, .scalar "structural" true,
      .value, .flowListStart, .scalar "5" true, .flowListEnd, .blockEnd, .streamEnd] :=
    Yaml.tokens_of_runWithin (n := 9) (by decide) (by decide) (by cbv)
  have hkind : Yaml.Properties.scalarKind {} "structural" true = .text := rfl
  have hitem : Yaml.Properties.scalarKind {} "5" true = .int := rfl
  rw [Yaml.ofYaml_of_tokens htokens (Yaml.ofTokens_singletonEntry _ _), hkind, hitem]
  cbv

theorem ofYaml_empty : Datum.ofYaml "" = .ok .null := by
  have htokens : Yaml.tokens "" = [.streamEnd] :=
    Yaml.tokens_of_runWithin (n := 1) (by decide) (by decide) (by cbv)
  rw [Yaml.ofYaml_of_tokens htokens rfl]
  cbv

/-- A record of a property with the flags of one accessor. -/
def propertyDatum : Datum := .map [(.text "kind", .text "property"), (.text "identifier", .text "A.p"),
  (.text "accessor_flags", .map [(.text "getter", .text "public")])]

/-- A list of that record. -/
def propertyText : String :=
  "structural:\n- kind: property\n  identifier: A.p\n  accessor_flags:\n    getter: public\n"

theorem ofYaml_propertyText :
    Datum.ofYaml propertyText = .ok (.map [(.text "structural", .list [propertyDatum])]) := by
  have htokens : Yaml.tokens propertyText = [.mapStart, .key, .scalar "structural" true, .value,
      .entry, .mapStart, .key, .scalar "kind" true, .value, .scalar "property" true, .key,
      .scalar "identifier" true, .value, .scalar "A.p" true, .key, .scalar "accessor_flags" true,
      .value, .mapStart, .key, .scalar "getter" true, .value, .scalar "public" true, .blockEnd,
      .blockEnd, .blockEnd, .streamEnd] :=
    Yaml.tokens_of_runWithin (n := 40) (by decide) (by decide) (by cbv)
  have hkind : ∀ s ∈ ["structural", "kind", "property", "identifier", "A.p", "accessor_flags",
      "getter", "public"], Yaml.Properties.scalarKind {} s true = .text := by decide
  simp only [List.forall_mem_cons] at hkind
  obtain ⟨hstructural, hkind, hproperty, hidentifier, hpath, hflags, hgetter, hpublic, -⟩ := hkind
  rw [Yaml.ofYaml_of_tokens htokens (Yaml.ofTokens_nestedEntry _ _ _ _ _ _ _ _), hstructural, hkind,
    hproperty, hidentifier, hpath, hflags, hgetter, hpublic]
  cbv

/-! ## Files with shaped records -/

/-- Files with shaped records: each gives a source or an error about itself, and all that give a source
are read. -/
theorem readSources_of_isShapedFile {view : View} {paths : List Path}
    (h : ∀ p ∈ paths, Source.IsShapedFile view p) (least : Nat) :
    (∀ p ∈ paths, (∃ s, Source.ofFile view p = .ok s) ∨
      ∃ e, Source.ofFile view p = .error (.source e) ∧ e.source = p.text) ∧
    (readSources view least false paths).outcome =
      .ok (paths.filterMap (Source.inFile? view), paths.filterMap (Source.errorOfFile? view)) := by
  have habout : ∀ p ∈ paths, FailsOnly (Source.ofFile view p) (LoadError.IsAbout p.text) :=
    fun p hp => Source.failsOnly_ofFile (h p hp)
  constructor
  · intro p hp
    cases hfile : Source.ofFile view p with
    | ok s => exact .inl ⟨s, rfl⟩
    | error e =>
      cases e with
      | source e => exact .inr ⟨e, rfl, habout p hp _ hfile⟩
      | other f => exact (habout p hp _ hfile).elim
  · refine readSources_outcome (fun p hp f hf => ?_) least
    exact habout p hp _ hf

/-- A directory with three files: one with a number in the place of records, an empty one, and one with a
record. -/
def threeFiles : View := fun path =>
  .ok (if path.text = "a.yml" then some (.file "structural: 5\n")
    else if path.text = "b.yml" then some (.file "")
    else if path.text = "c.yml" then some (.file propertyText)
    else if path.text = "." then some .directory
    else none)

theorem read_threeFiles {path : Path} {content : String} (h : threeFiles.read path = .ok content) :
    content = "structural: 5\n" ∨ content = "" ∨ content = propertyText := by
  rw [View.read, threeFiles] at h
  by_cases hnumber : path.text = "a.yml"
  · rw [if_pos hnumber] at h
    cases h
    exact .inl rfl
  by_cases hnothing : path.text = "b.yml"
  · rw [if_neg hnumber, if_pos hnothing] at h
    cases h
    exact .inr (.inl rfl)
  by_cases hrecord : path.text = "c.yml"
  · rw [if_neg hnumber, if_neg hnothing, if_pos hrecord] at h
    cases h
    exact .inr (.inr rfl)
  rw [if_neg hnumber, if_neg hnothing, if_neg hrecord] at h
  by_cases hdirectory : path.text = "."
  · rw [if_pos hdirectory] at h
    cases h
  · rw [if_neg hdirectory] at h
    cases h

/-- A document in which nothing stands besides shaped structural records. -/
theorem isShaped_structural {v : Datum} (h : ∀ rs, v.optionalElements = .ok rs →
    ∀ r ∈ rs, StructuralRecord.IsShaped r) : Source.IsShaped (.map [(.text "structural", v)]) := by
  have hstructural : Datum.field "structural" (.map [(.text "structural", v)]) = .ok v := by cbv
  have hdocumentation : Datum.field "documentation" (.map [(.text "structural", v)]) = .ok .null := by
    cbv
  have hname : Datum.field "name" (.map [(.text "structural", v)]) = .ok .null := by cbv
  refine ⟨fun v' rs hv hrs => ?_, fun v' rs hv hrs r hr => ?_, fun v' hv hgiven => ?_⟩
  · rw [hstructural] at hv
    cases hv
    exact h rs hrs
  · rw [hdocumentation] at hv
    cases hv
    cases hrs
    cases hr
  · rw [hname] at hv
    cases hv
    cases hgiven

/-- The flags of an accessor are asked of a map. -/
theorem isShaped_propertyDatum : StructuralRecord.IsShaped propertyDatum := by
  refine ⟨Datum.hasFields_map _, fun v hv => ?_, fun v ps hv hps p hp => ?_⟩
  · have hflags : propertyDatum.field "accessor_flags" =
        .ok (.map [(.text "getter", .text "public")]) := by cbv
    rw [hflags] at hv
    cases hv
    exact .inl (Datum.hasFields_map _)
  · have hparameters : propertyDatum.field "parameters" = .ok .null := by cbv
    rw [hparameters] at hv
    cases hv
    cases hps
    cases hp

theorem isShapedFile_threeFiles (path : Path) : Source.IsShapedFile threeFiles path := by
  intro content hcontent
  rcases read_threeFiles hcontent with rfl | rfl | rfl
  · rw [ofYaml_numberForRecords]
    refine ⟨failsOnly_ok _, ?_⟩
    rintro _ ⟨⟩
    refine isShaped_structural fun rs hrs => ?_
    cases hrs
  · rw [ofYaml_empty]
    refine ⟨failsOnly_ok _, ?_⟩
    rintro _ ⟨⟩
    refine Source.isShaped_of_not_hasFields ?_
    rintro ⟨entries, hentries⟩
    cases hentries
  · rw [ofYaml_propertyText]
    refine ⟨failsOnly_ok _, ?_⟩
    rintro _ ⟨⟩
    refine isShaped_structural fun rs hrs r hr => ?_
    cases hrs
    rw [List.mem_singleton.mp hr]
    exact isShaped_propertyDatum

/-- The file with the number is reported, and the other ones give sources, one of them with a record. -/
theorem readSources_of_isShapedFile_of_number :
    (∀ p ∈ [Path.ofText "a.yml", Path.ofText "b.yml", Path.ofText "c.yml"],
      Source.IsShapedFile threeFiles p) ∧
    (∀ p ∈ [Path.ofText "a.yml", Path.ofText "b.yml", Path.ofText "c.yml"],
      (∃ s, Source.ofFile threeFiles p = .ok s) ∨
        ∃ e, Source.ofFile threeFiles p = .error (.source e) ∧ e.source = p.text) ∧
    (readSources threeFiles 30 false
        [Path.ofText "a.yml", Path.ofText "b.yml", Path.ofText "c.yml"]).outcome =
      .ok ([Path.ofText "a.yml", Path.ofText "b.yml", Path.ofText "c.yml"].filterMap
          (Source.inFile? threeFiles),
        [Path.ofText "a.yml", Path.ofText "b.yml", Path.ofText "c.yml"].filterMap
          (Source.errorOfFile? threeFiles)) :=
  ⟨fun p _ => isShapedFile_threeFiles p,
    readSources_of_isShapedFile (fun p _ => isShapedFile_threeFiles p) 30⟩

/-- A number in the place of a record is neither read nor reported, although the file is a document. -/
theorem not_forall_ofFile_isAbout : ¬ ∀ (view : View) (path : Path) (content : String),
    view.read path = .ok content → FailsOnly (Datum.ofYaml content) (· = .malformedDocument) →
      FailsOnly (Source.ofFile view path) (LoadError.IsAbout path.text) := by
  intro hall
  have hfile : Source.ofFile (fun _ => .ok (some (.file "structural: [5]\n"))) (.ofText "bad.yml") =
      .error (.other .noField) := by
    have hrecord : ¬ (Datum.int 5).HasFields := nofun
    rw [Source.ofFile]
    show ((Datum.ofYaml "structural: [5]\n").mapError _ >>= _) = _
    rw [ofYaml_numberForRecord]
    show Source.ofDatum _ (.map [(.text "structural", .list [.int 5])]) = _
    exact Source.ofDatum_of_not_hasFields _ (by cbv) rfl hrecord
  refine hall _ (.ofText "bad.yml") "structural: [5]\n" rfl ?_ _ hfile
  rw [ofYaml_numberForRecord]
  exact failsOnly_ok _

end CommandLine

end ApiDocs
