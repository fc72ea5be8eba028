import ApiDocs.Proofs.Catalog.Export
import ApiDocs.Proofs.CommandLine.Arguments
import ApiDocs.Proofs.CommandLine.Outcomes
import ApiDocs.Proofs.Settings.Default
import ApiDocs.Proofs.Source.Report
import ApiDocs.Proofs.Storage.PathOrder

/-!
# What a run reports and writes

A run that is not told to stop at the first failure goes through all of its files.  What it returns,
prints last and writes follows from what comes of each file.

* `CommandLine.reconcileFiles_outcome`: what a run did when it got through;
* `CommandLine.isEarly_reconcileFiles`: a run that does not stop at the first failure ends early with a
  message or by a fault only;
* `CommandLine.run_accounts`: the status, the report and what is written.
-/

namespace ApiDocs.CommandLine

/-! ## What is written -/

/-- What an effect writes, and where. -/
def Effect.write? : Effect → Option (Path × Document)
  | write path document => some (path, document)
  | _ => none

/-- What is written, and where. -/
def writes (log : List Effect) : List (Path × Document) := log.filterMap Effect.write?

theorem writes_append (log log' : List Effect) : writes (log ++ log') = writes log ++ writes log' :=
  List.filterMap_append

/-- A computation writes nothing, whether it goes on or not. -/
def IsQuiet {α : Type} (x : Run α) : Prop := writes x.log = []

namespace IsQuiet

variable {α β : Type} {x : Run α} {f : α → Run β}

theorem bind (hx : IsQuiet x) (hf : ∀ a, IsQuiet (f a)) : IsQuiet (x >>= f) := by
  cases h : x.outcome with
  | error e =>
    have hlog : (x >>= f).log = x.log := by
      obtain ⟨log, outcome⟩ := x
      subst h
      rfl
    rw [IsQuiet, hlog]
    exact hx
  | ok a =>
    rw [IsQuiet, Logged.log_bind h, writes_append, hx, hf a]
    rfl

/-- A step that writes nothing before others. -/
theorem writes_bind {a : α} (hx : IsQuiet x) (h : x.outcome = .ok a) (f : α → Run β) :
    writes (x >>= f).log = writes (f a).log := by
  rw [Logged.log_bind h, writes_append, hx, List.nil_append]

end IsQuiet

theorem isQuiet_orFault {α : Type} (x : Except Fault α) : IsQuiet (orFault x) := rfl

theorem isQuiet_printLine (text : String) : IsQuiet (printLine text) := rfl

theorem writes_map_report {σ : Type} (f : σ → String) (entries : List σ) :
    writes (entries.map fun e => .report (f e)) = [] := by
  induction entries with
  | nil => rfl
  | cons e entries ih => exact ih

theorem isQuiet_emitAll_logLines (least : Nat) (entries : List LogEntry) :
    IsQuiet (Logged.emitAll (logLines least entries)) := writes_map_report _ _

theorem isQuiet_logged {ε α : Type} (least : Nat) (stop : ε → Stop) (x : Logged ε LogEntry α) :
    IsQuiet (logged least stop x) := writes_map_report _ _

theorem isQuiet_loadSettings (view : View) (path : String) : IsQuiet (loadSettings view path) :=
  writes_map_report _ _

theorem isQuiet_findFiles (view : View) (files : List Path) : IsQuiet (findFiles view files) := by
  rw [findFiles]
  dsimp only
  split
  · rfl
  · refine (isQuiet_orFault _).bind fun missing => ?_
    split
    · rfl
    · rfl

theorem isQuiet_readSources (view : View) (least : Nat) (failFast : Bool) (paths : List Path) :
    IsQuiet (readSources view least failFast paths) := by
  induction paths with
  | nil => rfl
  | cons path paths ih =>
    rw [readSources]
    split
    · exact ih.bind fun _ => rfl
    · rfl
    · refine (isQuiet_emitAll_logLines least _).bind fun _ => ?_
      split
      · rfl
      · exact ih.bind fun _ => rfl

theorem isQuiet_forM_printLine (lines : List String) : IsQuiet (lines.forM printLine) := by
  induction lines with
  | nil => rfl
  | cons line lines ih => exact (isQuiet_printLine line).bind fun _ => ih

theorem outcome_forM_printLine (lines : List String) : (lines.forM printLine).outcome = .ok () := by
  induction lines with
  | nil => rfl
  | cons line lines ih => exact ih

theorem writeCatalog_outcome {view : View} {path : Path} {c : Catalog}
    (h : (writeCatalog view path c).outcome = .ok ()) :
    writes (writeCatalog view path c).log = [(path, ⟨.ofPath path, c.toDatum⟩)] := by
  obtain ⟨⟨⟩, hwritable, -⟩ := Logged.bind_eq_ok_iff.mp h
  rw [writeCatalog, (isQuiet_orFault _).writes_bind hwritable]
  rfl

/-! ## A run that gets through -/

/-- What a run writes at its end, if it is asked to. -/
def requested (a : Arguments) (c : Catalog) : List (Path × Document) :=
  if a.dryRun then [] else a.out.toList.map fun path => (path, ⟨.ofPath path, c.toDatum⟩)

theorem findFiles_outcome {view : View} {files found : List Path}
    (h : (findFiles view files).outcome = .ok found) : found = Path.sorted files := by
  rw [findFiles] at h
  dsimp only at h
  split at h
  · cases h
  · obtain ⟨missing, -, h⟩ := Logged.bind_eq_ok_iff.mp h
    split at h
    · cases h
    · cases h
      rfl

/-- What a run did when it got through. -/
theorem reconcileFiles_outcome {view : View} {a : Arguments} {failures : List SourceError}
    (h : (reconcileFiles view a).outcome = .ok failures) :
    ∃ settings least sources unread options result,
      (Settings.load view a.config).outcome = .ok settings ∧
      (readSources view least settings.failsFast (Path.sorted a.files)).outcome =
        .ok (sources, unread) ∧
      loadOptions settings sources = .ok options ∧
      (loadSources options settings.failsFast sources).outcome = .ok result ∧
      failures = unread ++ result.failures ∧
      writes (reconcileFiles view a).log = requested a result.catalog := by
  rw [reconcileFiles] at h ⊢
  obtain ⟨settings, hsettings, h⟩ := Logged.bind_eq_ok_iff.mp h
  rw [(isQuiet_loadSettings view a.config).writes_bind hsettings]
  obtain ⟨least, hleast, h⟩ := Logged.bind_eq_ok_iff.mp h
  rw [(isQuiet_orFault _).writes_bind hleast]
  obtain ⟨files, hfiles, h⟩ := Logged.bind_eq_ok_iff.mp h
  rw [(isQuiet_findFiles view a.files).writes_bind hfiles]
  rw [findFiles_outcome hfiles] at h ⊢
  obtain ⟨⟨sources, unread⟩, hread, h⟩ := Logged.bind_eq_ok_iff.mp h
  rw [(isQuiet_readSources view least settings.failsFast _).writes_bind hread]
  obtain ⟨options, hoptions, h⟩ := Logged.bind_eq_ok_iff.mp h
  rw [(isQuiet_orFault _).writes_bind hoptions]
  obtain ⟨result, hresult, h⟩ := Logged.bind_eq_ok_iff.mp h
  rw [(isQuiet_logged least _ _).writes_bind hresult]
  obtain ⟨⟨⟩, hsummary, h⟩ := Logged.bind_eq_ok_iff.mp h
  rw [(isQuiet_forM_printLine _).writes_bind hsummary]
  refine ⟨settings, least, sources, unread, options, result, mapError_eq_ok_iff.mp hsettings, hread,
    mapError_eq_ok_iff.mp hoptions, mapError_eq_ok_iff.mp hresult, ?_⟩
  rw [requested]
  cases hout : a.out with
  | none =>
    rw [hout] at h
    cases h
    exact ⟨rfl, by cases a.dryRun <;> rfl⟩
  | some path =>
    rw [hout] at h
    cases hdry : a.dryRun with
    | true =>
      rw [hdry] at h
      cases h
      exact ⟨rfl, rfl⟩
    | false =>
      rw [hdry] at h
      obtain ⟨⟨⟩, hwrite, h⟩ := Logged.bind_eq_ok_iff.mp h
      cases h
      refine ⟨rfl, ?_⟩
      show writes (writeCatalog view path result.catalog >>= _).log = _
      rw [Logged.log_bind hwrite, writes_append, writeCatalog_outcome hwrite]
      rfl

/-! ## A run that ends early -/

/-- An early end with a message, or by a fault. -/
def Stop.IsEarly : Stop → Prop
  | .exit (.message _) | .fault _ => True
  | .exit (.status _) | .source _ => False

theorem isEarly_orFault {α : Type} (x : Except Fault α) : FailsOnly (orFault x).outcome Stop.IsEarly :=
  failsOnly_mapError fun _ => trivial

theorem isEarly_findFiles (view : View) (files : List Path) :
    FailsOnly (findFiles view files).outcome Stop.IsEarly := by
  rw [findFiles]
  dsimp only
  split
  · exact failsOnly_error trivial
  · rw [Logged.outcome_bind]
    refine (isEarly_orFault _).bind fun missing _ => ?_
    split
    · exact failsOnly_error trivial
    · exact failsOnly_ok _

theorem isEarly_readSources (view : View) (least : Nat) (paths : List Path) :
    FailsOnly (readSources view least false paths).outcome Stop.IsEarly := by
  induction paths with
  | nil => exact failsOnly_ok _
  | cons path paths ih =>
    rw [readSources]
    split
    · rw [Logged.outcome_bind]
      exact ih.bind fun _ _ => failsOnly_ok _
    · exact failsOnly_error trivial
    · simp only [Bool.false_eq_true, if_false, Logged.outcome_bind, Logged.outcome_emitAll]
      exact (failsOnly_ok ()).bind fun _ _ => ih.bind fun _ _ => failsOnly_ok _

/-- Loading that does not stop at the first failure fails for no source. -/
theorem failsOnly_loadFrom (options : LoadOptions) (result : LoadResult) (sources : List Source) :
    FailsOnly (loadFrom options false result sources).outcome fun e => ∃ f, e = .other f := by
  induction sources generalizing result with
  | nil => exact failsOnly_ok _
  | cons s rest ih =>
    cases hstep : (loadOne options result.catalog s).outcome with
    | ok c =>
      rw [loadFrom_cons_of_ok hstep]
      exact ih _
    | error e =>
      cases e with
      | other f =>
        rw [loadFrom_cons_of_other hstep]
        exact failsOnly_error ⟨f, rfl⟩
      | source e =>
        rw [loadFrom_cons_of_source hstep]
        exact ih _

theorem isEarly_logged_loadSources (least : Nat) (options : LoadOptions) (sources : List Source) :
    FailsOnly (logged least Stop.ofLoadError (loadSources options false sources)).outcome
      Stop.IsEarly := by
  refine (failsOnly_loadFrom options ⟨.empty, []⟩ sources).mapError ?_
  rintro _ ⟨f, rfl⟩
  trivial

theorem isEarly_writeCatalog (view : View) (path : Path) (c : Catalog) :
    FailsOnly (writeCatalog view path c).outcome Stop.IsEarly := by
  rw [writeCatalog, Logged.outcome_bind]
  exact (isEarly_orFault _).bind fun _ _ => failsOnly_ok _

/-- A run that does not stop at the first failure ends early with a message or by a fault only. -/
theorem isEarly_reconcileFiles {view : View} {a : Arguments} {settings : Settings}
    (hsettings : (Settings.load view a.config).outcome = .ok settings)
    (hslow : settings.failsFast = false) : FailsOnly (reconcileFiles view a).outcome Stop.IsEarly := by
  have hload : (loadSettings view a.config).outcome = .ok settings := mapError_eq_ok_iff.mpr hsettings
  rw [reconcileFiles, Logged.outcome_bind, hload]
  show FailsOnly (Logged.outcome (_ >>= _)) Stop.IsEarly
  rw [Logged.outcome_bind]
  refine (isEarly_orFault _).bind fun least _ => ?_
  rw [Logged.outcome_bind]
  refine (isEarly_findFiles view a.files).bind fun files _ => ?_
  rw [Logged.outcome_bind, hslow]
  refine (isEarly_readSources view least files).bind fun ⟨sources, unread⟩ _ => ?_
  dsimp only
  rw [Logged.outcome_bind]
  refine (isEarly_orFault _).bind fun options _ => ?_
  rw [Logged.outcome_bind]
  refine (isEarly_logged_loadSources least options sources).bind fun result _ => ?_
  rw [Logged.outcome_bind, outcome_forM_printLine]
  refine (failsOnly_ok ()).bind fun _ _ => ?_
  split
  · split
    · rw [Logged.outcome_bind]
      exact (isEarly_writeCatalog view _ _).bind fun _ _ => failsOnly_ok _
    · exact failsOnly_ok _
  · exact failsOnly_ok _

/-! ## What a run comes to -/

/-- What a run that returns with a status got through, and how the status and what is printed last tell
of the failures. -/
theorem reconcile_outcome {view : View} {a : Arguments} {settings : Settings} {code : Nat}
    (hsettings : (Settings.load view a.config).outcome = .ok settings)
    (hslow : settings.failsFast = false) (h : (reconcile view a).outcome = .ok (.status code)) :
    ∃ failures, (reconcileFiles view a).outcome = .ok failures ∧
      writes (reconcile view a).log = writes (reconcileFiles view a).log ∧
      ((failures = [] ∧ code = 0) ∨ (failures ≠ [] ∧ code = 1 ∧ ∃ report,
        (reconcile view a).log.getLast? = some (.print report) ∧
          SourceError.IsReport failures report)) := by
  have hearly := isEarly_reconcileFiles hsettings hslow
  rw [reconcile] at h ⊢
  cases hwork : (reconcileFiles view a).outcome with
  | ok failures =>
    rw [hwork] at h
    cases failures with
    | nil =>
      cases h
      exact ⟨[], rfl, rfl, .inl ⟨rfl, rfl⟩⟩
    | cons e failures =>
      cases h
      refine ⟨e :: failures, rfl, ?_, .inr ⟨List.cons_ne_nil e failures, rfl, ?_⟩⟩
      · dsimp only
        rw [writes_append]
        exact List.append_nil _
      · exact ⟨_, List.getLast?_concat, SourceError.isReport_aggregate _⟩
  | error stop =>
    have hstop := hearly stop hwork
    rw [hwork] at h
    match stop with
    | .exit (.message text) => cases h
    | .exit (.status _) | .source _ => exact hstop.elim
    | .fault f => cases h

/-- A run does not depend on the order of its files. -/
theorem reconcile_eq_of_sorted {view : View} {a : Arguments} {files : List Path}
    (h : Path.sorted files = Path.sorted a.files) :
    reconcile view { a with files } = reconcile view a := by
  have hfind : findFiles view files = findFiles view a.files := by rw [findFiles, findFiles, h]
  have hwork : reconcileFiles view { a with files } = reconcileFiles view a := by
    rw [reconcileFiles, reconcileFiles, hfind]
  rw [reconcile, reconcile, hwork]

/-- A run that returns with a status, without being told to stop at the first failure.  It goes through
its files in order, and something comes of each: a file is not read, its source fails, or it is loaded.
The status is zero when every file is loaded.  Otherwise it is one, and the last thing printed is a
report with one entry for each failure, those of files that could not be read first.  What is written, if
that is asked for, is all of the union of the catalogs of the files that are loaded, in the format of the
path.  A command line with the same files in another order comes to the same. -/
theorem run_accounts {view : View} {words : List String} {a : Arguments} {settings : Settings}
    {code : Nat} (hparse : Request.parse words = .ok (.reconcile a))
    (hsettings : (Settings.load view a.config).outcome = .ok settings)
    (hslow : settings.failsFast = false) (h : (run view words).outcome = .ok (.status code)) :
    ∃ files options outcomes catalog,
      (files.Perm a.files ∧ files.Pairwise fun p q => p.precedes q = true) ∧
      (loadOptions settings (files.filterMap (Source.inFile? view)) = .ok options ∧
        AreOutcomes view options [] files outcomes) ∧
      (((∀ o ∈ outcomes, o.IsLoaded) ∧ code = 0) ∨
        ((∃ o ∈ outcomes, ¬ o.IsLoaded) ∧ code = 1 ∧ ∃ report,
          (run view words).log.getLast? = some (.print report) ∧
            SourceError.IsReport (failures outcomes) report)) ∧
      (Catalog.IsUnion (outcomes.filterMap FileOutcome.catalog?) catalog ∧
        catalog.IsExport catalog.toDatum ∧ writes (run view words).log =
          if a.dryRun then []
          else a.out.toList.map fun path => (path, ⟨.ofPath path, catalog.toDatum⟩)) ∧
      ∀ words' files', files'.Perm a.files →
        Request.parse words' = .ok (.reconcile { a with files := files' }) →
        run view words' = run view words := by
  have hrun : run view words = reconcile view a := by rw [run, hparse]
  rw [hrun] at h ⊢
  obtain ⟨_, hwork, hwrites, hstatus⟩ := reconcile_outcome hsettings hslow h
  obtain ⟨settings', least, sources, unread, options, result, hsettings', hread, hoptions, hresult,
    rfl, hlog⟩ := reconcileFiles_outcome hwork
  cases hsettings.symm.trans hsettings'
  rw [hslow] at hread hresult
  have hfiles := ofFile_ne_other_of_readSources hread
  cases hread.symm.trans (readSources_outcome hfiles least)
  obtain ⟨outcomes, haccount⟩ := exists_isAccount hfiles Catalog.isUnion_nil hresult
  have hfailures : (Path.sorted a.files).filterMap (Source.errorOfFile? view) ++ result.failures =
      failures outcomes := by
    rw [haccount.unread, haccount.failed]
    rfl
  rw [hfailures] at hstatus
  refine ⟨Path.sorted a.files, options, outcomes, result.catalog,
    ⟨Path.perm_sorted a.files, Path.pairwise_sorted a.files⟩, ⟨hoptions, haccount.each⟩, ?_,
    ⟨haccount.loaded, result.catalog.isExport_toDatum, hwrites.trans hlog⟩,
    fun words' files' hperm hparse' => ?_⟩
  · refine hstatus.imp (And.imp_left failures_eq_nil_iff.mp) (And.imp_left fun hne => ?_)
    by_contra hnone
    exact hne (failures_eq_nil_iff.mpr fun o ho => by_contra fun hno => hnone ⟨o, ho, hno⟩)
  · have hsorted := Path.sorted_eq_of_perm (Request.exists_ofText_of_parse hparse) hperm
    rw [run, hparse']
    exact reconcile_eq_of_sorted hsorted

/-! ## A file that is reported and one that is loaded -/

/-- The request to write what is in two files. -/
def bothFiles : Arguments where
  files := [.ofText "c.yml", .ofText "a.yml"]
  out := some (.ofText "o.json")

theorem checkWritable_threeFiles :
    threeFiles.checkWritable (.ofText "o.json") = .ok () := by
  have hdirectory : threeFiles.checkDirectory (Path.ofText "o.json").parent = .ok () := by cbv
  have hname : View.checkName (.ofText "o.json") = .ok () := by
    have hnameless : (Path.ofText "o.json").nameless? = none := by decide
    have hnull : (Path.ofText "o.json").hasNull = false := by decide
    rw [View.checkName, hnameless, hnull]
    rfl
  have hsteps : (Path.ofText "o.json").parent.steps = [] := by cbv
  have hlong : Path.isLongPart (Path.ofText "o.json").name = false := by cbv
  have hview : threeFiles (.ofText "o.json") = .ok none := by cbv
  have hview' : threeFiles (Path.ofText "o.json").normalized = .ok none := by cbv
  rw [View.checkWritable, hdirectory, hname, hsteps, hlong, hview, hview']
  rfl

/-- The source with one property. -/
def propertySource : Source where
  name := "c"
  structural := [{ kind := "property", identifier := "A.p", accessors := (.publicBit, .none) }]

theorem readSources_threeFiles (least : Nat) :
    (readSources threeFiles least false [.ofText "a.yml", .ofText "c.yml"]).outcome =
      .ok ([propertySource], [⟨"a.yml", .malformed (.notIterable "int")⟩]) := by
  have hnumber : Source.ofFile threeFiles (.ofText "a.yml") =
      .error (.source ⟨"a.yml", .malformed (.notIterable "int")⟩) := by
    show ((Datum.ofYaml "structural: 5\n").mapError _ >>= _) = _
    rw [ofYaml_numberForRecords]
    cbv
  have hrecord : Source.ofFile threeFiles (.ofText "c.yml") = .ok propertySource := by
    show ((Datum.ofYaml propertyText).mapError _ >>= _) = _
    rw [ofYaml_propertyText]
    cbv
  have hfiles : ∀ p ∈ [Path.ofText "a.yml", .ofText "c.yml"], ∀ f,
      Source.ofFile threeFiles p ≠ .error (.other f) :=
    fun p _ f hf => Source.failsOnly_ofFile (isShapedFile_threeFiles p) _ hf
  rw [readSources_outcome hfiles, readings]
  simp only [List.filterMap_cons, Source.inFile?, Source.errorOfFile?, hnumber, hrecord]
  rfl

theorem exists_loadSources_propertySource :
    ∃ c, (loadSources {} false [propertySource]).outcome = .ok ⟨c, []⟩ := by
  have hloads : ((loadSources {} false [propertySource]).outcome.map fun r => r.failures.length) =
      .ok 0 := by cbv
  cases h : (loadSources {} false [propertySource]).outcome with
  | error e =>
    rw [h] at hloads
    cases hloads
  | ok r =>
    rw [h] at hloads
    obtain ⟨c, failures⟩ := r
    obtain rfl := List.eq_nil_of_length_eq_zero (Except.ok.inj hloads)
    exact ⟨c, rfl⟩

theorem reconcileFiles_bothFiles : (reconcileFiles threeFiles bothFiles).outcome =
    .ok [⟨"a.yml", .malformed (.notIterable "int")⟩] := by
  have hwritten : ∀ p ∈ [Path.ofText "a.yml", .ofText "c.yml"], ∃ s, p = .ofText s :=
    List.forall_mem_cons.mpr ⟨⟨_, rfl⟩, List.forall_mem_singleton.mpr ⟨_, rfl⟩⟩
  have horder : [Path.ofText "a.yml", .ofText "c.yml"].Pairwise fun p q => p.precedes q = true :=
    List.pairwise_pair.mpr (by decide)
  have hsorted : Path.sorted bothFiles.files = [.ofText "a.yml", .ofText "c.yml"] :=
    (Path.sorted_eq_of_perm hwritten (.swap _ _ _)).trans (List.mergeSort_of_pairwise horder)
  have hfiles : (findFiles threeFiles bothFiles.files).outcome =
      .ok [.ofText "a.yml", .ofText "c.yml"] := by
    rw [findFiles, hsorted]
    rfl
  obtain ⟨c, hloaded⟩ := exists_loadSources_propertySource
  refine Logged.bind_eq_ok_iff.mpr ⟨.default, rfl, ?_⟩
  refine Logged.bind_eq_ok_iff.mpr ⟨_, mapError_eq_ok_iff.mpr threshold_default, ?_⟩
  refine Logged.bind_eq_ok_iff.mpr ⟨_, hfiles, ?_⟩
  rw [Settings.failsFast_default]
  refine Logged.bind_eq_ok_iff.mpr ⟨_, readSources_threeFiles _, ?_⟩
  refine Logged.bind_eq_ok_iff.mpr ⟨{}, mapError_eq_ok_iff.mpr (loadOptions_default _ _), ?_⟩
  refine Logged.bind_eq_ok_iff.mpr ⟨⟨c, []⟩, mapError_eq_ok_iff.mpr hloaded, ?_⟩
  refine Logged.bind_eq_ok_iff.mpr ⟨(), outcome_forM_printLine _, ?_⟩
  refine Logged.bind_eq_ok_iff.mpr ⟨(), ?_, rfl⟩
  rw [writeCatalog, checkWritable_threeFiles]
  rfl

/-- One file has a number in the place of records and is reported.  The other one has a record, and what
is written is what comes of it. -/
theorem run_accounts_of_number :
    (Request.parse ["c.yml", "a.yml", "--out", "o.json"] = .ok (.reconcile bothFiles) ∧
      (Settings.load threeFiles bothFiles.config).outcome = .ok .default ∧
      Settings.default.failsFast = false ∧
      (run threeFiles ["c.yml", "a.yml", "--out", "o.json"]).outcome = .ok (.status 1)) ∧
    ∃ files options outcomes catalog,
      (files.Perm bothFiles.files ∧ files.Pairwise fun p q => p.precedes q = true) ∧
      (loadOptions .default (files.filterMap (Source.inFile? threeFiles)) = .ok options ∧
        AreOutcomes threeFiles options [] files outcomes) ∧
      (((∀ o ∈ outcomes, o.IsLoaded) ∧ 1 = 0) ∨ ((∃ o ∈ outcomes, ¬ o.IsLoaded) ∧ 1 = 1 ∧
        ∃ report, (run threeFiles ["c.yml", "a.yml", "--out", "o.json"]).log.getLast? =
            some (.print report) ∧
          SourceError.IsReport (failures outcomes) report)) ∧
      (Catalog.IsUnion (outcomes.filterMap FileOutcome.catalog?) catalog ∧
        catalog.IsExport catalog.toDatum ∧
        writes (run threeFiles ["c.yml", "a.yml", "--out", "o.json"]).log =
          if bothFiles.dryRun then []
          else bothFiles.out.toList.map fun path => (path, ⟨.ofPath path, catalog.toDatum⟩)) ∧
      ∀ words' files', files'.Perm bothFiles.files →
        Request.parse words' = .ok (.reconcile { bothFiles with files := files' }) →
        run threeFiles words' =
          run threeFiles ["c.yml", "a.yml", "--out", "o.json"] := by
  have hparse : Request.parse ["c.yml", "a.yml", "--out", "o.json"] = .ok (.reconcile bothFiles) := rfl
  have hreturn : (run threeFiles ["c.yml", "a.yml", "--out", "o.json"]).outcome =
      .ok (.status 1) := by
    rw [run, hparse]
    show (reconcile threeFiles bothFiles).outcome = _
    rw [reconcile, reconcileFiles_bothFiles]
  exact ⟨⟨hparse, rfl, Settings.failsFast_default, hreturn⟩,
    run_accounts hparse rfl Settings.failsFast_default hreturn⟩

end ApiDocs.CommandLine
