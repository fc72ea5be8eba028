import ApiDocs.Proofs.CommandLine.Reading
import ApiDocs.Proofs.Source.Survivors

/-!
# What comes of each file

A file cannot be read, or its source fails, or it is loaded.  Whether a source fails may depend on the
files before it: a type that one of them has already loaded is refused.

* `CommandLine.IsOutcome`, `CommandLine.AreOutcomes`: what comes of one file, and of one after another;
* `CommandLine.IsAccount`: the failures are those of the files, and what is loaded is the union of the
  catalogs of the files that do not fail;
* `CommandLine.exists_isAccount`: reading and loading files accounts for all of them.
-/

namespace ApiDocs.CommandLine

/-- What comes of a file. -/
inductive FileOutcome
  | unread (error : SourceError)
  | failed (error : SourceError)
  | loaded (catalog : Catalog)

namespace FileOutcome

/-- The error with which a file could not be read. -/
def unread? : FileOutcome → Option SourceError
  | unread e => some e
  | _ => none

/-- The error with which the source in a file failed. -/
def failed? : FileOutcome → Option SourceError
  | failed e => some e
  | _ => none

/-- The catalog of a file that is loaded. -/
def catalog? : FileOutcome → Option Catalog
  | loaded c => some c
  | _ => none

/-- Whether a file is loaded. -/
def IsLoaded (o : FileOutcome) : Prop := o.catalog?.isSome = true

end FileOutcome

/-- The errors of the files that could not be read, and behind them those of the sources that failed. -/
def failures (outcomes : List FileOutcome) : List SourceError :=
  outcomes.filterMap FileOutcome.unread? ++ outcomes.filterMap FileOutcome.failed?

/-- There are no failures when every file is loaded. -/
theorem failures_eq_nil_iff {outcomes : List FileOutcome} :
    failures outcomes = [] ↔ ∀ o ∈ outcomes, o.IsLoaded := by
  simp only [failures, List.append_eq_nil_iff, List.filterMap_eq_nil_iff, ← forall_and]
  refine forall₂_congr fun o _ => ?_
  cases o with
  | unread e => exact ⟨nofun, nofun⟩
  | failed e => exact ⟨nofun, nofun⟩
  | loaded c => exact ⟨fun _ => rfl, fun _ => ⟨rfl, rfl⟩⟩

/-- What comes of a file after files that have loaded some catalogs.  An error names the file or the
source in it. -/
inductive IsOutcome (view : View) (options : LoadOptions) (before : List Catalog) (path : Path) :
    FileOutcome → Prop
  | unread {e : SourceError} (hread : Source.ofFile view path = .error (.source e))
    (hsource : e.source = path.text) : IsOutcome view options before path (.unread e)
  | failed {s : Source} {e : SourceError} (hread : Source.ofFile view path = .ok s)
    (hload : (s.load options).outcome = .error (.source e)) (hsource : e.source = s.name) :
    IsOutcome view options before path (.failed e)
  | clash {s : Source} {c earlier : Catalog} {key : String}
    (hread : Source.ofFile view path = .ok s) (hload : (s.load options).outcome = .ok c)
    (hearlier : earlier ∈ before) (hkey : key ∈ earlier.keys) (hkey' : key ∈ c.keys) :
    IsOutcome view options before path (.failed ⟨s.name, .clash key⟩)
  | loaded {s : Source} {c : Catalog} (hread : Source.ofFile view path = .ok s)
    (hload : (s.load options).outcome = .ok c)
    (hapart : ∀ earlier ∈ before, earlier.keys.Disjoint c.keys) :
    IsOutcome view options before path (.loaded c)

/-- What comes of files one after another, after files that have loaded some catalogs. -/
inductive AreOutcomes (view : View) (options : LoadOptions) :
    List Catalog → List Path → List FileOutcome → Prop
  | nil (before : List Catalog) : AreOutcomes view options before [] []
  | cons {before : List Catalog} {path : Path} {o : FileOutcome} {paths : List Path}
    {os : List FileOutcome} (h : IsOutcome view options before path o)
    (hrest : AreOutcomes view options (before ++ o.catalog?.toList) paths os) :
    AreOutcomes view options before (path :: paths) (o :: os)

variable {view : View} {options : LoadOptions}

/-- An error with which a file cannot be read names the file. -/
theorem namesOnly_ofFile (view : View) (path : Path) :
    FailsOnly (Source.ofFile view path) (LoadError.NamesOnly path.text) := by
  rw [Source.ofFile]
  refine FailsOnly.bind (failsOnly_mapError fun _ => rfl) fun content _ => ?_
  refine FailsOnly.bind (failsOnly_mapError fun f => ?_) fun document _ => ?_
  · cases f <;> first | exact rfl | trivial
  · rw [Source.ofDatum]
    split
    · refine FailsOnly.bind (failsOnly_mapError fun f => ?_) fun records _ => ?_
      · cases f <;> first | exact rfl | trivial
      · exact (failsOnly_mapError fun _ => trivial).bind fun name _ => failsOnly_ok _
    · exact failsOnly_error rfl

/-- Why a source fails behind what is loaded already. -/
theorem loadOne_eq_source {loaded : Catalog} {s : Source} {e : SourceError}
    (h : (loadOne options loaded s).outcome = .error (.source e)) :
    (s.load options).outcome = .error (.source e) ∨ ∃ c key, (s.load options).outcome = .ok c ∧
      loaded.union c = .error (.duplicate key) ∧ e = ⟨s.name, .clash key⟩ := by
  rw [loadOne, Logged.outcome_bind] at h
  cases hload : (s.load options).outcome with
  | error e' =>
    rw [hload] at h
    cases h
    exact .inl rfl
  | ok c =>
    rw [hload] at h
    change (Logged.ofExcept (uniteSource s.name loaded c) >>= _).outcome = _ at h
    rw [Logged.outcome_bind, Logged.outcome_ofExcept, uniteSource] at h
    split at h
    · cases h
    · next key hunion =>
      cases h
      exact .inr ⟨c, key, rfl, hunion, rfl⟩
    · cases h

/-- What comes of a file whose source fails. -/
theorem isOutcome_of_loadOne {before : List Catalog} {path : Path} {s : Source} {loaded : Catalog}
    {e : SourceError} (hread : Source.ofFile view path = .ok s)
    (hbefore : Catalog.IsUnion before loaded)
    (h : (loadOne options loaded s).outcome = .error (.source e)) :
    IsOutcome view options before path (.failed e) := by
  rcases loadOne_eq_source h with hload | ⟨c, key, hload, hunion, rfl⟩
  · exact .failed hread hload (s.namesOnly_load _ hload)
  · have hkeyed := (Source.obtained_of_load hload).isPlaced.isKeyed
    obtain ⟨_, ⟨⟩, hkey, hkey'⟩ := Catalog.union_eq_error hkeyed hunion
    obtain ⟨earlier, hearlier, hmem⟩ := hbefore.mem_keys_iff.mp hkey
    exact .clash hread hload hearlier hmem hkey'

/-! ## What is reported, and what is loaded -/

/-- Files are read and loaded behind what is loaded already: what comes of each, that the failures are
those of the files, and that the catalogs of the files that are loaded are added. -/
structure IsAccount (view : View) (options : LoadOptions) (before : List Catalog)
    (failures : List SourceError) (files : List Path) (outcomes : List FileOutcome)
    (r : LoadResult) : Prop where
  each : AreOutcomes view options before files outcomes
  unread : files.filterMap (Source.errorOfFile? view) = outcomes.filterMap FileOutcome.unread?
  failed : r.failures = failures ++ outcomes.filterMap FileOutcome.failed?
  loaded : Catalog.IsUnion (before ++ outcomes.filterMap FileOutcome.catalog?) r.catalog

namespace IsAccount

variable {before : List Catalog} {failures : List SourceError} {path : Path} {files : List Path}
  {outcomes : List FileOutcome} {r : LoadResult}

theorem nil (hbefore : Catalog.IsUnion before r.catalog) :
    IsAccount view options before r.failures [] [] r where
  each := .nil before
  unread := rfl
  failed := (List.append_nil _).symm
  loaded := (List.append_nil before).symm ▸ hbefore

theorem cons_unread {e : SourceError} (hread : Source.ofFile view path = .error (.source e))
    (h : IsAccount view options before failures files outcomes r) :
    IsAccount view options before failures (path :: files) (.unread e :: outcomes) r where
  each := .cons (.unread hread (namesOnly_ofFile view path _ hread)) ((List.append_nil before).symm ▸ h.each)
  unread := by
    have herror : Source.errorOfFile? view path = some e := by rw [Source.errorOfFile?, hread]
    rw [List.filterMap_cons_some herror, h.unread]
    rfl
  failed := h.failed
  loaded := h.loaded

theorem cons_failed {s : Source} {e : SourceError} (hread : Source.ofFile view path = .ok s)
    (hpath : IsOutcome view options before path (.failed e))
    (h : IsAccount view options before (failures ++ [e]) files outcomes r) :
    IsAccount view options before failures (path :: files) (.failed e :: outcomes) r where
  each := .cons hpath ((List.append_nil before).symm ▸ h.each)
  unread := by
    have herror : Source.errorOfFile? view path = none := by rw [Source.errorOfFile?, hread]
    rw [List.filterMap_cons_none herror, h.unread]
    rfl
  failed := by
    rw [h.failed, List.append_assoc]
    rfl
  loaded := h.loaded

theorem cons_loaded {s : Source} {c : Catalog} (hread : Source.ofFile view path = .ok s)
    (hpath : IsOutcome view options before path (.loaded c))
    (h : IsAccount view options (before ++ [c]) failures files outcomes r) :
    IsAccount view options before failures (path :: files) (.loaded c :: outcomes) r where
  each := .cons hpath h.each
  unread := by
    have herror : Source.errorOfFile? view path = none := by rw [Source.errorOfFile?, hread]
    rw [List.filterMap_cons_none herror, h.unread]
    rfl
  failed := h.failed
  loaded := by
    have hloaded := h.loaded
    rw [List.append_assoc] at hloaded
    exact hloaded

end IsAccount

/-- Reading and loading files accounts for all of them. -/
theorem exists_isAccount {files : List Path}
    (hfiles : ∀ p ∈ files, ∀ f, Source.ofFile view p ≠ .error (.other f)) {before : List Catalog}
    {result r : LoadResult} (hbefore : Catalog.IsUnion before result.catalog)
    (h : (loadFrom options false result (files.filterMap (Source.inFile? view))).outcome = .ok r) :
    ∃ outcomes, IsAccount view options before result.failures files outcomes r := by
  induction files generalizing before result with
  | nil =>
    cases h
    exact ⟨[], .nil hbefore⟩
  | cons path files ih =>
    obtain ⟨hpath, hfiles⟩ := List.forall_mem_cons.mp hfiles
    cases hread : Source.ofFile view path with
    | error e =>
      have hin : Source.inFile? view path = none := by rw [Source.inFile?, hread]; rfl
      rw [List.filterMap_cons_none hin] at h
      cases e with
      | other f => exact absurd hread (hpath f)
      | source e =>
        obtain ⟨outcomes, haccount⟩ := ih hfiles hbefore h
        exact ⟨_, haccount.cons_unread hread⟩
    | ok s =>
      have hin : Source.inFile? view path = some s := by rw [Source.inFile?, hread]; rfl
      rw [List.filterMap_cons_some hin] at h
      cases hstep : (loadOne options result.catalog s).outcome with
      | error e =>
        cases e with
        | other f =>
          rw [loadFrom_cons_of_other hstep] at h
          cases h
        | source e =>
          rw [loadFrom_cons_of_source hstep] at h
          obtain ⟨outcomes, haccount⟩ :=
            @ih hfiles before { result with failures := result.failures ++ [e] } hbefore h
          exact ⟨_, haccount.cons_failed hread (isOutcome_of_loadOne hread hbefore hstep)⟩
      | ok united =>
        rw [loadFrom_cons_of_ok hstep] at h
        obtain ⟨c, hload, hunite⟩ := loadOne_eq_ok_iff.mp hstep
        have hkeyed := (Source.obtained_of_load hload).isPlaced.isKeyed
        have hbefore' : Catalog.IsUnion (before ++ [c]) united :=
          (hbefore.of_union hkeyed hunite).perm (List.perm_append_singleton c before).symm
        have hapart : ∀ earlier ∈ before, earlier.keys.Disjoint c.keys := fun earlier hmem =>
          (List.pairwise_append.mp hbefore'.apart).2.2 earlier hmem c List.mem_cons_self
        obtain ⟨outcomes, haccount⟩ :=
          @ih hfiles (before ++ [c]) { result with catalog := united } hbefore' h
        exact ⟨_, haccount.cons_loaded hread (.loaded hread hload hapart)⟩

end ApiDocs.CommandLine
