import Mathlib
import ApiDocs.Proofs.Catalog.Union
import ApiDocs.Proofs.Source.Isolation
import ApiDocs.Proofs.Source.Obtained

/-!
# What is left of the sources

Loading goes from source to source.  One that fails, for whatever reason, leaves what is loaded as it
was, so only those that do not fail are seen in the end.  Their catalogs have no keys in common, and
so they load without a failure in any order.

* `reportsFrom`: what loading reports of each source;
* `loadFrom_outcome`: the failures are those that are reported, and what is loaded is the union of the
  catalogs of the other sources;
* `loadFrom_of_isUnion`: sources whose catalogs have a union load to that union;
* `loadSources_survivors`: the sources of which nothing is reported load alike in any order.
-/

namespace ApiDocs

variable {options : LoadOptions}

/-! ## Names of sources that fail -/

/-- An error is about the source with a name, unless it is about none. -/
def LoadError.NamesOnly (name : String) : LoadError → Prop
  | .source e => e.source = name
  | .other _ => True

theorem LoadError.namesOnly_ofRecord (name identifier : String) (f : Fault) :
    (LoadError.ofRecord name identifier f).NamesOnly name := by
  rw [ofRecord]
  split
  · exact rfl
  · trivial

theorem LoadError.IsAbout.namesOnly {name : String} {e : LoadError} (h : e.IsAbout name) :
    e.NamesOnly name := by
  cases e with
  | source e => exact h
  | other f => trivial

theorem Entities.namesOnly_ofStructural (name : String) (records : List StructuralRecord) :
    FailsOnly (ofStructural name options records) (LoadError.NamesOnly name) := by
  induction records with
  | nil => exact failsOnly_ok _
  | cons r rest ih =>
    rw [ofStructural]
    refine (failsOnly_mapError fun _ => trivial).bind fun skipped _ => ?_
    split
    · exact ih.bind fun _ _ => failsOnly_ok _
    · exact (failsOnly_mapError fun _ => LoadError.namesOnly_ofRecord name _ _).bind fun _ _ =>
        ih.bind fun _ _ => failsOnly_ok _

theorem Catalog.namesOnly_ofStructural (name : String) (records : List StructuralRecord) :
    FailsOnly (ofStructural name options records).outcome (LoadError.NamesOnly name) := by
  rw [ofStructural, Logged.outcome_bind]
  refine (Entities.namesOnly_ofStructural name records).bind fun es _ => ?_
  have hconnect := (failsOnly_mapError_connect name es.types es.members).mono fun _ h => h.namesOnly
  dsimp only
  split
  · simp only [Logged.outcome_bind]
    exact (failsOnly_ok ()).bind fun _ _ => hconnect.bind fun _ _ => failsOnly_ok _
  · rw [Logged.outcome_bind]
    exact hconnect.bind fun _ _ => failsOnly_ok _

theorem Source.namesOnly_load (s : Source) :
    FailsOnly (s.load options).outcome (LoadError.NamesOnly s.name) := by
  simp only [load, Logged.outcome_bind]
  refine (Catalog.namesOnly_ofStructural s.name s.structural).bind fun structural _ => ?_
  refine FailsOnly.bind ?_ fun documentation _ => failsOnly_mapError fun _ => trivial
  exact (Catalog.failsOnly_ofDocumentation s.name s.documentation).mono fun _ h => h.namesOnly

/-- An error with which a source fails has the name of the source. -/
theorem namesOnly_loadOne (loaded : Catalog) (s : Source) :
    FailsOnly (loadOne options loaded s).outcome (LoadError.NamesOnly s.name) := by
  simp only [loadOne, Logged.outcome_bind]
  refine s.namesOnly_load.bind fun merged _ => FailsOnly.bind ?_ fun _ _ => failsOnly_ok _
  exact (failsOnly_uniteSource s.name loaded merged).mono fun _ h => h.namesOnly

/-! ## What is reported of each source -/

/-- What loading reports of each source behind what is loaded already: the error with which it fails,
or nothing when it is loaded.  It reports nothing more once it stops altogether. -/
def reportsFrom (options : LoadOptions) (loaded : Catalog) :
    List Source → List (Source × Option SourceError)
  | [] => []
  | s :: rest =>
    match (loadOne options loaded s).outcome with
    | .ok united => (s, none) :: reportsFrom options united rest
    | .error (.source e) => (s, some e) :: reportsFrom options loaded rest
    | .error (.other _) => []

/-- What loading reports of each source. -/
def loadReports (options : LoadOptions) (sources : List Source) :
    List (Source × Option SourceError) :=
  reportsFrom options .empty sources

/-- The sources of which no error is reported. -/
def survivors (reports : List (Source × Option SourceError)) : List Source :=
  (reports.filter (·.2.isNone)).map (·.1)

theorem source_eq_of_mem_reportsFrom {loaded : Catalog} {sources : List Source}
    {p : Source × Option SourceError} (hp : p ∈ reportsFrom options loaded sources)
    {e : SourceError} (he : p.2 = some e) : e.source = p.1.name := by
  induction sources generalizing loaded with
  | nil => cases hp
  | cons s rest ih =>
    rw [reportsFrom] at hp
    split at hp
    · rcases List.mem_cons.mp hp with rfl | hp
      · cases he
      · exact ih hp
    · next e' hstep =>
      rcases List.mem_cons.mp hp with rfl | hp
      · cases he
        exact namesOnly_loadOne loaded s _ hstep
      · exact ih hp
    · cases hp

/-- Where every source has a name of its own, no error is reported of those whose name is on none. -/
theorem survivors_eq_filter {reports : List (Source × Option SourceError)}
    (hown : ∀ p ∈ reports, ∀ e, p.2 = some e → e.source = p.1.name)
    (hnames : (reports.map (·.1.name)).Nodup) : survivors reports =
      (reports.map (·.1)).filter fun s => (reports.filterMap (·.2)).all (·.source != s.name) := by
  rw [survivors, List.filter_map]
  refine congrArg (List.map _) (List.filter_congr fun p hp => ?_)
  rw [Bool.eq_iff_iff, Option.isNone_iff_eq_none, Function.comp_apply, List.all_eq_true]
  simp only [List.mem_filterMap, bne_iff_ne]
  constructor
  · rintro hnone e ⟨q, hq, he⟩ heq
    rw [hown q hq e he] at heq
    rw [List.inj_on_of_nodup_map hnames hq hp heq, hnone] at he
    cases he
  · intro hall
    cases he : p.2 with
    | none => rfl
    | some e => exact absurd (hown p hp e he) (hall e ⟨p, hp, he⟩)

/-! ## One run -/

theorem loadOne_eq_ok_iff {loaded united : Catalog} {s : Source} :
    (loadOne options loaded s).outcome = .ok united ↔
      ∃ c, (s.load options).outcome = .ok c ∧ loaded.union c = .ok united := by
  simp only [loadOne, Logged.bind_eq_ok_iff, Logged.outcome_ofExcept, Logged.outcome_emit,
    Logged.outcome_pure]
  refine exists_congr fun c => and_congr_right fun _ => ?_
  constructor
  · rintro ⟨united', hunite, -, -, h⟩
    cases h
    rw [uniteSource] at hunite
    split at hunite
    · next hunion =>
      cases hunite
      exact hunion
    · cases hunite
    · cases hunite
  · intro hunion
    exact ⟨united, by rw [uniteSource, hunion], (), trivial, rfl⟩

/-- A source that is loaded puts its catalog to what is loaded. -/
theorem loadFrom_cons_of_ok {failFast : Bool} {result : LoadResult} {s : Source} {c : Catalog}
    (h : (loadOne options result.catalog s).outcome = .ok c) (rest : List Source) :
    (loadFrom options failFast result (s :: rest)).outcome =
      (loadFrom options failFast { result with catalog := c } rest).outcome := by
  rw [loadFrom]
  simp only [h, Logged.outcome_bind]
  rfl

/-- A source that fails leaves what is loaded as it was. -/
theorem loadFrom_cons_of_source {result : LoadResult} {s : Source} {e : SourceError}
    (h : (loadOne options result.catalog s).outcome = .error (.source e)) (rest : List Source) :
    (loadFrom options false result (s :: rest)).outcome =
      (loadFrom options false { result with failures := result.failures ++ [e] } rest).outcome := by
  rw [loadFrom]
  simp only [h, Logged.outcome_bind, Bool.false_eq_true, if_false]
  rfl

theorem loadFrom_cons_of_other {result : LoadResult} {s : Source} {f : Fault}
    (h : (loadOne options result.catalog s).outcome = .error (.other f)) (rest : List Source) :
    (loadFrom options false result (s :: rest)).outcome = .error (.other f) := by
  rw [loadFrom]
  simp only [h, Logged.outcome_bind]
  rfl

open Catalog in
/-- What loading comes to: every source is reported, the failures are those that are reported, and the
catalogs of the other sources are put to what is loaded already. -/
theorem loadFrom_outcome {sources : List Source} {result r : LoadResult}
    (h : (loadFrom options false result sources).outcome = .ok r) :
    (reportsFrom options result.catalog sources).map (·.1) = sources ∧
    r.failures =
      result.failures ++ (reportsFrom options result.catalog sources).filterMap (·.2) ∧
    ∀ before, IsUnion before result.catalog → ∃ catalogs,
      (survivors (reportsFrom options result.catalog sources)).map (fun s => (s.load options).outcome) =
        catalogs.map .ok ∧ IsUnion (catalogs ++ before) r.catalog := by
  induction sources generalizing result with
  | nil =>
    cases h
    exact ⟨rfl, (List.append_nil _).symm, fun before hbefore => ⟨[], rfl, hbefore⟩⟩
  | cons s rest ih =>
    cases hstep : (loadOne options result.catalog s).outcome with
    | ok united =>
      rw [loadFrom_cons_of_ok hstep] at h
      obtain ⟨hsources, hfailures, hunion⟩ := ih h
      rw [reportsFrom, hstep]
      refine ⟨congrArg (s :: ·) hsources, hfailures, fun before hbefore => ?_⟩
      obtain ⟨c, hload, hunite⟩ := loadOne_eq_ok_iff.mp hstep
      have hkeyed := (Source.obtained_of_load hload).isPlaced.isKeyed
      obtain ⟨catalogs, hcatalogs, hall⟩ := hunion (c :: before) (hbefore.of_union hkeyed hunite)
      refine ⟨c :: catalogs, ?_, hall.perm List.perm_middle⟩
      show (s.load options).outcome :: (survivors (reportsFrom options united rest)).map _ = _
      rw [hload, hcatalogs]
      rfl
    | error error =>
      cases error with
      | other f =>
        rw [loadFrom_cons_of_other hstep] at h
        cases h
      | source e =>
        rw [loadFrom_cons_of_source hstep] at h
        obtain ⟨hsources, hfailures, hunion⟩ := ih h
        rw [reportsFrom, hstep]
        refine ⟨congrArg (s :: ·) hsources, ?_, hunion⟩
        rw [hfailures, List.append_assoc]
        rfl

open Catalog in
/-- Sources whose catalogs have a union with what is loaded already load to that union. -/
theorem loadFrom_of_isUnion {failFast : Bool} {sources : List Source} {result : LoadResult}
    {before catalogs : List Catalog} {c : Catalog}
    (hload : sources.map (fun s => (s.load options).outcome) = catalogs.map .ok)
    (hbefore : IsUnion before result.catalog) (hall : IsUnion (catalogs ++ before) c) :
    (loadFrom options failFast result sources).outcome = .ok ⟨c, result.failures⟩ := by
  induction sources generalizing catalogs before result with
  | nil =>
    cases catalogs with
    | nil =>
      rw [hall.eq hbefore]
      rfl
    | cons d catalogs => cases hload
  | cons s rest ih =>
    cases catalogs with
    | nil => cases hload
    | cons d catalogs =>
      obtain ⟨hs, hrest⟩ := List.cons.inj hload
      have hkeyed := (Source.obtained_of_load hs).isPlaced.isKeyed
      have hsub : (d :: before).Sublist (d :: catalogs ++ before) :=
        (List.sublist_append_right catalogs before).cons_cons d
      obtain ⟨united, hunion, hunited⟩ := hbefore.exists_union hkeyed (hall.apart.sublist hsub)
      rw [loadFrom_cons_of_ok (loadOne_eq_ok_iff.mpr ⟨d, hs, hunion⟩)]
      exact ih hrest hunited (hall.perm List.perm_middle.symm)

/-! ## Survivors -/

/-- A source that fails does not disturb the others, and their order does not matter.  Every source is
reported by an error of its own or by none, and the failures are what is reported; where the names of the
sources differ, the survivors are those whose name is on no failure.  In any order the survivors load
without a failure to the same catalog.  It is the union of their catalogs, which have no keys in
common. -/
theorem loadSources_survivors {sources : List Source} {r : LoadResult}
    (h : (loadSources options false sources).outcome = .ok r) :
    ((loadReports options sources).map (·.1) = sources ∧
      r.failures = (loadReports options sources).filterMap (·.2) ∧
      (∀ p ∈ loadReports options sources, ∀ e, p.2 = some e → e.source = p.1.name) ∧
      ((sources.map (·.name)).Nodup → survivors (loadReports options sources) =
        sources.filter fun s => r.failures.all (·.source != s.name))) ∧
    (∀ order : List Source, order.Perm (survivors (loadReports options sources)) →
      (loadSources options false order).outcome = .ok ⟨r.catalog, []⟩) ∧
    ∃ catalogs, (survivors (loadReports options sources)).map (fun s => (s.load options).outcome) =
      catalogs.map .ok ∧ Catalog.IsUnion catalogs r.catalog := by
  obtain ⟨hsources, hfailures, hunion⟩ := loadFrom_outcome h
  obtain ⟨catalogs, hcatalogs, hall⟩ := hunion [] Catalog.isUnion_nil
  rw [List.append_nil] at hall
  have hown : ∀ p ∈ loadReports options sources, ∀ e, p.2 = some e → e.source = p.1.name :=
    fun p hp e he => source_eq_of_mem_reportsFrom hp he
  refine ⟨⟨hsources, hfailures, hown, fun hnames => ?_⟩, fun order horder => ?_,
    catalogs, hcatalogs, hall⟩
  · have hnames' : ((loadReports options sources).map (·.1.name)).Nodup := by
      rw [← hsources, List.map_map] at hnames
      exact hnames
    rw [survivors_eq_filter hown hnames', hfailures]
    exact congrArg (List.filter _) hsources
  · obtain ⟨ordered, hordered, hperm⟩ := exists_perm_of_map_eq hcatalogs horder
    refine loadFrom_of_isUnion hordered Catalog.isUnion_nil ?_
    rw [List.append_nil]
    exact hall.perm hperm.symm

/-- A source with a type, one with that type again, one with a method that nothing contains, and one in
which another type is documented. -/
def quarrelling : List Source := [
  { name := "first", structural := [{ kind := "type", identifier := "A" },
    { kind := "method", identifier := "A.f(int)" }] },
  { name := "twin", structural := [{ kind := "type", identifier := "A" }] },
  { name := "loose", structural := [{ kind := "method", identifier := "f" }] },
  { name := "last", documentation := [{ identifier := "F:B.g" }] }]

theorem loadSources_survivors_quarrelling : ∃ r, (loadSources {} false quarrelling).outcome = .ok r ∧
    ((loadReports {} quarrelling).map (·.1) = quarrelling ∧
      r.failures = (loadReports {} quarrelling).filterMap (·.2) ∧
      (∀ p ∈ loadReports {} quarrelling, ∀ e, p.2 = some e → e.source = p.1.name) ∧
      ((quarrelling.map (·.name)).Nodup → survivors (loadReports {} quarrelling) =
        quarrelling.filter fun s => r.failures.all (·.source != s.name))) ∧
    (∀ order : List Source, order.Perm (survivors (loadReports {} quarrelling)) →
      (loadSources {} false order).outcome = .ok ⟨r.catalog, []⟩) ∧
    ∃ catalogs, (survivors (loadReports {} quarrelling)).map (fun s => (s.load {}).outcome) =
      catalogs.map .ok ∧ Catalog.IsUnion catalogs r.catalog := by
  have hnames : ∀ s ∈ quarrelling, s.HasTextNames {} := by
    have hplain : ∀ s ∈ quarrelling, ∀ r ∈ s.structural, r.parameters = [] := by decide
    intro s hs r hr
    exact StructuralRecord.hasTextNames_of_eq_nil (hplain s hs r (List.mem_of_mem_filter hr))
  obtain ⟨catalog, reports, hresult, -⟩ :=
    @loadFrom_reports {} rfl quarrelling hnames ⟨.empty, []⟩
  exact ⟨_, hresult, loadSources_survivors hresult⟩

end ApiDocs
