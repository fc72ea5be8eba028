import ApiDocs.Proofs.Settings.Merge

/-!
# Settings over settings

What stands at a path of keys once one map has gone over another one depends on what the two have along
the path.  As long as both have maps, they are merged.  Where they part, the update has its way, and
where it says nothing, the base is kept.  Only lists of prefixes are put together.

* `Datum.Stands`, `Datum.stands_mergeEntries`: what a merged map holds at each path, and why;
* `Datum.exists_mergeEntries`: merging succeeds when all prefixes are texts;
* `Datum.exists_mergeOver_isOverlay`: every leaf of the result is the right one.
-/

namespace ApiDocs.Datum

/-! ## Along a path -/

/-- On the way to the end of a path the update holds nothing, unless both hold maps there. -/
def IsOpen (base update : Datum) (path : List String) : Prop :=
  ∀ front, front <+: path → front ≠ path → ∀ v, update.at? front = some v →
    (∃ entries, base.at? front = some (map entries)) ∧ ∃ entries, v = map entries

/-- Both hold a list under the key of the prefixes. -/
def Collects (base update : Datum) (path : List String) : Prop :=
  path.getLast? = some prefixesKey ∧ (∃ known, base.at? path = some (list known)) ∧
    ∃ added, update.at? path = some (list added)

/-- What the result holds at a path, and why. -/
inductive Stands (base update result : Datum) (path : List String) : Prop
  /-- The update says nothing. -/
  | kept (hnone : update.at? path = none) (hopen : IsOpen base update path)
    (h : result.at? path = base.at? path)
  /-- Both hold maps. -/
  | merged {added entries : List (Datum × Datum)} (hadded : update.at? path = some (map added))
    (h : result.at? path = some (map entries))
  /-- Both hold lists of prefixes. -/
  | collected {known added items : List Datum} (hlast : path.getLast? = some prefixesKey)
    (hknown : base.at? path = some (list known))
    (hadded : update.at? path = some (list added)) (hitems : collect known added = .ok items)
    (h : result.at? path = some (list items))
  /-- The two have parted here or on the way. -/
  | taken (hclosed : ¬ IsOpen base update path ∨ (update.at? path).isSome)
    (hlists : ¬ Collects base update path) (h : result.at? path = update.at? path)

section
variable {base update : List (Datum × Datum)} {key : String} {path : List String}

theorem isOpen_cons_iff {base' update' : Datum} (hbase : find? key base = some base')
    (hupdate : find? key update = some update') :
    IsOpen (map base) (map update) (key :: path) ↔ IsOpen base' update' path := by
  constructor
  · intro h front hfront hne v hv
    rw [← at?_cons_of_find? hupdate] at hv
    rw [← at?_cons_of_find? hbase]
    refine h (key :: front) (List.cons_prefix_cons.mpr ⟨rfl, hfront⟩) (fun heq => ?_) v hv
    exact hne (List.cons.inj heq).2
  · intro h front hfront hne v hv
    cases front with
    | nil =>
      rw [at?_nil, Option.some.injEq] at hv
      exact ⟨⟨base, at?_nil _⟩, update, hv.symm⟩
    | cons key' front =>
      obtain ⟨rfl, hfront'⟩ := List.cons_prefix_cons.mp hfront
      rw [at?_cons_of_find? hupdate] at hv
      rw [at?_cons_of_find? hbase]
      exact h front hfront' (fun heq => hne (heq ▸ rfl)) v hv

/-- A path on which the update holds nothing at the first key is open. -/
theorem isOpen_of_find?_eq_none (base : List (Datum × Datum)) (hnone : find? key update = none) :
    IsOpen (map base) (map update) (key :: path) := by
  intro front hfront _ v hv
  cases front with
  | nil =>
    rw [at?_nil, Option.some.injEq] at hv
    exact ⟨⟨base, at?_nil _⟩, update, hv.symm⟩
  | cons key' front =>
    obtain ⟨rfl, -⟩ := List.cons_prefix_cons.mp hfront
    rw [at?_cons_of_find?_eq_none hnone] at hv
    cases hv

/-- Where the two do not both hold maps, the path ends or is not open any more. -/
theorem not_isOpen_of_find? {new : Datum} (hnew : find? key update = some new)
    (hmaps : ¬ ((∃ b, find? key base = some (map b)) ∧ ∃ u, new = map u)) :
    ¬ IsOpen (map base) (map update) (key :: path) ∨ ((map update).at? (key :: path)).isSome := by
  cases path with
  | nil =>
    rw [at?_cons_of_find? hnew, at?_nil]
    exact .inr rfl
  | cons key' path =>
    refine .inl fun hopen => hmaps ?_
    have hfront : [key] <+: key :: key' :: path := List.cons_prefix_cons.mpr ⟨rfl, List.nil_prefix⟩
    have hhere : (map update).at? [key] = some new := by rw [at?_cons_of_find? hnew, at?_nil]
    obtain ⟨⟨b, hb⟩, hu⟩ := hopen [key] hfront nofun new hhere
    obtain ⟨_, d, heq, hd, hat⟩ := exists_of_at?_cons hb
    cases heq
    rw [at?_nil, Option.some.injEq] at hat
    exact ⟨⟨b, hat ▸ hd⟩, hu⟩

/-- Lists of prefixes under a map are lists of prefixes of that map. -/
theorem Collects.of_cons {base' : List (Datum × Datum)} {update' : Datum}
    (hbase : find? key base = some (map base')) (hupdate : find? key update = some update')
    (h : Collects (map base) (map update) (key :: path)) : Collects (map base') update' path := by
  obtain ⟨hlast, hknown, hadded⟩ := h
  rw [at?_cons_of_find? hbase] at hknown
  rw [at?_cons_of_find? hupdate] at hadded
  cases path with
  | nil =>
    obtain ⟨known, hknown⟩ := hknown
    cases hknown
  | cons key' path =>
    rw [List.getLast?_cons_cons] at hlast
    exact ⟨hlast, hknown, hadded⟩

/-- Lists of prefixes behind a key meet at the key or behind maps that meet there. -/
theorem not_collects_of_find? {new : Datum} (hnew : find? key update = some new)
    (hmaps : ¬ ((∃ b, find? key base = some (map b)) ∧ ∃ u, new = map u))
    (hlists : ¬ (key = prefixesKey ∧ (∃ known, find? key base = some (list known)) ∧
      ∃ added, new = list added)) :
    ¬ Collects (map base) (map update) (key :: path) := by
  rintro ⟨hlast, ⟨known, hknown⟩, added, hadded⟩
  obtain ⟨_, b, heq, hold, hknown⟩ := exists_of_at?_cons hknown
  cases heq
  rw [at?_cons_of_find? hnew] at hadded
  cases path with
  | nil =>
    cases hknown
    cases hadded
    exact hlists ⟨Option.some.inj hlast, ⟨known, hold⟩, added, rfl⟩
  | cons key' path =>
    obtain ⟨b', _, rfl, -, -⟩ := exists_of_at?_cons hknown
    obtain ⟨u', _, rfl, -, -⟩ := exists_of_at?_cons hadded
    exact hmaps ⟨⟨b', hold⟩, u', rfl⟩

/-- What stands in merged maps stands in the maps in which they are merged. -/
theorem Stands.cons {base' update' result' result : List (Datum × Datum)}
    (hbase : find? key base = some (map base')) (hupdate : find? key update = some (map update'))
    (hresult : find? key result = some (map result'))
    (h : Stands (map base') (map update') (map result') path) :
    Stands (map base) (map update) (map result) (key :: path) := by
  have hb := at?_cons_of_find? hbase path
  have hu := at?_cons_of_find? hupdate path
  have hr := at?_cons_of_find? hresult path
  cases h with
  | kept hnone hopen h =>
    exact .kept (hu.trans hnone) ((isOpen_cons_iff hbase hupdate).mpr hopen)
      (hr.trans (h.trans hb.symm))
  | merged hadded h => exact .merged (hu.trans hadded) (hr.trans h)
  | collected hlast hknown hadded hitems h =>
    refine .collected ?_ (hb.trans hknown) (hu.trans hadded) hitems (hr.trans h)
    cases path with
    | nil => cases hlast
    | cons key' path => exact List.getLast?_cons_cons.trans hlast
  | taken hclosed hlists h =>
    refine .taken ?_ (fun hc => hlists (hc.of_cons hbase hupdate)) (hr.trans (h.trans hu.symm))
    rwa [isOpen_cons_iff hbase hupdate, hu]

/-- What a merged map holds at each path. -/
theorem stands_mergeEntries {result : List (Datum × Datum)} (hjson : (map update).IsJson)
    (h : mergeEntries base update = .ok result) (path : List String) :
    Stands (map base) (map update) (map result) path := by
  -- One key of the path is one step, and only where maps are merged does the rest of the path matter.
  induction path generalizing base update result with
  | nil => exact .merged (at?_nil _) (at?_nil _)
  | cons key path ih =>
    cases hjson with
    | map hkeys hvalues =>
      rcases find?_mergeEntries hkeys h key with ⟨hnone, hsame⟩ | ⟨new, value, hnew, hvalue, hmerge⟩
      · refine .kept (at?_cons_of_find?_eq_none hnone path) (isOpen_of_find?_eq_none base hnone) ?_
        rw [at?, at?, hsame]
      · have hjson : new.IsJson := hvalues _ (mem_of_find? hnew)
        have hu := at?_cons_of_find? hnew path
        have hr := at?_cons_of_find? hvalue path
        generalize hold : find? key base = old at hmerge
        cases mergeValue_cases hjson hmerge with
        | merged hentries => exact .cons hold hnew hvalue (ih hjson hentries)
        | @collected known added items hkey hitems =>
          cases path with
          | nil => exact .collected (congrArg some hkey) (at?_cons_of_find? hold []) hu hitems hr
          | cons key' path =>
            -- There is nothing behind a list.
            refine .taken (not_isOpen_of_find? hnew ?_) ?_ (hr.trans hu.symm)
            · rintro ⟨-, u, heq⟩
              cases heq
            · rintro ⟨-, -, added, hadded⟩
              rw [hu] at hadded
              cases hadded
        | taken hmaps hlists =>
          subst hold
          exact .taken (not_isOpen_of_find? hnew hmaps) (not_collects_of_find? hnew hmaps hlists)
            (hr.trans hu.symm)

end

/-! ## Merging succeeds -/

/-- Every list under the key of the prefixes, at the end of whatever path, holds texts only. -/
def HasTextPrefixes (d : Datum) : Prop :=
  ∀ path items, path.getLast? = some prefixesKey → d.at? path = some (list items) →
    ∀ x ∈ items, ∃ s, x = text s

section
variable {base update : List (Datum × Datum)} {key : String}

theorem HasTextPrefixes.of_find? (h : (map update).HasTextPrefixes) {items : List Datum}
    (hfind : find? prefixesKey update = some (list items)) : ∀ x ∈ items, ∃ s, x = text s :=
  h [prefixesKey] items rfl (at?_cons_of_find? hfind [])

theorem HasTextPrefixes.map_of_find? (h : (map update).HasTextPrefixes)
    {entries : List (Datum × Datum)} (hfind : find? key update = some (map entries)) :
    (map entries).HasTextPrefixes := by
  intro path items hlast hat
  cases path with
  | nil => cases hlast
  | cons key' path =>
    rw [← at?_cons_of_find? hfind] at hat
    exact h (key :: key' :: path) items (List.getLast?_cons_cons.trans hlast) hat

/-- Prefixes that are texts can be collected, and nothing else can go wrong. -/
theorem exists_mergeEntries {update : Datum} (hjson : update.IsJson) : ∀ {base entries},
    update = map entries → HasTextPrefixes (map base) → update.HasTextPrefixes →
      ∃ result, mergeEntries base entries = .ok result := by
  -- The base gives no measure: it may hold anything where the update holds a map.
  induction hjson with
  | map hkeys hvalues ih =>
    rintro base _ ⟨⟩ hbase hupdate
    refine exists_mergeEntries_of_values hkeys fun key new hnew => ?_
    cases hvalues _ (mem_of_find? hnew) with
    | map =>
      unfold mergeValue
      split
      · next hold =>
        obtain ⟨result, hresult⟩ := ih _ (mem_of_find? hnew) rfl (hbase.map_of_find? hold)
          (hupdate.map_of_find? hnew)
        exact ⟨_, congrArg (map <$> ·) hresult⟩
      · exact ⟨_, rfl⟩
    | list =>
      unfold mergeValue
      split
      · next hold =>
        split
        · next hkey =>
          obtain rfl := text.inj (same_text_iff.mp hkey)
          obtain ⟨items, hitems, -⟩ := exists_collect (hbase.of_find? hold) (hupdate.of_find? hnew)
          exact ⟨_, congrArg (list <$> ·) hitems⟩
        · exact ⟨_, rfl⟩
      · exact ⟨_, rfl⟩
    | _ => exact ⟨_, rfl⟩
  | _ =>
    intro _ _ heq
    cases heq

end

/-! ## Leaves -/

/-- What is no map. -/
def IsLeaf (d : Datum) : Prop := ∀ entries, d ≠ map entries

/-- What comes of a base that an update goes over, by the paths at which something stands. -/
structure IsOverlay (base update result : Datum) : Prop where
  /-- The leaves of the update stand in the result, but for lists of prefixes that meet. -/
  taken : ∀ path v, update.at? path = some v → v.IsLeaf → ¬ Collects base update path →
    result.at? path = some v
  /-- Lists of prefixes that meet are put together. -/
  collected : ∀ path known added, path.getLast? = some prefixesKey →
    base.at? path = some (list known) → update.at? path = some (list added) →
    ∃ items, result.at? path = some (list items) ∧ IsAscendingUnion items known added
  /-- What the update says nothing about is as in the base. -/
  kept : ∀ path, update.at? path = none → IsOpen base update path →
    result.at? path = base.at? path
  /-- There are no other leaves. -/
  leaf : ∀ path v, result.at? path = some v → v.IsLeaf →
    (∃ u, update.at? path = some u ∧ u.IsLeaf) ∨
    (update.at? path = none ∧ IsOpen base update path ∧ base.at? path = some v)
  /-- The maps of the update are maps in the result, even if they are empty. -/
  map : ∀ path added, update.at? path = some (.map added) →
    ∃ entries, result.at? path = some (.map entries)

theorem isOverlay_of_stands {base update result : Datum} (hbase : base.HasTextPrefixes)
    (hupdate : update.HasTextPrefixes) (hstands : ∀ path, Stands base update result path) :
    IsOverlay base update result where
  taken path v hv hleaf hlists := by
    cases hstands path with
    | kept hnone => rw [hnone] at hv; cases hv
    | merged hadded => rw [hadded] at hv; cases hv; exact absurd rfl (hleaf _)
    | collected hlast hknown hadded => exact absurd ⟨hlast, ⟨_, hknown⟩, _, hadded⟩ hlists
    | taken _ _ h => rw [h, hv]
  collected path known added hlast hknown hadded := by
    cases hstands path with
    | kept hnone => rw [hnone] at hadded; cases hadded
    | merged hadded' => rw [hadded'] at hadded; cases hadded
    | collected _ hknown' hadded' hitems h =>
      rw [hknown'] at hknown
      rw [hadded'] at hadded
      cases hknown
      cases hadded
      obtain ⟨items, hcollect, hunion⟩ :=
        exists_collect (hbase path _ hlast hknown') (hupdate path _ hlast hadded')
      rw [hitems] at hcollect
      cases hcollect
      exact ⟨_, h, hunion⟩
    | taken _ hlists => exact absurd ⟨hlast, ⟨_, hknown⟩, _, hadded⟩ hlists
  kept path hnone hopen := by
    cases hstands path with
    | kept _ _ h => exact h
    | merged hadded => rw [hnone] at hadded; cases hadded
    | collected _ _ hadded => rw [hnone] at hadded; cases hadded
    | taken hclosed =>
      rcases hclosed with hclosed | hsome
      · exact absurd hopen hclosed
      · rw [hnone] at hsome; cases hsome
  leaf path v hv hleaf := by
    cases hstands path with
    | kept hnone hopen h => exact .inr ⟨hnone, hopen, h ▸ hv⟩
    | merged _ h => rw [h] at hv; cases hv; exact absurd rfl (hleaf _)
    | collected _ _ hadded => exact .inl ⟨_, hadded, nofun⟩
    | taken _ _ h => exact .inl ⟨v, h ▸ hv, hleaf⟩
  map path added hadded := by
    cases hstands path with
    | kept hnone => rw [hnone] at hadded; cases hadded
    | merged _ h => exact ⟨_, h⟩
    | collected _ _ hadded' => rw [hadded'] at hadded; cases hadded
    | taken _ _ h => exact ⟨added, h.trans hadded⟩

/-- Merging succeeds when all prefixes are texts.  Every leaf of the update stands in the result at its
path, where prefixes are collected with those of the base; what the update leaves open is as in the
base; and there is nothing else.  The base may hold any data besides. -/
theorem exists_mergeOver_isOverlay {base update : List (Datum × Datum)} (hjson : (map update).IsJson)
    (hbase : (map base).HasTextPrefixes) (hupdate : (map update).HasTextPrefixes) :
    ∃ result, (map update).mergeOver (map base) = .ok result ∧
      IsOverlay (map base) (map update) result := by
  obtain ⟨entries, hentries⟩ := exists_mergeEntries hjson rfl hbase hupdate
  refine ⟨map entries, ?_, isOverlay_of_stands hbase hupdate (stands_mergeEntries hjson hentries)⟩
  rw [mergeOver, hentries]
  rfl

/-! ## Settings of a user -/

theorem IsLeaf.hasTextPrefixes {d : Datum} (h : d.IsLeaf) : d.HasTextPrefixes := by
  intro path items hlast hat
  cases path with
  | nil => cases hlast
  | cons key path =>
    obtain ⟨entries, _, hd, -⟩ := exists_of_at?_cons hat
    exact absurd hd (h entries)

/-- A map has texts for prefixes when its own prefixes are texts and its values have texts for theirs. -/
theorem hasTextPrefixes_map {entries : List (Datum × Datum)}
    (hown : ∀ items, (text prefixesKey, list items) ∈ entries → ∀ x ∈ items, ∃ s, x = text s)
    (hvalues : ∀ e ∈ entries, e.2.HasTextPrefixes) : (map entries).HasTextPrefixes := by
  intro path items hlast hat
  cases path with
  | nil => cases hlast
  | cons key path =>
    obtain ⟨_, d, heq, hfind, hd⟩ := exists_of_at?_cons hat
    cases heq
    have hmem := mem_of_find? hfind
    cases path with
    | nil =>
      obtain rfl := Option.some.inj hlast
      rw [at?_nil, Option.some.injEq] at hd
      exact hown items (hd ▸ hmem)
    | cons key' path =>
      rw [List.getLast?_cons_cons] at hlast
      exact hvalues _ hmem (key' :: path) items hlast hd

/-- Settings with prefixes at two depths. -/
def layeredSettings : List (Datum × Datum) := [
  (text prefixesKey, list [text "<"]),
  (text "log", map [(text "level", text "INFO"), (text prefixesKey, list [text "$"])]),
  (text "extra", list [int 1])]

/-- An update that meets the settings in prefixes, and otherwise has maps where they have none, or the
other way about. -/
def layeredUpdate : List (Datum × Datum) := [
  (text "log", map [(text prefixesKey, list [text "__", text "$"]), (text "file", null)]),
  (text "extra", map [(text prefixesKey, list [text "b", text "a"])]),
  (text prefixesKey, text "<")]

theorem exists_mergeOver_isOverlay_layered : (map layeredUpdate).IsJson ∧
    (map layeredSettings).HasTextPrefixes ∧ (map layeredUpdate).HasTextPrefixes ∧
    ∃ result, (map layeredUpdate).mergeOver (map layeredSettings) = .ok result ∧
      IsOverlay (map layeredSettings) (map layeredUpdate) result := by
  have hjson : (map layeredUpdate).IsJson := by
    refine .map ⟨["log", "extra", prefixesKey], by decide, rfl⟩ ?_
    simp only [layeredUpdate, List.forall_mem_cons]
    refine ⟨.map ⟨[prefixesKey, "file"], by decide, rfl⟩ ?_, .map ⟨[prefixesKey], by decide, rfl⟩ ?_,
      .text _, nofun⟩
    · simp only [List.forall_mem_cons]
      exact ⟨.list (by simp only [List.forall_mem_cons]; exact ⟨.text _, .text _, nofun⟩), .null, nofun⟩
    · simp only [List.forall_mem_cons]
      exact ⟨.list (by simp only [List.forall_mem_cons]; exact ⟨.text _, .text _, nofun⟩), nofun⟩
  have hsettings : (map layeredSettings).HasTextPrefixes := by
    refine hasTextPrefixes_map (by simp [layeredSettings, prefixesKey]) ?_
    simp only [layeredSettings, List.forall_mem_cons]
    refine ⟨IsLeaf.hasTextPrefixes nofun, ?_, IsLeaf.hasTextPrefixes nofun, nofun⟩
    refine hasTextPrefixes_map (by simp [prefixesKey]) ?_
    simp only [List.forall_mem_cons]
    exact ⟨IsLeaf.hasTextPrefixes nofun, IsLeaf.hasTextPrefixes nofun, nofun⟩
  have hupdate : (map layeredUpdate).HasTextPrefixes := by
    refine hasTextPrefixes_map (by simp [layeredUpdate, prefixesKey]) ?_
    simp only [layeredUpdate, List.forall_mem_cons]
    refine ⟨?_, ?_, IsLeaf.hasTextPrefixes nofun, nofun⟩
    · refine hasTextPrefixes_map (by simp [prefixesKey]) ?_
      simp only [List.forall_mem_cons]
      exact ⟨IsLeaf.hasTextPrefixes nofun, IsLeaf.hasTextPrefixes nofun, nofun⟩
    · refine hasTextPrefixes_map (by simp [prefixesKey]) ?_
      simp only [List.forall_mem_cons]
      exact ⟨IsLeaf.hasTextPrefixes nofun, nofun⟩
  exact ⟨hjson, hsettings, hupdate, exists_mergeOver_isOverlay hjson hsettings hupdate⟩

end ApiDocs.Datum
