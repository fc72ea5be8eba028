import ApiDocs.Proofs.Grammar.Derivation

/-!
# The generic names that a path declares

`PathSegment.toSegments` names the generic parameters of a path by one count and `Scope.ofPath`
collects the same names by their marks.

* `PathSegment.flatMap_typeParameters_toSegments`: over the levels, the names are `T1`, `T2`, …;
* `IdentifierTree.scopeIn_ofPath`: the names behind a mark are those of the levels with that mark;
* `IdentifierTree.readsAs_toIdentifier`: a path with parameters makes up what is read off its tree;
* `IdentifierTree.ReadsAs.unique`: only one identifier is read off a tree.
-/

namespace ApiDocs

/-! ## Levels -/

namespace PathSegment

/-- The names that the generic parameters behind `count` others are given. -/
def numbered (count arity : Nat) : List String :=
  (List.range arity).map fun i => numberedName (count + i + 1)

theorem declared_eq_numbered (count : Nat) (s : PathSegment) :
    s.declared count = numbered count s.arity := rfl

@[simp] theorem length_numbered (count arity : Nat) : (numbered count arity).length = arity := by
  simp [numbered]

theorem getElem?_numbered {count arity i : Nat} (h : i < arity) :
    (numbered count arity)[i]? = some (numberedName (count + i + 1)) := by
  rw [numbered, List.getElem?_map, List.getElem?_range h, Option.map_some]

theorem numbered_append (count n m : Nat) :
    numbered count n ++ numbered (count + n) m = numbered count (n + m) := by
  simp only [numbered, List.range_add, List.map_append, List.map_map]
  congr 1
  apply List.map_congr_left
  intro i _
  simp only [Function.comp_apply, Nat.add_assoc]

@[simp] theorem length_declared (count : Nat) (s : PathSegment) :
    (s.declared count).length = s.arity := length_numbered _ _

theorem totalArity_append (path more : List PathSegment) :
    totalArity (path ++ more) = totalArity path + totalArity more := by
  induction path with
  | nil => exact (Nat.zero_add _).symm
  | cons s path ih =>
    show s.arity + totalArity (path ++ more) = s.arity + totalArity path + totalArity more
    rw [ih, Nat.add_assoc]

theorem toSegments_append (count : Nat) (path more : List PathSegment) :
    toSegments count (path ++ more) =
      toSegments count path ++ toSegments (count + totalArity path) more := by
  induction path generalizing count with
  | nil => rfl
  | cons s path ih =>
    show s.toSegment count :: toSegments (count + s.arity) (path ++ more) = _
    rw [ih, Nat.add_assoc]
    rfl

theorem map_toSegments {β : Type} (f : Segment → β) (g : PathSegment → β)
    (hfg : ∀ count s, f (s.toSegment count) = g s) (count : Nat) (path : List PathSegment) :
    (toSegments count path).map f = path.map g := by
  induction path generalizing count with
  | nil => rfl
  | cons s path ih => rw [toSegments, List.map_cons, List.map_cons, hfg, ih]

/-- The names are numbered over all levels by one count. -/
theorem flatMap_typeParameters_toSegments (count : Nat) (path : List PathSegment) :
    (toSegments count path).flatMap (·.typeParameters) = numbered count (totalArity path) := by
  induction path generalizing count with
  | nil => rfl
  | cons s path ih =>
    rw [toSegments, List.flatMap_cons, ih]
    exact numbered_append count s.arity (totalArity path)

end PathSegment

/-! ## The path of an identifier -/

open PathSegment

theorem Identifier.asClassPath_ofPath (isMethod : Bool) (outer : List PathSegment)
    (last : PathSegment) (ps : List Parameter) :
    (Identifier.ofPath isMethod outer last ps).asClassPath = toSegments 0 outer ++
      [⟨last.name.text, last.declared (totalArity outer),
        if isMethod then last.name.flags ||| .methodBit else last.name.flags⟩] := rfl

theorem Identifier.genericNames_ofPath (isMethod : Bool) (outer : List PathSegment)
    (last : PathSegment) (ps : List Parameter) :
    (Identifier.ofPath isMethod outer last ps).genericNames =
      numbered 0 (totalArity (outer ++ [last])) := by
  have happend := numbered_append 0 (totalArity outer) last.arity
  rw [Nat.zero_add] at happend
  show (toSegments 0 outer).flatMap (·.typeParameters) ++ last.declared (totalArity outer) = _
  rw [flatMap_typeParameters_toSegments, totalArity_append]
  exact happend

/-! ## Names behind a mark -/

theorem SegmentTree.arity_converted (s : SegmentTree) : s.converted.arity = s.arity := by
  show ((s.generics.map fun g => (g.1, g.2.value)).map (·.2)).getD 0 = _
  rw [Option.map_map]
  rfl

theorem SegmentTree.mark_converted (s : SegmentTree) :
    s.converted.generics.map (·.1) = s.generics.map (·.1) := by
  show (s.generics.map fun g => (g.1, g.2.value)).map (·.1) = _
  rw [Option.map_map]
  rfl

theorem totalArity_converted (path : List SegmentTree) :
    totalArity (path.map (·.converted)) = SegmentTree.totalArity path := by
  induction path with
  | nil => rfl
  | cons s path ih =>
    show s.converted.arity + totalArity (path.map (·.converted)) = _
    rw [ih, s.arity_converted]
    rfl

theorem Scope.length_declaredWith (mark : Mark) (count : Nat) (path : List SegmentTree) :
    (Scope.declaredWith mark count (path.map (·.converted))).length = declaredCount mark path := by
  induction path generalizing count with
  | nil => rfl
  | cons s path ih =>
    rw [List.map_cons, Scope.declaredWith, List.length_append, ih, s.mark_converted]
    by_cases h : s.generics.map (·.1) = some mark
    · rw [if_pos h, length_declared, s.arity_converted, declaredCount, declaredCount,
        List.filter_cons_of_pos (by simpa using h)]
      rfl
    · rw [if_neg h, List.length_nil, Nat.zero_add, declaredCount, declaredCount,
        List.filter_cons_of_neg (by simpa using h)]

/-- As many names are collected behind a mark as the levels with it declare. -/
theorem Scope.length_names_ofPath (mark : Mark) (path : List SegmentTree) :
    ((Scope.ofPath (path.map (·.converted))).names mark).length = declaredCount mark path := by
  cases mark <;> exact Scope.length_declaredWith _ 0 path

theorem Scope.declaredWith_eq_flatMap (mark : Mark) (count : Nat) (path : List SegmentTree)
    (levels : List Segment) (h : levels.map (·.typeParameters) =
      (toSegments count (path.map (·.converted))).map (·.typeParameters)) :
    ((path.zip levels).flatMap fun s =>
      if s.1.generics.map (·.1) = some mark then s.2.typeParameters else []) =
        Scope.declaredWith mark count (path.map (·.converted)) := by
  induction path generalizing count levels with
  | nil => rfl
  | cons s path ih =>
    cases levels with
    | nil => cases h
    | cons level levels =>
      obtain ⟨hlevel, hlevels⟩ := List.cons.inj h
      have hlevel : level.typeParameters = s.converted.declared count := hlevel
      rw [List.zip_cons_cons, List.flatMap_cons, ih _ levels hlevels, hlevel, List.map_cons,
        Scope.declaredWith, s.mark_converted]

theorem PathSegment.declared_of_none {s : PathSegment} (h : s.generics = none) (count : Nat) :
    s.declared count = [] := by
  rw [declared_eq_numbered, arity, h]
  rfl

theorem Scope.declaredWith_append (mark : Mark) (count : Nat) (path more : List PathSegment) :
    Scope.declaredWith mark count (path ++ more) = Scope.declaredWith mark count path ++
      Scope.declaredWith mark (count + totalArity path) more := by
  induction path generalizing count with
  | nil => rfl
  | cons s path ih =>
    rw [List.cons_append, Scope.declaredWith, ih, Scope.declaredWith, List.append_assoc,
      Nat.add_assoc]
    rfl

/-- A mark that all levels have collects all names. -/
theorem Scope.declaredWith_of_forall {mark : Mark} {path : List PathSegment}
    (h : ∀ s ∈ path, ∀ g ∈ s.generics, g.1 = mark) (count : Nat) :
    Scope.declaredWith mark count path = numbered count (totalArity path) := by
  induction path generalizing count with
  | nil => rfl
  | cons s path ih =>
    rw [List.forall_mem_cons] at h
    have hs : (if s.generics.map (·.1) = some mark then s.declared count else []) =
        s.declared count := by
      cases hg : s.generics with
      | none => rw [declared_of_none hg, ite_self]
      | some g => rw [Option.map_some, h.1 g hg, if_pos rfl]
    rw [Scope.declaredWith, hs, ih h.2]
    exact numbered_append count s.arity (totalArity path)

/-- A mark that no level has collects nothing. -/
theorem Scope.declaredWith_of_forall_ne {mark : Mark} {path : List PathSegment}
    (h : ∀ s ∈ path, ∀ g ∈ s.generics, g.1 ≠ mark) (count : Nat) :
    Scope.declaredWith mark count path = [] := by
  induction path generalizing count with
  | nil => rfl
  | cons s path ih =>
    rw [List.forall_mem_cons] at h
    have hs : ¬ s.generics.map (·.1) = some mark := by
      intro hmark
      obtain ⟨g, hg, hgmark⟩ := Option.map_eq_some_iff.mp hmark
      exact h.1 g hg hgmark
    rw [Scope.declaredWith, if_neg hs, ih h.2, List.append_nil]

/-- When the levels before the last declare behind the mark for types and the last behind the mark
for methods, their names are apart in the scope. -/
theorem Scope.ofPath_of_marks {outer : List PathSegment} {last : PathSegment}
    (houter : ∀ s ∈ outer, ∀ g ∈ s.generics, g.1 = .ofType)
    (hlast : ∀ g ∈ last.generics, g.1 = .ofMethod) :
    Scope.ofPath (outer ++ [last]) =
      ⟨numbered 0 (totalArity outer), numbered (totalArity outer) last.arity⟩ := by
  have hofType : ∀ s ∈ [last], ∀ g ∈ s.generics, g.1 ≠ .ofType := by
    intro s hs g hg heq
    rw [List.mem_singleton.mp hs] at hg
    rw [hlast g hg] at heq
    cases heq
  have hofMethod : ∀ s ∈ outer, ∀ g ∈ s.generics, g.1 ≠ .ofMethod := by
    intro s hs g hg heq
    rw [houter s hs g hg] at heq
    cases heq
  have hlast' : ∀ s ∈ [last], ∀ g ∈ s.generics, g.1 = .ofMethod := by
    intro s hs
    rw [List.mem_singleton.mp hs]
    exact hlast
  rw [Scope.ofPath, Scope.declaredWith_append, Scope.declaredWith_append,
    Scope.declaredWith_of_forall houter, Scope.declaredWith_of_forall_ne hofType,
    Scope.declaredWith_of_forall_ne hofMethod, Scope.declaredWith_of_forall hlast',
    List.append_nil, List.nil_append, Nat.zero_add]
  rfl

/-! ## Reading off -/

namespace IdentifierTree

theorem scopeIn_ofPath (tree : IdentifierTree) (isMethod : Bool) (ps : List Parameter) :
    tree.scopeIn (Identifier.ofPath isMethod (tree.outer.map (·.converted)) tree.last.converted ps)
      = Scope.ofPath (tree.segments.map (·.converted)) := by
  have hlevels : (Identifier.ofPath isMethod (tree.outer.map (·.converted)) tree.last.converted
      ps).asClassPath.map (·.typeParameters) =
        (toSegments 0 (tree.segments.map (·.converted))).map (·.typeParameters) := by
    rw [Identifier.asClassPath_ofPath, segments, List.map_append (f := SegmentTree.converted),
      toSegments_append, Nat.zero_add, List.map_append, List.map_append]
    rfl
  exact congr (congrArg Scope.mk (Scope.declaredWith_eq_flatMap .ofType 0 _ _ hlevels))
    (Scope.declaredWith_eq_flatMap .ofMethod 0 _ _ hlevels)

/-- The identifier that the path and the parameters of a tree make up. -/
def toIdentifier (tree : IdentifierTree) (isMethod : Bool) : Identifier :=
  Identifier.ofPath isMethod (tree.outer.map (·.converted)) tree.last.converted
    (tree.parameterList.map (·.read (Scope.ofPath (tree.segments.map (·.converted)))))

/-- What the path and the parameters of a tree make up is read off the tree. -/
theorem readsAs_toIdentifier (tree : IdentifierTree) (isMethod : Bool) :
    tree.ReadsAs isMethod (tree.toIdentifier isMethod) where
  names := by
    rw [toIdentifier, Identifier.asClassPath_ofPath, List.map_append,
      map_toSegments (·.name) (·.name.text) fun _ _ => rfl, segments, List.map_append, List.map_map]
    rfl
  flags := by
    rw [toIdentifier, Identifier.asClassPath_ofPath, List.map_append,
      map_toSegments (·.flags) (·.name.flags) fun _ _ => rfl, List.map_map]
    rfl
  arities := by
    rw [toIdentifier, Identifier.asClassPath_ofPath, List.map_append,
      map_toSegments (·.typeParameters.length) (·.arity) fun _ _ => length_declared _ _, segments,
      List.map_append, List.map_map, List.map_singleton, List.map_singleton, length_declared,
      SegmentTree.arity_converted]
    congr 1
    exact List.map_congr_left fun s _ => s.arity_converted
  generics := by
    rw [toIdentifier, Identifier.genericNames_ofPath,
      ← List.map_singleton (f := SegmentTree.converted),
      ← List.map_append, totalArity_converted]
    simp only [numbered, numberedName, Nat.zero_add]
    rfl
  parameters := by
    rw [toIdentifier, scopeIn_ofPath]
    rfl

end IdentifierTree

theorem Segment.ext_maps {xs ys : List Segment} (hname : xs.map (·.name) = ys.map (·.name))
    (hparameters : xs.map (·.typeParameters) = ys.map (·.typeParameters))
    (hflags : xs.map (·.flags) = ys.map (·.flags)) : xs = ys := by
  induction xs generalizing ys with
  | nil =>
    cases ys with
    | nil => rfl
    | cons y ys => cases hname
  | cons x xs ih =>
    cases ys with
    | nil => cases hname
    | cons y ys =>
      obtain ⟨hname, hnames⟩ := List.cons.inj hname
      obtain ⟨hparameters, hmore⟩ := List.cons.inj hparameters
      obtain ⟨hflags, hflagss⟩ := List.cons.inj hflags
      rw [ih hnames hmore hflagss]
      obtain ⟨xname, xparameters, xflags⟩ := x
      obtain ⟨yname, yparameters, yflags⟩ := y
      simp only at hname hparameters hflags
      rw [hname, hparameters, hflags]

theorem Identifier.genericNames_eq_flatten (x : Identifier) :
    x.genericNames = (x.asClassPath.map (·.typeParameters)).flatten := by
  show x.classPath.flatMap (·.typeParameters) ++ x.typeParameters = _
  rw [asClassPath, List.map_append, List.flatten_append, List.flatMap_def]
  simp only [List.map_singleton, List.flatten_singleton]

/-- An identifier is determined by the levels of its path and its parameters. -/
theorem Identifier.ext_asClassPath {x y : Identifier} (hpath : x.asClassPath = y.asClassPath)
    (hparameters : x.parameters = y.parameters) : x = y := by
  obtain ⟨hclass, hlast⟩ := List.append_inj' hpath rfl
  obtain ⟨xpath, xname, xtypes, xparameters, xflags⟩ := x
  obtain ⟨ypath, yname, ytypes, yparameters, yflags⟩ := y
  cases hlast
  cases hclass
  cases hparameters
  rfl

/-- Only one identifier is read off a tree. -/
theorem IdentifierTree.ReadsAs.unique {tree : IdentifierTree} {isMethod : Bool} {x y : Identifier}
    (hx : tree.ReadsAs isMethod x) (hy : tree.ReadsAs isMethod y) : x = y := by
  have harities : (x.asClassPath.map (·.typeParameters)).map List.length =
      (y.asClassPath.map (·.typeParameters)).map List.length := by
    rw [List.map_map, List.map_map]
    exact hx.arities.trans hy.arities.symm
  have hflatten := hx.generics.trans hy.generics.symm
  rw [x.genericNames_eq_flatten, y.genericNames_eq_flatten] at hflatten
  have hpath : x.asClassPath = y.asClassPath :=
    Segment.ext_maps (hx.names.trans hy.names.symm)
      (List.eq_iff_flatten_eq.mpr ⟨hflatten, harities⟩) (hx.flags.trans hy.flags.symm)
  have hscope : tree.scopeIn x = tree.scopeIn y := by
    rw [scopeIn, scopeIn, scopeIn.namesBehind, scopeIn.namesBehind, hpath]
    rfl
  refine Identifier.ext_asClassPath hpath ?_
  rw [hx.parameters, hy.parameters, hscope]

end ApiDocs
