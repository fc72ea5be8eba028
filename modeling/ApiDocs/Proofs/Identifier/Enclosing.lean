import Mathlib
import ApiDocs.Proofs.Grammar.PathFront
import ApiDocs.Proofs.Identifier.Alpha
import ApiDocs.Proofs.Identifier.Canonical
import ApiDocs.Proofs.Identifier.Parent
import ApiDocs.Proofs.Token.Place

/-!
# The type that a path names

A member goes to the type that is around it, which is cut off its identifier, while the type itself is
read from a text of its own.  That text is the one in front of the last period of the path, and what is
read from it is what is cut off: the generic parameters are numbered from the front, so the numbers of
a level do not depend on the levels behind it.

* `Identifier.parse_front`: what is read from the text in front of the last period of a path;
* `Identifier.exists_parent_of_parse_and_canonical`: the same for canonical forms, where the last level
  is cut off before or after the numbering.
-/

namespace ApiDocs

open Grammar PathSegment Token

namespace IdentifierTree

/-- The path of a tree without its last level, which is the level `s` then. -/
def cut (outer : List SegmentTree) (s : SegmentTree) : IdentifierTree := ⟨outer, s, none⟩

theorem numerals_cut_subset {tree : IdentifierTree} {outer : List SegmentTree} {s : SegmentTree}
    (h : tree.outer = outer ++ [s]) : (cut outer s).numerals ⊆ tree.numerals := by
  have hreferences : (cut outer s).references = [] := rfl
  have hsegments : (cut outer s).segments ⊆ tree.segments := by
    rw [segments, segments, h]
    exact List.subset_append_left _ _
  rw [numerals, numerals, hreferences, List.map_nil, List.append_nil]
  exact List.subset_append_of_subset_left _ (List.map_subset _ (List.filterMap_subset _ hsegments))

/-- A tree without parameters refers to no generic name. -/
theorem inRange_cut (outer : List SegmentTree) (s : SegmentTree) : (cut outer s).InRange := by
  intro r hr
  cases hr

/-- What is cut off the identifier of a tree is the identifier of the tree that is cut. -/
theorem parent?_toIdentifier {tree : IdentifierTree} {outer : List SegmentTree} {s : SegmentTree}
    (h : tree.outer = outer ++ [s]) (isMethod : Bool) :
    (tree.toIdentifier isMethod).parent? = some ((cut outer s).toIdentifier false) := by
  rw [toIdentifier, h, List.map_append]
  exact Identifier.parent?_ofPath_append isMethod _ _ _ _

end IdentifierTree

namespace Identifier

variable {text : String} {isMethod : Bool} {x : Identifier}

/-- What is read has nothing around it only if there is no period in the path. -/
theorem lastPeriod?_of_parse (h : Identifier.parse text isMethod = .ok x) (hpath : x.classPath = []) :
    lastPeriod? (tokenize text) = none := by
  obtain ⟨⟨outer, last, ps⟩, hd, -, -, rfl⟩ := derives_of_parse h
  obtain rfl | ⟨outer, s, rfl⟩ := List.eq_nil_or_concat' outer
  · rw [tokenize_eq]
    exact lastPeriod?_eq_none _ hd
  · have hparent : (IdentifierTree.toIdentifier ⟨outer ++ [s], last, ps⟩ isMethod).parent? = some _ :=
      IdentifierTree.parent?_toIdentifier rfl isMethod
    rw [parent?, hpath] at hparent
    cases hparent

/-- What is read from the text in front of the last period of a path is what is around the
declaration, in every field. -/
theorem parse_front (h : Identifier.parse text isMethod = .ok x) (hpath : x.classPath ≠ []) :
    ∃ period parent, lastPeriod? (tokenize text) = some period ∧
      Identifier.parse (Text.front period.start text) = .ok parent ∧ x.parent? = some parent := by
  obtain ⟨⟨outer, last, ps⟩, hd, hread, -, rfl⟩ := derives_of_parse h
  obtain rfl | ⟨outer, s, rfl⟩ := List.eq_nil_or_concat' outer
  · exact absurd rfl hpath
  · obtain ⟨us, period, vs, hsplit, hk, hfront, hlast⟩ := exists_split_of_derivesIdentifier _ hd
    have hperiod : punctuation? '.' = some period.kind := congrArg some hk.symm
    have hcut : DerivesIdentifier (.cut outer s)
        (tokenize (Text.front period.start text)).dropLast := by
      rw [tokenize_front hsplit hperiod, ← List.append_nil us]
      exact .mk hfront .none
    refine ⟨period, _, ?_, parse_of_derives hcut ?_ (IdentifierTree.inRange_cut _ _) false, ?_⟩
    · rw [tokenize_eq]
      exact hlast
    · exact fun n hn => hread n (IdentifierTree.numerals_cut_subset rfl hn)
    · exact IdentifierTree.parent?_toIdentifier rfl isMethod

/-- What is around a declaration does not depend on the way to it.  It may be cut off the identifier or
read from the text in front of the last period of the path, which is there unless the path has only
one level; and it may be cut off before the generic names are numbered or after that. -/
theorem exists_parent_of_parse_and_canonical :
    (∀ text isMethod x, Identifier.parse text isMethod = .ok x →
      (x.classPath = [] → lastPeriod? (tokenize text) = none) ∧
      (x.classPath ≠ [] → ∃ period parent, lastPeriod? (tokenize text) = some period ∧
        Identifier.parse (Text.front period.start text) = .ok parent ∧ x.parent? = some parent)) ∧
    ∀ x : Identifier, x.classPath ≠ [] →
      ∃ parent, x.parent? = some parent ∧ x.canonical.parent? = some parent.canonical := by
  refine ⟨fun text isMethod x h => ⟨lastPeriod?_of_parse h, parse_front h⟩, fun x hpath => ?_⟩
  obtain ⟨last, hlast⟩ := Option.ne_none_iff_exists'.mp (mt List.getLast?_eq_none_iff.mp hpath)
  obtain ⟨parent, hparent⟩ : ∃ parent, x.parent? = some parent := by
    rw [parent?, hlast]
    exact ⟨_, rfl⟩
  refine ⟨parent, hparent, ?_⟩
  rw [parent?_canonical, hparent, Option.map_some]

/-- A constructor in a nested generic type, with periods in the type of a parameter. -/
theorem exists_parent_of_nested_constructor :
    (∃ x, Identifier.parse "N.Map`2.Entry`1.#ctor(A.B\x7b`2\x7d[],`0)" true = .ok x ∧
      ∃ period parent,
        lastPeriod? (tokenize "N.Map`2.Entry`1.#ctor(A.B\x7b`2\x7d[],`0)") = some period ∧
        Identifier.parse (Text.front period.start "N.Map`2.Entry`1.#ctor(A.B\x7b`2\x7d[],`0)") =
          .ok parent ∧ x.parent? = some parent) ∧
    ∃ parent, hidingMethod.parent? = some parent ∧
      hidingMethod.canonical.parent? = some parent.canonical := by
  have hx : Identifier.parse "N.Map`2.Entry`1.#ctor(A.B\x7b`2\x7d[],`0)" true = .ok {
      classPath := [{ name := "N" }, { name := "Map", typeParameters := ["T1", "T2"] },
        { name := "Entry", typeParameters := ["T3"] }]
      name := "#ctor"
      parameters := [{ type := .mk [.mk "A" [], .mk "B" [.simple ["T3"]]] [0] },
        { type := .simple ["T1"] }]
      flags := .methodBit ||| .constructorBit ||| .specialNameBit } := by cbv
  exact ⟨⟨_, hx, (exists_parent_of_parse_and_canonical.1 _ _ _ hx).2 (List.cons_ne_nil _ _)⟩,
    exists_parent_of_parse_and_canonical.2 hidingMethod (List.cons_ne_nil _ _)⟩

end Identifier

end ApiDocs
