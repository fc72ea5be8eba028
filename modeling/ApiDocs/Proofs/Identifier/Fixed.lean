import ApiDocs.Proofs.Grammar.Identifier
import ApiDocs.Proofs.Identifier.Parent
import Mathlib

/-!
# Generic parameters are numbered in one way

A text that is read gives its generic parameters their numbers level by level, with the numbers behind
a single and behind a double mark taken from one count, and finds what a reference means among the names
behind its mark.  The canonical form counts over the finished path and finds what a name means among all
of them.  Both come to the same, so that what is read has its canonical form already.

* `SegmentTree.totalArity_eq_sum`: how many generic parameters a path declares;
* `Identifier.canonical_of_parse`: the canonical form of what is read.
-/

namespace ApiDocs

open Grammar PathSegment Token

theorem SegmentTree.totalArity_eq_sum (path : List SegmentTree) :
    SegmentTree.totalArity path = (path.map (·.arity)).sum := by
  induction path with
  | nil => rfl
  | cons s path ih =>
    show s.arity + SegmentTree.totalArity path = _
    rw [ih, List.map_cons, List.sum_cons]

namespace IdentifierTree

/-- Of how parameters are called and passed, what is read says only which of them are passed out. -/
theorem map_kind_parameters_toIdentifier (tree : IdentifierTree) (isMethod : Bool) :
    (tree.toIdentifier isMethod).parameters.map ({ · with kind := .none }) =
      (tree.toIdentifier isMethod).parameters.map fun p => ({ type := p.type } : Parameter) := by
  refine List.map_congr_left fun p hp => ?_
  obtain ⟨q, -, rfl⟩ := List.mem_map.mp hp
  rfl

end IdentifierTree

/-- What is read is its own canonical form, but that the canonical form does not say how parameters are
passed.  Its generic names are `T1`, `T2`, … up to the sum of the numbers that stand behind the marks of
the path. -/
theorem Identifier.canonical_of_parse {text : String} {isMethod : Bool} {x : Identifier}
    (h : Identifier.parse text isMethod = .ok x) :
    x.canonical = { x with parameters := x.parameters.map ({ · with kind := .none }) } ∧
      ∃ tree, DerivesIdentifier tree (tokenize text).dropLast ∧
        x.genericNames = numbered 0 (tree.segments.map (·.arity)).sum := by
  obtain ⟨tree, hd, -, -, rfl⟩ := derives_of_parse h
  refine ⟨?_, tree, hd, ?_⟩
  · rw [tree.map_kind_parameters_toIdentifier]
    exact canonical_ofPath_eq isMethod _ _ _
  · rw [IdentifierTree.toIdentifier, genericNames_ofPath, IdentifierTree.map_converted_segments,
      totalArity_converted, SegmentTree.totalArity_eq_sum]

/-- Both marks in one path, one of them with no generic parameter, and references behind each of them. -/
theorem Identifier.canonical_of_parse_of_marks : ∃ x,
    Identifier.parse "N`0.C``2.f`1(A\x7b``1\x7d[]@,`0)" true = .ok x ∧
    x.canonical = { x with parameters := x.parameters.map ({ · with kind := .none }) } ∧
      ∃ tree, DerivesIdentifier tree (tokenize "N`0.C``2.f`1(A\x7b``1\x7d[]@,`0)").dropLast ∧
        x.genericNames = numbered 0 (tree.segments.map (·.arity)).sum := by
  have hx : Identifier.parse "N`0.C``2.f`1(A\x7b``1\x7d[]@,`0)" true = .ok {
      classPath := [{ name := "N" }, { name := "C", typeParameters := ["T1", "T2"] }]
      name := "f"
      typeParameters := ["T3"]
      parameters := [{ type := .mk [.mk "A" [.simple ["T2"]]] [0], kind := .outBit },
        { type := .simple ["T3"] }]
      flags := .methodBit } := by cbv
  exact ⟨_, hx, canonical_of_parse hx⟩

end ApiDocs
