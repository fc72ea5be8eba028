import ApiDocs.Proofs.Grammar.MemberId
import ApiDocs.Proofs.Grammar.Rename

/-!
# Member ids of methods put together

The member id of a method is the letter of its kind, a path, and the texts of its arguments between
parentheses.  A path and arguments that can be read by themselves can be read when they are put
together like this, and mean the same.

* `MethodPath`, `MethodPath.Argument`: such a path, and an argument that can stand behind it;
* `MethodPath.scope_meaning`: what a reference means is the number of its place;
* `MethodPath.parse_memberId`: what is read off a member id that is put together from them.
-/

namespace ApiDocs

open Grammar PathSegment Text Token

/-- A path of a method: it is accepted without parameters, and the levels in front of the last declare
their generic parameters behind the mark for types and the last level its own behind the mark for
methods. -/
structure MethodPath where
  text : String
  tree : IdentifierTree
  derives : DerivesIdentifier tree (tokenize text).dropLast
  isAccepted : ∃ x, Identifier.parse text = .ok x
  parameters_eq_none : tree.parameters = none
  mark_of_mem_outer : ∀ s ∈ tree.outer, ∀ g ∈ s.generics, g.1 = .ofType
  mark_of_last : ∀ g ∈ tree.last.generics, g.1 = .ofMethod

/-- An argument that can stand behind the path: its references are in range. -/
structure MethodPath.Argument (p : MethodPath) where
  text : String
  isOut : Bool
  tree : ArgumentTree
  derives : DerivesArgument tree (tokenize text).dropLast
  inRange : ∀ r ∈ tree.references, r.2.value < declaredCount r.1 p.tree.segments

namespace MethodPath

variable {p : MethodPath}

/-- How many generic parameters the path declares. -/
def genericCount (p : MethodPath) : Nat := SegmentTree.totalArity p.tree.segments

/-- The indices of the references are short enough to be converted. -/
def Argument.IsReadable (a : p.Argument) : Prop := ∀ r ∈ a.tree.references, r.2.IsReadable

/-- The text of an argument, and the sign behind it if it is passed out. -/
def Argument.documented (a : p.Argument) : String := a.text ++ if a.isOut then "@" else ""

/-- The path and the arguments between parentheses. -/
def signatureText (p : MethodPath) (arguments : List p.Argument) : String :=
  p.text ++ "(" ++ ",".intercalate (arguments.map (·.documented)) ++ ")"

/-- The member id by which documentation refers to a method. -/
def memberId (p : MethodPath) (arguments : List p.Argument) : String :=
  "M:" ++ p.signatureText arguments

/-- The tree of the path with that of each argument. -/
def treeWith (p : MethodPath) (arguments : List p.Argument) : IdentifierTree :=
  { p.tree with parameters := some (arguments.map fun a => ⟨a.tree, a.isOut⟩) }

theorem numerals_isReadable (p : MethodPath) : ∀ n ∈ p.tree.numerals, n.IsReadable := by
  obtain ⟨x, hx⟩ := p.isAccepted
  obtain ⟨tree, hd, hread, -, -⟩ := Identifier.derives_of_parse hx
  rw [← hd.unique p.derives]
  exact hread

/-- The names that references behind the path mean. -/
def scope (p : MethodPath) : Scope := Scope.ofPath (p.tree.segments.map (·.converted))

theorem length_names_scope (p : MethodPath) (mark : Mark) :
    (p.scope.names mark).length = declaredCount mark p.tree.segments :=
  Scope.length_names_ofPath mark _

theorem scope_eq_numbered (p : MethodPath) : p.scope =
    ⟨numbered 0 (SegmentTree.totalArity p.tree.outer),
      numbered (SegmentTree.totalArity p.tree.outer) p.tree.last.arity⟩ := by
  have hmark : ∀ {s : SegmentTree} {mark : Mark}, (∀ g ∈ s.generics, g.1 = mark) →
      ∀ g ∈ s.converted.generics, g.1 = mark := by
    intro s mark hs g hg
    obtain ⟨w, hw, rfl⟩ := Option.map_eq_some_iff.mp hg
    exact hs w hw
  rw [scope, ← IdentifierTree.map_converted_segments, Scope.ofPath_of_marks ?_ (hmark p.mark_of_last),
    totalArity_converted, SegmentTree.arity_converted]
  intro s hs
  obtain ⟨w, hw, rfl⟩ := List.mem_map.mp hs
  exact hmark (p.mark_of_mem_outer w hw)

/-- The generic names of the type are behind the mark for types, those of the method behind the mark
for methods. -/
theorem scope_eq (p : MethodPath) (isMethod : Bool) :
    p.scope = ⟨(p.tree.toIdentifier isMethod).pathGenericNames,
      (p.tree.toIdentifier isMethod).typeParameters⟩ := by
  show _ = Scope.mk ((toSegments 0 _).flatMap _) (numbered _ _)
  rw [flatMap_typeParameters_toSegments, totalArity_converted, SegmentTree.arity_converted,
    p.scope_eq_numbered]

theorem genericCount_eq (p : MethodPath) :
    p.genericCount = SegmentTree.totalArity p.tree.outer + p.tree.last.arity := by
  rw [genericCount, ← totalArity_converted, ← IdentifierTree.map_converted_segments,
    totalArity_append, totalArity_converted]
  exact congrArg (_ + ·) p.tree.last.arity_converted

theorem genericNames_toIdentifier (p : MethodPath) (isMethod : Bool) :
    (p.tree.toIdentifier isMethod).genericNames = numbered 0 p.genericCount := by
  rw [IdentifierTree.toIdentifier, Identifier.genericNames_ofPath,
    IdentifierTree.map_converted_segments, totalArity_converted]
  rfl

/-- The place of what a reference means among the generic names. -/
def position (p : MethodPath) (r : Mark × Numeral) : Nat :=
  match r.1 with
  | .ofType => r.2.value
  | .ofMethod => SegmentTree.totalArity p.tree.outer + r.2.value

/-- A reference in range means the number of its place. -/
theorem scope_meaning (p : MethodPath) {r : Mark × Numeral}
    (h : r.2.value < declaredCount r.1 p.tree.segments) :
    p.position r < p.genericCount ∧ p.scope.meaning r = numberedName (p.position r + 1) := by
  obtain ⟨mark, index⟩ := r
  rw [← p.length_names_scope, p.scope_eq_numbered] at h
  rw [p.genericCount_eq, Scope.meaning, p.scope_eq_numbered]
  cases mark with
  | ofType =>
    have hlt : index.value < SegmentTree.totalArity p.tree.outer := by
      rwa [Scope.names, length_numbered] at h
    refine ⟨Nat.lt_add_right _ hlt, ?_⟩
    rw [Scope.names, getElem?_numbered hlt, Nat.zero_add]
    rfl
  | ofMethod =>
    have hlt : index.value < p.tree.last.arity := by
      rwa [Scope.names, length_numbered] at h
    refine ⟨Nat.add_lt_add_left hlt _, ?_⟩
    rw [Scope.names, getElem?_numbered hlt]
    rfl

theorem resolves_scope {a : p.Argument} (hread : a.IsReadable) :
    p.scope.Resolves a.tree.references := by
  intro r hr
  rw [length_names_scope]
  exact ⟨hread r hr, a.inRange r hr⟩

/-! ## The tokens of the parts -/

/-- The tokens that a string has in front of the end of input, when it begins at a place. -/
def tokensAt (start : Nat) (s : String) : List Token := written start (symbols s.toList)

theorem tokensAt_eq_map (start : Nat) (s : String) :
    tokensAt start s = (tokensAt 0 s).map (shift start) := by
  rw [tokensAt, tokensAt, ← written_shift, Nat.zero_add]

theorem tokensAt_append {c : Char} {kind : TokenKind} (hc : punctuation? c = some kind)
    (start : Nat) (s : String) (t : String) : ∃ place,
      tokensAt start (s ++ String.singleton c ++ t) =
        tokensAt start s ++ ⟨kind, place, [.char c]⟩ :: tokensAt (place + 1) t := by
  have hplain : IsPlain c := by
    have hall : ∀ d ∈ punctuation, IsPlain d := forall_mem_punctuation (by decide)
    exact hall c (mem_punctuation hc)
  refine ⟨start + (symbols s.toList).length, ?_⟩
  rw [tokensAt, String.append_assoc, String.toList_append, String.toList_append,
    String.toList_singleton, List.singleton_append, symbols_append_cons hplain,
    written_append_punctuation hc]
  rfl

theorem tokensAt_empty (start : Nat) : tokensAt start "" = [] := written_nil start

theorem derivesParameter_documented (a : p.Argument) (start : Nat) :
    DerivesParameter ⟨a.tree, a.isOut⟩ (tokensAt start a.documented) := by
  have hargument : DerivesArgument a.tree (tokensAt start a.text) := by
    rw [tokensAt_eq_map]
    exact a.derives.shift start
  rw [Argument.documented]
  cases a.isOut with
  | false =>
    rw [if_neg Bool.false_ne_true, String.append_empty]
    exact .plain hargument
  | true =>
    obtain ⟨place, htokens⟩ := tokensAt_append (c := '@') rfl start a.text ""
    rw [String.append_empty, tokensAt_empty] at htokens
    rw [if_pos rfl, show ("@" : String) = String.singleton '@' from rfl, htokens]
    exact .out hargument rfl

theorem derivesParameterList_documented (a : p.Argument) (more : List p.Argument)
    (start : Nat) : DerivesParameterList ((a :: more).map fun b => ⟨b.tree, b.isOut⟩)
      (tokensAt start (",".intercalate ((a :: more).map (·.documented)))) := by
  induction more generalizing a start with
  | nil =>
    rw [List.map_singleton, List.map_singleton, String.intercalate_singleton]
    exact .single (derivesParameter_documented a start)
  | cons b more ih =>
    have hcomma : ",".intercalate ((a :: b :: more).map (·.documented)) = a.documented ++
        String.singleton ',' ++ ",".intercalate ((b :: more).map (·.documented)) :=
      String.intercalate_cons_cons
    obtain ⟨place, htokens⟩ := tokensAt_append (c := ',') rfl start a.documented
      (",".intercalate ((b :: more).map (·.documented)))
    rw [hcomma, htokens]
    exact .cons (derivesParameter_documented a start) rfl (ih b (place + 1))

/-- What is put together has the tree of the path with those of the arguments. -/
theorem derivesIdentifier_signatureText (p : MethodPath) (arguments : List p.Argument) :
    DerivesIdentifier (p.treeWith arguments) (tokensAt 0 (p.signatureText arguments)) := by
  have hpath : DerivesPath p.tree.outer p.tree.last (tokensAt 0 p.text) :=
    p.derives.path_of_none p.parameters_eq_none
  obtain ⟨place, hleft⟩ := tokensAt_append (c := '(') rfl 0 p.text
    (",".intercalate (arguments.map (·.documented)) ++ ")")
  obtain ⟨place', hright⟩ := tokensAt_append (c := ')') rfl (place + 1)
    (",".intercalate (arguments.map (·.documented))) ""
  rw [String.append_empty, tokensAt_empty] at hright
  have hsplit : p.signatureText arguments = p.text ++ String.singleton '(' ++
      (",".intercalate (arguments.map (·.documented)) ++ String.singleton ')') :=
    String.append_assoc
  rw [hsplit]
  rw [show (")" : String) = String.singleton ')' from rfl] at hleft
  rw [hleft, hright]
  refine .mk hpath ?_
  cases arguments with
  | nil =>
    rw [List.map_nil, List.map_nil, String.intercalate_nil, tokensAt_empty]
    exact .empty rfl rfl
  | cons a more => exact .list rfl (derivesParameterList_documented a more (place + 1)) rfl

/-! ## What is read -/

theorem parse_text (p : MethodPath) (isMethod : Bool) :
    Identifier.parse p.text isMethod = .ok (p.tree.toIdentifier isMethod) := by
  have hrange : p.tree.InRange := by
    rw [IdentifierTree.InRange, IdentifierTree.references, IdentifierTree.parameterList,
      p.parameters_eq_none]
    intro r hr
    cases hr
  exact Identifier.parse_of_derives p.derives p.numerals_isReadable hrange isMethod

theorem references_treeWith (p : MethodPath) (arguments : List p.Argument) :
    (p.treeWith arguments).references = arguments.flatMap (·.tree.references) := by
  show (arguments.map _).flatMap _ = _
  rw [List.flatMap_map]

theorem numerals_treeWith_isReadable_iff (p : MethodPath) (arguments : List p.Argument) :
    (∀ n ∈ (p.treeWith arguments).numerals, n.IsReadable) ↔ ∀ a ∈ arguments, a.IsReadable := by
  rw [IdentifierTree.numerals_isReadable_iff, references_treeWith]
  constructor
  · rintro ⟨-, hread⟩ a ha r hr
    exact hread r (List.mem_flatMap.mpr ⟨a, ha, hr⟩)
  · intro hread
    refine ⟨((p.tree.numerals_isReadable_iff).mp p.numerals_isReadable).1, ?_⟩
    intro r hr
    obtain ⟨a, ha, hr⟩ := List.mem_flatMap.mp hr
    exact hread a ha r hr

theorem inRange_treeWith (p : MethodPath) (arguments : List p.Argument) :
    (p.treeWith arguments).InRange := by
  intro r hr
  rw [references_treeWith] at hr
  obtain ⟨a, -, hr⟩ := List.mem_flatMap.mp hr
  exact a.inRange r hr

theorem toList_memberId (p : MethodPath) (arguments : List p.Argument) :
    (p.memberId arguments).toList =
      MemberKind.method.letter :: ':' :: (p.signatureText arguments).toList := by
  rw [memberId, String.toList_append]
  rfl

/-- What is read off a member id that is put together. -/
theorem parse_memberId (p : MethodPath) {arguments : List p.Argument}
    (hread : ∀ a ∈ arguments, a.IsReadable) : MemberId.parse (p.memberId arguments) =
      .ok ⟨.method, (p.treeWith arguments).toIdentifier true⟩ := by
  refine MemberId.parse_of_letter (p.toList_memberId arguments) ?_
  exact Identifier.parse_of_derives (p.derivesIdentifier_signatureText arguments)
    ((p.numerals_treeWith_isReadable_iff arguments).mpr hread) (p.inRange_treeWith arguments) true

/-- Nothing is read off a member id with an index that is too long to be converted. -/
theorem isReadable_of_parse_memberId (p : MethodPath) {arguments : List p.Argument}
    {id : MemberId} (h : MemberId.parse (p.memberId arguments) = .ok id) :
    ∀ a ∈ arguments, a.IsReadable := by
  obtain ⟨front, hend⟩ : ∃ front, (p.signatureText arguments).toList = front ++ [')'] := by
    rw [signatureText, String.toList_append]
    exact ⟨_, rfl⟩
  have hstop : stripEnd (p.signatureText arguments).toList = (p.signatureText arguments).toList := by
    rw [hend]
    exact stripEnd_append_singleton (by decide) front
  obtain ⟨x, hx, -⟩ := (MemberId.parse_eq_ok_iff_of_letter (p.toList_memberId arguments)).mp h
  rw [hstop] at hx
  obtain ⟨tree, hd, hread, -, -⟩ := Identifier.derives_of_parse hx
  rw [tokenize, symbols_ofSymbols] at hd
  rw [hd.unique (p.derivesIdentifier_signatureText arguments)] at hread
  exact (p.numerals_treeWith_isReadable_iff arguments).mp hread

end MethodPath

end ApiDocs
