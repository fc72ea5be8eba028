import Mathlib
import ApiDocs.Proofs.Flags
import ApiDocs.Proofs.Grammar.Words
import ApiDocs.Proofs.Identifier.Parent
import ApiDocs.Proofs.Identifier.PathText

/-!
# Keys of members that are read

A member is found by the key of the type around it and by its own key within that type.  Both are
texts.  For members that are read from texts the two keys say which levels the path has, how many
generic parameters each of them declares, and what the types of the parameters are, and they say
nothing else.

* `Grammar.DerivesPath.isWord`: the names of levels are made of words;
* `SegmentName.overlaps_callable_iff`: which of them name constructors;
* `Identifier.canonicalKey_ofPath`, `Identifier.signatureKey_ofPath`: what keys are made of;
* `MemberId.keys_eq_iff`: equal keys are those of equal paths and equal types.
-/

namespace ApiDocs

open Text Token

/-! ## Texts with a separator -/

theorem forall_mem_intercalate {P : Char → Prop} {sep : String} (hsep : ∀ c ∈ sep.toList, P c)
    {texts : List String} (h : ∀ s ∈ texts, ∀ c ∈ s.toList, P c) :
    ∀ c ∈ (sep.intercalate texts).toList, P c := by
  induction texts with
  | nil => exact nofun
  | cons s texts ih =>
    rw [List.forall_mem_cons] at h
    rcases eq_or_ne texts [] with rfl | hne
    · rw [String.intercalate_singleton]
      exact h.1
    · rw [String.intercalate_cons_of_ne_nil hne, String.toList_append, String.toList_append,
        List.forall_mem_append, List.forall_mem_append]
      exact ⟨⟨h.1, hsep⟩, ih h.2⟩

theorem head?_intercalate_cons (sep : String) {s : String} (hs : s ≠ "") (texts : List String) :
    (sep.intercalate (s :: texts)).toList.head? = s.toList.head? := by
  rcases eq_or_ne texts [] with rfl | hne
  · rw [String.intercalate_singleton]
  · rw [String.intercalate_cons_of_ne_nil hne, String.toList_append, String.toList_append,
      List.append_assoc, List.head?_append_of_ne_nil _ (mt String.toList_eq_nil_iff.mp hs)]

/-! ## Names of levels -/

/-- The words that a name is made of. -/
def SegmentName.words : SegmentName → List String
  | .hashed first more => first :: more
  | .special name => [name]
  | .classSpecial name => [name]

namespace Grammar

theorem DerivesHashedName.isWord {names : List String} {ts : List Token}
    (h : DerivesHashedName names ts) (hts : ∀ t ∈ ts, t.kind = .name → IsWord t.text) :
    ∀ w ∈ names, IsWord w := by
  induction h with
  | single hk =>
    rw [List.forall_mem_singleton] at hts ⊢
    exact hts hk
  | cons hk _ _ ih =>
    rw [List.forall_mem_cons, List.forall_mem_cons] at hts
    rw [List.forall_mem_cons]
    exact ⟨hts.1 hk, ih hts.2.2⟩

theorem DerivesSegmentName.isWord {name : SegmentName} {ts : List Token}
    (h : DerivesSegmentName name ts) (hts : ∀ t ∈ ts, t.kind = .name → IsWord t.text) :
    ∀ w ∈ name.words, IsWord w := by
  cases h with
  | special _ hk =>
    rw [List.forall_mem_cons, List.forall_mem_singleton] at hts
    exact List.forall_mem_singleton.mpr (hts.2 hk)
  | classSpecial _ hk =>
    rw [List.forall_mem_cons, List.forall_mem_singleton] at hts
    exact List.forall_mem_singleton.mpr (hts.2 hk)
  | hashed hhashed => exact hhashed.isWord hts

theorem DerivesPath.isWord {outer : List SegmentTree} {last : SegmentTree} {ts : List Token}
    (h : DerivesPath outer last ts) (hts : ∀ t ∈ ts, t.kind = .name → IsWord t.text) :
    ∀ s ∈ outer ++ [last], ∀ w ∈ s.name.words, IsWord w := by
  have hsegment : ∀ {s : SegmentTree} {ts : List Token}, DerivesSegment s ts →
      (∀ t ∈ ts, t.kind = .name → IsWord t.text) → ∀ w ∈ s.name.words, IsWord w := by
    rintro s ts ⟨hname, -⟩ hts
    exact hname.isWord (List.forall_mem_append.mp hts).1
  induction h with
  | single hs =>
    rw [List.nil_append, List.forall_mem_singleton]
    exact hsegment hs hts
  | cons hs _ _ ih =>
    rw [List.forall_mem_append, List.forall_mem_cons] at hts
    rw [List.cons_append, List.forall_mem_cons]
    exact ⟨hsegment hs hts.1, ih hts.2.2⟩

end Grammar

namespace SegmentName

/-- The characters of a name of words. -/
theorem isLevelRest_of_mem_text {name : SegmentName} (h : ∀ w ∈ name.words, IsWord w) :
    ∀ c ∈ name.text.toList, isLevelRest c = true := by
  have hword : ∀ w ∈ name.words, ∀ c ∈ w.toList, isLevelRest c = true := by
    intro w hw c hc
    rw [isLevelRest, (h w hw).2 c hc, Bool.or_true]
  have hsharp : ∀ c ∈ "#".toList, isLevelRest c = true :=
    List.forall_mem_singleton.mpr (by decide)
  cases name with
  | special name =>
    rw [text, String.toList_append, List.forall_mem_append]
    exact ⟨hsharp, hword name (List.mem_singleton_self _)⟩
  | classSpecial name =>
    rw [text, String.toList_append, List.forall_mem_append]
    exact ⟨List.forall_mem_cons.mpr ⟨by decide, hsharp⟩, hword name (List.mem_singleton_self _)⟩
  | hashed first more => exact forall_mem_intercalate hsharp hword

/-- The texts of the names of constructors. -/
def IsConstructor (text : String) : Prop := text = "#ctor" ∨ text = "##ctor"

instance (text : String) : Decidable (IsConstructor text) := inferInstanceAs (Decidable (_ ∨ _))

/-- What is not written as a constructor is neither one nor callable. -/
theorem flags_of_not_isConstructor {name : SegmentName} (h : ¬ IsConstructor name.text) :
    name.flags.overlaps .anyConstructor = false ∧ name.flags.overlaps .callable = false := by
  rw [IsConstructor, not_or] at h
  cases name with
  | special name =>
    have hne : name ≠ constructorName := by
      rintro rfl
      exact h.1 rfl
    rw [flags, if_neg hne]
    decide
  | classSpecial name =>
    have hne : name ≠ constructorName := by
      rintro rfl
      exact h.2 rfl
    rw [flags, if_neg hne]
    decide
  | hashed first more =>
    cases more with
    | nil => rw [flags]; decide
    | cons next more => rw [flags]; decide

theorem IsConstructor.head? {text : String} (h : IsConstructor text) : text.toList.head? = some '#' := by
  rcases h with rfl | rfl <;> rfl

/-- Of the names of words, those of constructors are callable. -/
theorem overlaps_callable_iff {name : SegmentName} (h : ∀ w ∈ name.words, IsWord w) :
    name.flags.overlaps .callable = true ↔ IsConstructor name.text := by
  refine ⟨fun hcallable => by_contra fun hnot => ?_, fun hconstructor => ?_⟩
  · rw [(flags_of_not_isConstructor hnot).2] at hcallable
    cases hcallable
  · have hsharp : ∀ w ∈ name.words, w.toList.head? ≠ some '#' := by
      intro w hw hhead
      have hrest := (h w hw).2 '#' (List.mem_of_mem_head? hhead)
      exact absurd hrest (by decide)
    cases name with
    | special name =>
      have hname : name = constructorName := by
        rcases hconstructor with heq | heq
        · exact (String.append_right_inj "#").mp heq
        · have hhash : name = "#ctor" := (String.append_right_inj "#").mp heq
          rw [words, List.forall_mem_singleton, hhash] at hsharp
          exact absurd rfl hsharp
      rw [hname]
      decide
    | classSpecial name =>
      have hname : name = constructorName := by
        rcases hconstructor with heq | heq
        · have hhash : "#" ++ name = "ctor" := (String.append_right_inj "#").mp heq
          have hhead := congrArg (fun s : String => s.toList.head?) hhash
          rw [String.toList_append] at hhead
          cases hhead
        · exact (String.append_right_inj "##").mp heq
      rw [hname]
      decide
    | hashed first more =>
      have hhead := hconstructor.head?
      rw [text, head?_intercalate_cons "#" (h first List.mem_cons_self).1] at hhead
      exact absurd hhead (hsharp first List.mem_cons_self)

end SegmentName

/-! ## Paths -/

namespace PathSegment

theorem isSpelled_toSegment {s : PathSegment} (h : ∀ w ∈ s.name.words, IsWord w) (count : Nat) :
    (s.toSegment count).IsSpelled where
  name := SegmentName.isLevelRest_of_mem_text h
  typeParameters := isWord_of_mem_numbered

theorem isSpelled_toSegments {path : List PathSegment}
    (h : ∀ s ∈ path, ∀ w ∈ s.name.words, IsWord w) (count : Nat) :
    ∀ s ∈ toSegments count path, s.IsSpelled := by
  induction path generalizing count with
  | nil => exact nofun
  | cons s path ih =>
    rw [List.forall_mem_cons] at h
    rw [toSegments, List.forall_mem_cons]
    exact ⟨isSpelled_toSegment h.1 count, ih h.2 _⟩

/-- Levels of one shape are written in the same way behind equally many generic parameters. -/
theorem text_toSegment_congr {s s' : PathSegment} {count count' : Nat} (hcount : count = count')
    (h : (s.toSegment count).shape = (s'.toSegment count').shape) :
    (s.toSegment count).text = (s'.toSegment count').text := by
  subst hcount
  obtain ⟨hname, hlength⟩ := Prod.mk.inj h
  have hlength : (s.declared count).length = (s'.declared count).length := hlength
  rw [length_declared, length_declared] at hlength
  show s.name.text ++ angled (numbered count s.arity) = _
  rw [hlength]
  exact congrArg (· ++ _) hname

/-- Paths of one shape have the same number of generic parameters and are written in the same way. -/
theorem map_text_toSegments_congr {path path' : List PathSegment} {count : Nat}
    (h : (toSegments count path).map Segment.shape = (toSegments count path').map Segment.shape) :
    totalArity path = totalArity path' ∧
      (toSegments count path).map Segment.text = (toSegments count path').map Segment.text := by
  induction path generalizing count path' with
  | nil =>
    cases path' with
    | nil => exact ⟨rfl, rfl⟩
    | cons => cases h
  | cons s path ih =>
    cases path' with
    | nil => cases h
    | cons s' path' =>
      obtain ⟨hshape, hmore⟩ := List.cons.inj h
      have harity : s.arity = s'.arity := by
        rw [← length_declared count s, ← length_declared count s']
        exact congrArg Prod.snd hshape
      rw [← harity] at hmore
      obtain ⟨htotal, htexts⟩ := ih hmore
      have hsum : totalArity (s :: path) = totalArity (s' :: path') := by
        show s.arity + totalArity path = s'.arity + totalArity path'
        rw [harity, htotal]
      refine ⟨hsum, ?_⟩
      rw [toSegments, toSegments, List.map_cons, List.map_cons, text_toSegment_congr rfl hshape, htexts,
        harity]

theorem map_toSegments_append_singleton {β : Type} (f : Segment → β) (path : List PathSegment)
    (last : PathSegment) : (toSegments 0 (path ++ [last])).map f =
      (toSegments 0 path).map f ++ [f (last.toSegment (totalArity path))] := by
  rw [toSegments_append, List.map_append, Nat.zero_add]
  rfl

end PathSegment

/-! ## Keys of paths -/

namespace Identifier

open PathSegment

/-- The types of parameters between parentheses, as they stand in a key. -/
def typesText (isCallable : Bool) (types : List TypeRef) : String :=
  if isCallable || !types.isEmpty then "(" ++ ", ".intercalate (types.map TypeRef.text) ++ ")" else ""

theorem map_shape_asClassPath_ofPath (isMethod : Bool) (path : List PathSegment) (last : PathSegment)
    (ps : List Parameter) : (ofPath isMethod path last ps).asClassPath.map Segment.shape =
      (toSegments 0 (path ++ [last])).map Segment.shape := by
  rw [asClassPath_ofPath, map_toSegments_append_singleton, List.map_append]
  rfl

/-- The key of a type that is not written as a constructor is its path. -/
theorem canonicalKey_ofPath {outer : List PathSegment} {s : PathSegment}
    (h : ¬ SegmentName.IsConstructor s.name.text) : (ofPath false outer s []).canonicalKey =
      ".".intercalate ((toSegments 0 (outer ++ [s])).map Segment.text) := by
  obtain ⟨hconstructor, hcallable⟩ := SegmentName.flags_of_not_isConstructor h
  have hparameters : (ofPath false outer s []).parameterText = "" := by
    show (if s.name.flags.overlaps .callable || !true then _ else "") = ""
    rw [hcallable]
    rfl
  rw [canonicalKey, canonical_ofPath, text_eq_of_displayName (displayName_eq_name hconstructor),
    hparameters, String.append_empty, toSegments_append, Nat.zero_add]
  rfl

/-- Types that are not written as constructors have equal keys if and only if their paths are of one
shape. -/
theorem canonicalKey_ofPath_eq_iff {path path' : List PathSegment} {s s' : PathSegment}
    (h : ∀ l ∈ path ++ [s], ∀ w ∈ l.name.words, IsWord w)
    (h' : ∀ l ∈ path' ++ [s'], ∀ w ∈ l.name.words, IsWord w)
    (hs : ¬ SegmentName.IsConstructor s.name.text)
    (hs' : ¬ SegmentName.IsConstructor s'.name.text) :
    (ofPath false path s []).canonicalKey = (ofPath false path' s' []).canonicalKey ↔
      (toSegments 0 (path ++ [s])).map Segment.shape =
        (toSegments 0 (path' ++ [s'])).map Segment.shape := by
  have hne : ∀ {path : List PathSegment} {s : PathSegment}, toSegments 0 (path ++ [s]) ≠ [] := by
    intro path s
    rw [toSegments_append]
    exact List.append_ne_nil_of_right_ne_nil _ (List.cons_ne_nil _ _)
  rw [canonicalKey_ofPath hs, canonicalKey_ofPath hs']
  constructor
  · exact Segment.map_shape_eq_of_intercalate_eq hne hne (isSpelled_toSegments h 0)
      (isSpelled_toSegments h' 0)
  · intro hshapes
    rw [(map_text_toSegments_congr hshapes).2]

/-- The key of a member is its level and the types of its parameters. -/
theorem signatureKey_ofPath (isMethod : Bool) (outer : List PathSegment) (last : PathSegment)
    (ps : List Parameter) : (ofPath isMethod outer last ps).signatureKey =
      (last.toSegment (totalArity outer)).text ++
        typesText (ofPath isMethod outer last ps).isCallable (ps.map (·.type)) := by
  have htypes : (ofPath isMethod outer last ps).canonicalTypes = ps.map (·.type) := by
    refine List.map_congr_left fun p _ => ?_
    have hid : (ofPath isMethod outer last ps).numbering.apply = id :=
      funext (numbering_apply_of_numbered (genericNames_ofPath isMethod outer last ps))
    rw [hid, TypeRef.rename_id]
  have hpath : (ofPath isMethod outer last ps).pathGenericNames.length = totalArity outer := by
    show ((toSegments 0 outer).flatMap (·.typeParameters)).length = _
    rw [flatMap_typeParameters_toSegments, length_numbered]
  have hlast : (ofPath isMethod outer last ps).typeParameters.length = last.arity :=
    length_declared _ last
  rw [signatureKey_eq, htypes, hpath, hlast]
  rfl

theorem eq_of_typesText_eq {isCallable isCallable' : Bool} {ts us : List TypeRef}
    (hts : ∀ t ∈ ts, t.Built IsWord) (hus : ∀ u ∈ us, u.Built IsWord)
    (h : typesText isCallable ts = typesText isCallable' us) :
    ts.map TypeRef.standard = us.map TypeRef.standard := by
  have hparens : ∀ {ts : List TypeRef}, "(" ++ ", ".intercalate (ts.map TypeRef.text) ++ ")" ≠ "" := by
    intro ts hempty
    have hchars := congrArg String.toList hempty
    simp at hchars
  have hempty : ∀ {isCallable : Bool} {ts : List TypeRef},
      ¬ (isCallable || !ts.isEmpty) = true → ts = [] := by
    intro isCallable ts hnot
    simpa using (not_or.mp (mt Bool.or_eq_true_iff.mpr hnot)).2
  rw [typesText, typesText] at h
  split at h
  · split at h
    · exact TypeRef.map_standard_eq_of_intercalate_eq hts hus (by simpa using h)
    · exact absurd h hparens
  · next hnot =>
    split at h
    · exact absurd h.symm hparens
    · next hnot' => rw [hempty hnot, hempty hnot']

/-- Whether a member is callable is known from its name. -/
theorem isCallable_ofPath_congr {isMethod : Bool} {outer outer' : List PathSegment}
    {last last' : PathSegment} {ps ps' : List Parameter} (h : ∀ w ∈ last.name.words, IsWord w)
    (h' : ∀ w ∈ last'.name.words, IsWord w) (hname : last.name.text = last'.name.text) :
    (ofPath isMethod outer last ps).isCallable = (ofPath isMethod outer' last' ps').isCallable := by
  have hflags : last.name.flags.overlaps .callable = last'.name.flags.overlaps .callable := by
    rw [Bool.eq_iff_iff, SegmentName.overlaps_callable_iff h,
      SegmentName.overlaps_callable_iff h', hname]
  cases isMethod with
  | false => exact hflags
  | true =>
    show (last.name.flags ||| .methodBit).overlaps .callable =
      (last'.name.flags ||| .methodBit).overlaps .callable
    rw [NameFlags.overlaps_or, NameFlags.overlaps_or, hflags]

section
variable {isMethod : Bool} {path path' : List PathSegment} {last last' : PathSegment}
  {ps ps' : List Parameter}

/-- Equal keys of members are those of one level, and of equal types. -/
theorem eq_of_signatureKey_ofPath_eq (h : ∀ w ∈ last.name.words, IsWord w)
    (h' : ∀ w ∈ last'.name.words, IsWord w) (hbuilt : ∀ p ∈ ps, p.type.Built IsWord)
    (hbuilt' : ∀ p ∈ ps', p.type.Built IsWord)
    (heq : (ofPath isMethod path last ps).signatureKey =
      (ofPath isMethod path' last' ps').signatureKey) :
    (last.toSegment (totalArity path)).shape = (last'.toSegment (totalArity path')).shape ∧
      ps.map (·.type.standard) = ps'.map (·.type.standard) := by
  have hchars := congrArg String.toList heq
  rw [signatureKey_ofPath, signatureKey_ofPath, String.toList_append, String.toList_append] at hchars
  have hstops : ∀ (isCallable : Bool) (types : List TypeRef),
      Stops levelGoesOn (typesText isCallable types).toList := by
    intro isCallable types
    rw [typesText]
    split
    · rw [String.toList_append, String.toList_append, List.append_assoc]
      exact stops_cons.mpr (by decide)
    · exact nofun
  obtain ⟨hshape, hrest⟩ := Segment.toldApart (isSpelled_toSegment h _) (isSpelled_toSegment h' _) _ _
    (hstops _ _) (hstops _ _) hchars
  have htypes := eq_of_typesText_eq (List.forall_mem_map.mpr hbuilt) (List.forall_mem_map.mpr hbuilt')
    (String.toList_inj.mp hrest)
  rw [List.map_map, List.map_map] at htypes
  exact ⟨hshape, htypes⟩

/-- Members of one level, behind equally many generic parameters, and of equal types have equal keys. -/
theorem signatureKey_ofPath_congr (h : ∀ w ∈ last.name.words, IsWord w)
    (h' : ∀ w ∈ last'.name.words, IsWord w)
    (hcount : totalArity path = totalArity path')
    (hshape : (last.toSegment (totalArity path)).shape = (last'.toSegment (totalArity path')).shape)
    (htypes : ps.map (·.type.standard) = ps'.map (·.type.standard)) :
    (ofPath isMethod path last ps).signatureKey = (ofPath isMethod path' last' ps').signatureKey := by
  have hcallable : (ofPath isMethod path last ps).isCallable =
      (ofPath isMethod path' last' ps').isCallable :=
    isCallable_ofPath_congr h h' (congrArg Prod.fst hshape)
  have hempty : (ps.map (·.type)).isEmpty = (ps'.map (·.type)).isEmpty := by
    have hlength := congrArg List.length htypes
    rw [List.length_map, List.length_map] at hlength
    rw [Bool.eq_iff_iff, List.isEmpty_iff_length_eq_zero, List.isEmpty_iff_length_eq_zero,
      List.length_map, List.length_map, hlength]
  have htexts : (ps.map (·.type)).map TypeRef.text = (ps'.map (·.type)).map TypeRef.text := by
    have hstandard := congrArg (List.map TypeRef.text) htypes
    simp only [List.map_map, Function.comp_def, TypeRef.text_standard] at hstandard ⊢
    exact hstandard
  rw [signatureKey_ofPath, signatureKey_ofPath, text_toSegment_congr hcount hshape, hcallable, typesText,
    typesText, hempty, htexts]

end

end Identifier

/-! ## Keys of what is read -/

open PathSegment

namespace Identifier

/-- What is read has a path of words. -/
theorem exists_eq_ofPath_of_parse {text : String} {isMethod : Bool} {x : Identifier}
    (h : Identifier.parse text isMethod = .ok x) : ∃ outer last ps, x = ofPath isMethod outer last ps ∧
      ∀ l ∈ outer ++ [last], ∀ w ∈ l.name.words, IsWord w := by
  obtain ⟨tree, hd, -, -, rfl⟩ := derives_of_parse h
  refine ⟨_, _, _, rfl, ?_⟩
  rw [tree.map_converted_segments, List.forall_mem_map]
  have hwords : ∀ t ∈ (tokenize text).dropLast, t.kind = .name → IsWord t.text := fun t ht =>
    isWord_text 0 _ t (List.dropLast_subset _ ht)
  generalize (tokenize text).dropLast = ts at hd hwords
  obtain ⟨hderives, -⟩ := hd
  exact hderives.isWord (List.forall_mem_append.mp hwords).1

/-- A member that is read has a path of words, and what is around it the path without its last level. -/
theorem exists_path_of_parse {text : String} {isMethod : Bool} {x p : Identifier}
    (h : Identifier.parse text isMethod = .ok x) (hp : x.parent? = some p) : ∃ path s last ps,
      x = ofPath isMethod (path ++ [s]) last ps ∧ p = ofPath false path s [] ∧
      ∀ l ∈ path ++ [s] ++ [last], ∀ w ∈ l.name.words, IsWord w := by
  obtain ⟨outer, last, ps, rfl, hwords⟩ := exists_eq_ofPath_of_parse h
  obtain ⟨path, s, rfl, rfl⟩ := exists_eq_append_of_parent?_ofPath hp
  exact ⟨path, s, last, ps, rfl, rfl, hwords⟩

end Identifier

/-- Members are identified by their keys.  Two members of one kind, each in something that is not
written as a constructor, have equal keys of what is around them and equal keys within it if and only
if their paths have the same levels, with as many generic parameters each, and their parameters have
the same types.  How the parameters are passed does not count, and an array suffix without dimensions
counts as one with one dimension. -/
theorem MemberId.keys_eq_iff {text text' : String} {x y : MemberId} {p q : Identifier}
    (hx : MemberId.parse text = .ok x) (hy : MemberId.parse text' = .ok y) (hkind : x.kind = y.kind)
    (hp : x.identifier.parent? = some p) (hq : y.identifier.parent? = some q)
    (hpname : ¬ SegmentName.IsConstructor p.name) (hqname : ¬ SegmentName.IsConstructor q.name) :
    ((p.canonical == q.canonical) = true ∧ x.identifier.signatureKey = y.identifier.signatureKey) ↔
      x.identifier.asClassPath.map Segment.shape = y.identifier.asClassPath.map Segment.shape ∧
      x.identifier.parameters.map (·.type.standard) = y.identifier.parameters.map (·.type.standard) := by
  obtain ⟨body, hbody⟩ := MemberId.exists_parse hx
  obtain ⟨body', hbody'⟩ := MemberId.exists_parse hy
  rw [← hkind] at hbody'
  have hbuilt := Identifier.built_of_parse hbody
  have hbuilt' := Identifier.built_of_parse hbody'
  obtain ⟨path, s, last, ps, hxpath, rfl, hwords⟩ := Identifier.exists_path_of_parse hbody hp
  obtain ⟨path', s', last', ps', hypath, rfl, hwords'⟩ := Identifier.exists_path_of_parse hbody' hq
  rw [hxpath] at hbuilt ⊢
  rw [hypath] at hbuilt' ⊢
  rw [List.forall_mem_append, List.forall_mem_singleton] at hwords hwords'
  have hparents : ((Identifier.ofPath false path s []).canonical ==
      (Identifier.ofPath false path' s' []).canonical) = true ↔
      (Identifier.ofPath false path s []).canonicalKey =
        (Identifier.ofPath false path' s' []).canonicalKey := @beq_iff_eq String _ _ _ _
  rw [hparents, Identifier.canonicalKey_ofPath_eq_iff hwords.1 hwords'.1 hpname hqname,
    Identifier.map_shape_asClassPath_ofPath, Identifier.map_shape_asClassPath_ofPath,
    map_toSegments_append_singleton _ (path ++ [s]),
    map_toSegments_append_singleton _ (path' ++ [s']), List.append_singleton_inj, and_assoc]
  -- What is around the members settles how many generic parameters are declared before their own.
  refine and_congr_right fun hpath => ⟨fun hkey => ?_, fun ⟨hshape, htypes⟩ => ?_⟩
  · exact Identifier.eq_of_signatureKey_ofPath_eq hwords.2 hwords'.2 hbuilt hbuilt' hkey
  · exact Identifier.signatureKey_ofPath_congr hwords.2 hwords'.2 (map_text_toSegments_congr hpath).1
      hshape htypes

/-- A generic method in a generic type, with an array that is passed in some way. -/
def genericMember (dimensions : Int) (kind : ParameterKind) : Identifier where
  classPath := [{ name := "N" }, { name := "C", typeParameters := ["T1"] }]
  name := "f"
  typeParameters := ["T2"]
  parameters := [{ type := .mk [.mk "A" [.simple ["T1"], .simple ["T2"]]] [dimensions], kind }]
  flags := .methodBit

theorem MemberId.keys_eq_iff_of_arrays : ∃ x y p q,
    MemberId.parse "M:N.C`1.f``1(A\x7b`0,``0\x7d[])" = .ok x ∧
    MemberId.parse "M:N.C`1.f``1(A\x7b`0,``0\x7d[0:]@)" = .ok y ∧
    x.identifier.parent? = some p ∧ y.identifier.parent? = some q ∧
    (p.canonical == q.canonical) = true ∧ x.identifier.signatureKey = y.identifier.signatureKey := by
  have hx : MemberId.parse "M:N.C`1.f``1(A\x7b`0,``0\x7d[])" =
      .ok ⟨.method, genericMember 0 .none⟩ := by cbv
  have hy : MemberId.parse "M:N.C`1.f``1(A\x7b`0,``0\x7d[0:]@)" =
      .ok ⟨.method, genericMember 1 .outBit⟩ := by cbv
  refine ⟨_, _, _, _, hx, hy, rfl, rfl, ?_⟩
  exact (MemberId.keys_eq_iff hx hy rfl rfl rfl (by decide) (by decide)).mpr ⟨rfl, rfl⟩

end ApiDocs
