import ApiDocs.Proofs.Identifier.Numbering
import ApiDocs.Proofs.TypeRef.Text

/-!
# The texts of paths

The levels of a path stand behind one another with periods in between, each with its generic parameters
between angle brackets.  Which levels there are and how many generic parameters each of them has is known
from the text.

* `Identifier.text_eq_of_displayName`: the text of a declaration, as a path and parameters;
* `Segment.toldApart`: a level is told apart by its name and the number of its generic parameters;
* `Segment.map_shape_eq_of_intercalate_eq`: so are paths.
-/

namespace ApiDocs

open Text

namespace Identifier

/-- The name of a declaration goes on with its path. -/
theorem pathText_append (x : Identifier) : x.pathText ++ x.name ++ angled x.typeParameters =
    ".".intercalate (x.asClassPath.map Segment.text) := by
  rw [pathText, asClassPath, List.map_append, List.map_singleton, Segment.text]
  cases x.classPath with
  | nil =>
    rw [List.isEmpty_nil, if_pos rfl, List.map_nil, List.nil_append, String.empty_append,
      String.intercalate_singleton]
  | cons s path =>
    have hne : (s :: path).map Segment.text ≠ [] := List.cons_ne_nil _ _
    rw [List.isEmpty_cons, if_neg Bool.false_ne_true,
      String.intercalate_append_of_ne_nil hne (List.cons_ne_nil _ _), String.intercalate_singleton]
    simp only [String.append_assoc]

/-- A declaration that goes by its own name is written as its path and its parameters. -/
theorem text_eq_of_displayName {x : Identifier} (h : x.displayName = x.name) :
    x.text = ".".intercalate (x.asClassPath.map Segment.text) ++ x.parameterText := by
  show "" ++ x.pathText ++ x.displayName ++ angled x.typeParameters ++ x.parameterText = _
  rw [h, String.empty_append, pathText_append]

/-- What is no constructor goes by its own name. -/
theorem displayName_eq_name {x : Identifier} (h : x.flags.overlaps .anyConstructor = false) :
    x.displayName = x.name := by
  rw [displayName]
  split
  · rw [h, if_neg Bool.false_ne_true]
  · rfl

end Identifier

/-! ## Levels told apart -/

/-- The characters of the name of a level. -/
def isLevelRest (c : Char) : Bool := c == '#' || isNameRest c

/-- The characters by which a level goes on. -/
def levelGoesOn (c : Char) : Bool := c == '<' || isLevelRest c

namespace Segment

/-- The name of a level and the number of its generic parameters. -/
def shape (s : Segment) : String × Nat := (s.name, s.typeParameters.length)

/-- A level as it comes from a text: a name of words behind number signs, and words for its generic
parameters. -/
structure IsSpelled (s : Segment) : Prop where
  name : ∀ c ∈ s.name.toList, isLevelRest c = true
  typeParameters : ∀ a ∈ s.typeParameters, IsWord a

/-- The generic parameters of a level as types. -/
def types (s : Segment) : List TypeRef := s.typeParameters.map fun a => TypeRef.simple [a]

theorem toList_text (s : Segment) :
    s.text.toList = s.name.toList ++ (angled (s.types.map TypeRef.text)).toList := by
  have htext : ∀ a : String, (TypeRef.simple [a]).text = a := by
    intro a
    simp [TypeRef.simple, TypeRef.text_mk, TypeName.text_eq, TypeName.name, TypeName.arguments, angled,
      String.join]
  have htypes : s.types.map TypeRef.text = s.typeParameters := by
    rw [types, List.map_map]
    exact (List.map_congr_left fun a _ => htext a).trans (List.map_id' _)
  rw [htypes, text, String.toList_append]

theorem IsSpelled.built {s : Segment} (h : s.IsSpelled) : ∀ t ∈ s.types, t.Built IsWord := by
  rw [types, List.forall_mem_map]
  intro a ha
  refine .mk (List.cons_ne_nil _ _) ?_ ?_
  · rw [List.map_singleton, List.forall_mem_singleton]
    exact h.typeParameters a ha
  · rw [List.map_singleton, List.forall_mem_singleton]
    exact nofun

/-- The text of a level settles its name and how many generic parameters it has. -/
theorem toldApart {s s' : Segment} (hs : s.IsSpelled) (hs' : s'.IsSpelled) :
    ToldApart (fun s => s.text.toList) shape levelGoesOn s s' := by
  intro r r' hr hr' heq
  simp only [toList_text] at heq
  obtain ⟨hname, htypes, hrest⟩ := eq_of_named_append_eq (by decide) hs.name hs'.name
    (fun t ht u hu => TypeRef.toldApart (hs.built t ht) (hs'.built u hu)) hr hr' heq
  have hlength := congrArg List.length htypes
  simp only [types, List.length_map] at hlength
  exact ⟨by rw [shape, shape, hname, hlength], hrest⟩

/-- The text of a path settles its levels. -/
theorem map_shape_eq_of_intercalate_eq {path path' : List Segment} (hne : path ≠ [])
    (hne' : path' ≠ []) (h : ∀ s ∈ path, s.IsSpelled) (h' : ∀ s ∈ path', s.IsSpelled)
    (heq : ".".intercalate (path.map text) = ".".intercalate (path'.map text)) :
    path.map shape = path'.map shape := by
  have hchars := congrArg String.toList heq
  simp only [String.toList_intercalate, List.map_map] at hchars
  exact (toldApart_intercalate [] (by decide : levelGoesOn '.' = false) hne hne'
    (fun s hs s' hs' => toldApart (h s hs) (h' s' hs')) [] [] nofun nofun
    (congrArg (· ++ []) hchars)).1

end Segment

end ApiDocs
