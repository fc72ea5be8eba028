import ApiDocs.Fault

/-!
# Documentation text

Documentation can be given as a text, as a list of texts, which are its lines, or as anything else, of which it is
the text. Lists can stand within lists. Null and whatever comes out empty are no line.

* `Datum.written`: the text of a datum, unless a number in it is too long;
* `Datum.prose`: the documentation text that a datum gives, if it gives one.
-/

namespace ApiDocs.Datum

open Text

/-- The text of a datum, if no number in it is too long. -/
def written (d : Datum) : Except Fault String :=
  if d.isWritable then .ok d.toText else .error .unwritableNumber

/-- A text, or none when it is empty. -/
def nonempty? (s : String) : Option String := if s.isEmpty then none else some s

mutual
/-- The documentation text of a datum within lists with some marks. One of these lists would never come to an
end. -/
def proseWithin (known : List (Nat × Datum)) : Datum → Except Fault (Option String)
  | null => .ok none
  | list xs => do .ok (nonempty? ("\n".intercalate (← prosesWithin known xs)))
  | knot mark (list xs) => do
    let whole := (knot mark (list xs)).closedBy known
    .ok (nonempty? ("\n".intercalate (← prosesWithin ((mark, whole) :: known) xs)))
  | again .. => .error .endless
  | d => do .ok (nonempty? (strip (← (d.closedBy known).written)))
/-- The documentation texts of those items that have one. -/
def prosesWithin (known : List (Nat × Datum)) : List Datum → Except Fault (List String)
  | [] => .ok []
  | x :: xs => do
    let line ← x.proseWithin known
    let lines ← prosesWithin known xs
    .ok (line.toList ++ lines)
end

/-- The documentation text of a datum that stands alone: a list gives the texts of its items line by line, anything
else its own text without the blanks at both ends; null and whatever comes out empty give none. -/
def prose (d : Datum) : Except Fault (Option String) := d.proseWithin []

end ApiDocs.Datum
