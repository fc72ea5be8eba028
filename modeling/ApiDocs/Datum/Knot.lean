import ApiDocs.Datum.Basic

/-!
# Data that lie within themselves

What is taken out of a list or map that lies within itself can hold the mark of it. To stand alone, it needs the
list or map in the place of the mark.

* `Datum.closedBy`: a datum with what some marks belong to in their places;
* `Datum.opened`: a list or map whose parts can stand alone;
* `Datum.isMap`: whether a datum is a map, whether it lies within itself or not.
-/

namespace ApiDocs.Datum

mutual
/-- A datum with what some marks belong to in their places. A mark belongs to the list or map that is next around
it. -/
def closedBy (known : List (Nat × Datum)) : Datum → Datum
  | again mark isMap => (known.lookup mark).getD (again mark isMap)
  | knot mark whole => knot mark (whole.closedBy (known.filter fun e => e.1 != mark))
  | list xs => list (allClosedBy known xs)
  | pair a b => pair (a.closedBy known) (b.closedBy known)
  | map es => map (entriesClosedBy known es)
  | d => d
/-- Some data with what some marks belong to in their places. -/
def allClosedBy (known : List (Nat × Datum)) : List Datum → List Datum
  | [] => []
  | x :: xs => x.closedBy known :: allClosedBy known xs
/-- Some entries with what some marks belong to in their places. Keys have no marks. -/
def entriesClosedBy (known : List (Nat × Datum)) : List (Datum × Datum) → List (Datum × Datum)
  | [] => []
  | (k, v) :: es => (k, v.closedBy known) :: entriesClosedBy known es
end

/-- A list or map whose parts can stand alone; anything else is itself. -/
def opened : Datum → Datum
  | knot mark whole => whole.closedBy [(mark, knot mark whole)]
  | d => d

/-- Whether a datum is a map. -/
def isMap : Datum → Bool
  | map _ => true
  | knot _ whole => whole.isMap
  | again _ isMap => isMap
  | _ => false

mutual
/-- Without marks there is nothing to put in their places. -/
theorem closedBy_nil (d : Datum) : d.closedBy [] = d := by
  cases d with
  | again mark isMap => rfl
  | knot mark whole => simp only [closedBy, List.filter_nil, closedBy_nil whole]
  | list xs => simp only [closedBy, allClosedBy_nil xs]
  | pair a b => simp only [closedBy, closedBy_nil a, closedBy_nil b]
  | map es => simp only [closedBy, entriesClosedBy_nil es]
  | _ => rfl
theorem allClosedBy_nil (xs : List Datum) : allClosedBy [] xs = xs := by
  cases xs with
  | nil => rfl
  | cons x xs => simp only [allClosedBy, closedBy_nil x, allClosedBy_nil xs]
theorem entriesClosedBy_nil (es : List (Datum × Datum)) : entriesClosedBy [] es = es := by
  cases es with
  | nil => rfl
  | cons e es => simp only [entriesClosedBy, closedBy_nil e.2, entriesClosedBy_nil es]
end

end ApiDocs.Datum
