import ApiDocs.Fault

/-!
# Merging settings

Settings go over others key by key, and so on below every key under which both sides have a map.
Anything else replaces what was there. The prefixes of names that a compiler makes are collected from
both sides instead.

* `Datum.collect`: the items of two lists, each once, in ascending order;
* `Datum.mergeEntries`: the entries of one map over those of another;
* `Datum.mergeOver`: what comes of a datum that another one goes over.
-/

namespace ApiDocs.Datum

/-! ## Ascending order -/

/-- Texts by their symbols, truth values and numbers by value. -/
def isLess : Datum → Datum → Bool
  | text s, text t => s < t
  | a, b =>
    match a.fraction?, b.fraction? with
    | some (n, d), some (n', d') => n * d' < n' * d
    | _, _ => false

/-- Whether a datum is a text. -/
def isText : Datum → Bool
  | text _ => true
  | _ => false

/-- Whether a datum is a truth value or a number. -/
def isNumber : Datum → Bool
  | bool _ | int _ | float _ => true
  | _ => false

/-- Whether data can be put in order: texts among themselves, numbers among themselves, and whatever
stands alone. -/
def isOrdered (items : List Datum) : Bool :=
  items.length < 2 || items.all isText || items.all isNumber

/-- The items of a list that are not the same as an earlier one. -/
def distinct : List Datum → List Datum
  | [] => []
  | x :: xs => x :: (distinct xs).filter fun y => !y.same x

/-- The items of two lists, each once, in ascending order. -/
def collect (known added : List Datum) : Except Fault (List Datum) :=
  let items := known ++ added
  if !items.all isScalar then .error .notHashable
  else if !isOrdered (distinct items) then .error .notOrdered
  else .ok ((distinct items).mergeSort fun x y => !y.isLess x)

/-! ## Merging -/

/-- The key of the prefixes of names that a compiler makes. -/
def prefixesKey : String := "compiler_generated_prefixes"

mutual
/-- What stands under a key when a value goes over another one. -/
def mergeValue (key : Datum) (old : Option Datum) : Datum → Except Fault Datum
  | map update =>
    match old with
    | some (map base) => map <$> mergeEntries base update
    | _ => .ok (map update)
  | list added =>
    match old with
    | some (list known) =>
      if key.same (text prefixesKey) then list <$> collect known added else .ok (list added)
    | _ => .ok (list added)
  | knot mark (list added) =>
    match old with
    | some (list known) =>
      if key.same (text prefixesKey) then list <$> collect known added else .ok (knot mark (list added))
    | _ => .ok (knot mark (list added))
  | value => .ok value
/-- The entries of a map with those of another one over them. A key keeps its place. -/
def mergeEntries (base : List (Datum × Datum)) :
    List (Datum × Datum) → Except Fault (List (Datum × Datum))
  | [] => .ok base
  | (key, value) :: rest => do
    let merged ← mergeValue key (lookup key base) value
    mergeEntries (put key merged base) rest
end

/-- Why an entry cannot go over a list, whose items are asked for by their places. -/
def listFault (items : List Datum) (key value : Datum) : Fault :=
  if items.any (·.same key) then .noKeys
  else
    match value with
    | list _ => if key.same (text prefixesKey) then .noField else .noKeys
    | _ => .noKeys

/-- What comes of a datum that another one goes over. Both have to be maps, but nothing at all may go over
a list. -/
def mergeOver (update : Datum) : Datum → Except Fault Datum
  | map base =>
    match update with
    | map entries => map <$> mergeEntries base entries
    | _ => .error .noField
  | list items =>
    match update with
    | map [] => .ok (list items)
    | map ((key, value) :: _) => .error (listFault items key value)
    | _ => .error .noField
  | _ => .error .noField

end ApiDocs.Datum
