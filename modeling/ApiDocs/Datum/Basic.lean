import ApiDocs.Calendar.Text
import ApiDocs.Decimal.Binary64

/-!
# Plain data

What a document of records or settings holds: null, truth values, numbers, texts, timestamps, bytes, lists,
pairs, sets and maps. A list or a map can lie within itself. Then it has a mark, and where it stands again inside
of itself, only the mark is given.

* `Datum.same`: two data are the same value; a truth value is the number one or zero, a whole number is
  the same in either number format, and what is not a number is the same as itself;
* `Datum.equals`: the same, but what is not a number equals nothing, not even itself;
* `Datum.lookup`, `Datum.find?`: the value under a key of a map;
* `Datum.put`: a map keeps the place of a key that is written again.
-/

namespace ApiDocs

open Calendar (Timestamp)
open Decimal

/-- A value of a document. Map entries keep their order; no two of their keys are the same. Within a value that
stands alone, every mark that stands again belongs to a list or map around it. -/
inductive Datum
  | null
  | bool (value : Bool)
  | int (value : Int)
  | float (value : Binary64)
  | text (value : String)
  | time (value : Timestamp)
  | bytes (values : List UInt8)
  | list (items : List Datum)
  | pair (first second : Datum)
  /-- No two members are the same. -/
  | set (members : List Datum)
  | map (entries : List (Datum × Datum))
  /-- A list, pair or map that lies within itself. -/
  | knot (mark : Nat) (whole : Datum)
  /-- A list or map that lies around the place. -/
  | again (mark : Nat) (isMap : Bool)
deriving Inhabited

namespace Datum

/-- The name of the kind of a datum, as messages give it. -/
def kindName : Datum → String
  | null => "NoneType"
  | bool _ => "bool"
  | int _ => "int"
  | float _ => "float"
  | text _ => "str"
  | time t => t.kindName
  | bytes _ => "bytes"
  | list _ => "list"
  | pair .. => "tuple"
  | set _ => "set"
  | map _ => "dict"
  | knot _ whole => whole.kindName
  | again _ isMap => if isMap then "dict" else "list"

/-- The name of the kind in full. -/
def fullKindName : Datum → String
  | time t => "datetime." ++ t.kindName
  | d => d.kindName

/-- Null, false, zero and whatever is empty do not count as given. -/
def isGiven : Datum → Bool
  | null => false
  | bool b => b
  | int i => i != 0
  | float x => !x.isZero
  | text s => !s.isEmpty
  | time _ | pair .. | knot .. | again .. => true
  | bytes values => !values.isEmpty
  | list xs | set xs => !xs.isEmpty
  | map es => !es.isEmpty

/-- Whether a datum holds no other data, so that it can be a key. -/
def isScalar : Datum → Bool
  | list _ | pair .. | set _ | map _ | knot .. | again .. => false
  | _ => true

/-! ## Sameness -/

/-- A truth value or number as a fraction. -/
def fraction? : Datum → Option (Int × Nat)
  | bool b => some (if b then 1 else 0, 1)
  | int i => some (i, 1)
  | float x => x.fraction?
  | _ => none

/-- Sameness of two truth values or numbers. -/
def sameNumber (a b : Datum) : Bool :=
  match a.fraction?, b.fraction? with
  | some (n, d), some (n', d') => n * d' == n' * d
  | none, none =>
    match a, b with
    | float x, float y => x == y
    | _, _ => false
  | _, _ => false

mutual
/-- Whether two data are the same value; the order of a map's entries does not matter. -/
def same : Datum → Datum → Bool
  | null, null => true
  | text s, text t => s == t
  | time t, time u => t.same u
  | bytes xs, bytes ys => xs == ys
  | list xs, list ys => sameItems xs ys
  | pair a b, pair c d => a.same c && b.same d
  | set xs, set ys => xs.length == ys.length && eachAmong xs ys
  | map es, map es' => es.length == es'.length && eachIn es es'
  | knot mark d, knot mark' e => mark == mark' && d.same e
  | again mark _, again mark' _ => mark == mark'
  | a, b => sameNumber a b
/-- Sameness item by item. -/
def sameItems : List Datum → List Datum → Bool
  | [], [] => true
  | x :: xs, y :: ys => x.same y && sameItems xs ys
  | _, _ => false
/-- Whether each datum has its like among the others. -/
def eachAmong : List Datum → List Datum → Bool
  | [], _ => true
  | x :: xs, ys => ys.any x.same && eachAmong xs ys
/-- Whether each entry has its like among the others. -/
def eachIn : List (Datum × Datum) → List (Datum × Datum) → Bool
  | [], _ => true
  | (k, v) :: es, es' => es'.any (fun e => k.same e.1 && v.same e.2) && eachIn es es'
end

/-- Whether two data that stand alone equal each other. What is not a number equals nothing. -/
def equals (a b : Datum) : Bool :=
  match a with
  | float x => x.magnitude != .notANumber && a.same b
  | _ => a.same b

/-! ## Maps -/

/-- The value under a key, if the entries have it. -/
def lookup {α : Type} (key : Datum) (entries : List (Datum × α)) : Option α :=
  (entries.find? fun e => e.1.same key).map (·.2)

/-- The value under a text key, if the entries have it. -/
def find? (key : String) (entries : List (Datum × Datum)) : Option Datum :=
  lookup (.text key) entries

/-- Writes an entry: in the place of the same key, else at the end. The key first written stays. -/
def put {α : Type} (key : Datum) (value : α) : List (Datum × α) → List (Datum × α)
  | [] => [(key, value)]
  | (k, v) :: rest => if k.same key then (k, value) :: rest else (k, v) :: put key value rest

/-- Some entries written one after another; a later one replaces an earlier one. -/
def putAll {α : Type} (entries : List (Datum × α)) : List (Datum × α) :=
  entries.foldl (fun es e => put e.1 e.2 es) []

/-- The map of some entries. -/
def ofEntries (entries : List (Datum × Datum)) : Datum := map (putAll entries)

end Datum

end ApiDocs
