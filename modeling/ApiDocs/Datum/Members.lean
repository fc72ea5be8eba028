import ApiDocs.Datum.Basic

/-!
# The order of the members of a set

The members of a set lie in a table of places, whose size is a power of two. A number has the place that is left of its
residue by the size, unless another member lies there. Only for numbers the order is known, whatever else is among the
members; other members stay in the order in which they are given.

* `Datum.residue?`: the residue of a number;
* `Datum.ofMembers`: the set of some data, no two of which are the same.
-/

namespace ApiDocs.Datum

/-- The prime number by which residues are taken. -/
def residuePrime : Nat := (1 <<< 61) - 1

/-- The residue of infinity. -/
def residueOfInfinity : Int := 314159

/-- The residue of a truth value or number, with its sign. A fraction has a power of two below, by which the residue
is divided. No residue is minus one. -/
def residue? (d : Datum) : Option Int :=
  match d with
  | float x =>
    match x.magnitude with
    | .infinite => some (if x.isNegative then -residueOfInfinity else residueOfInfinity)
    | .notANumber => none
    | .finite .. => d.fraction?.map ofFraction
  | d => d.fraction?.map ofFraction
where
  ofFraction (f : Int × Nat) : Int :=
    let half := 1 <<< (61 - Nat.log2 f.2 % 61)
    let r : Int := (f.1.natAbs * half % residuePrime : Nat)
    let r := if f.1 < 0 then -r else r
    if r == -1 then -2 else r

/-- The size of the table of a set with so many members. -/
def tableSize (count : Nat) : Nat :=
  if count ≤ 4 then 8 else 1 <<< (Nat.log2 (2 * count) + 1)

/-- How many places behind a taken one are tried before another part of the table. -/
def neighbours : Nat := 9

/-- The first free one of some places. -/
def free? (taken : List Nat) (places : List Nat) : Option Nat := places.find? fun p => p ∉ taken

/-- A free place in a table, from a place on. Of a residue without sign the digits that have not been used decide
where to go on. -/
def freePlace (size : Nat) (taken : List Nat) : Nat → Nat → Nat → Nat
  | 0, place, _ => place
  | left + 1, place, digits =>
    let run := if place + neighbours < size then List.range (neighbours + 1) else [0]
    match free? taken (run.map (place + ·)) with
    | some p => p
    | none =>
      let digits := digits >>> 5
      freePlace size taken left ((place * 5 + 1 + digits) % size) digits

/-- The members by their places, where each takes a place that those before it have left. -/
def placed (size : Nat) : List (Nat × Datum) → List (Int × Datum) → List (Nat × Datum)
  | taken, [] => taken
  | taken, (residue, d) :: rest =>
    let digits := (residue % (1 <<< 64 : Nat)).toNat
    let place := freePlace size (taken.map (·.1)) (size + 13) (digits % size) digits
    placed size (taken ++ [(place, d)]) rest

/-- The set of some data, no two of which are the same. -/
def ofMembers (members : List Datum) : Datum :=
  match members.mapM fun d => d.residue?.map fun r => (r, d) with
  | none => set members
  | some residues =>
    let places := placed (tableSize members.length) [] residues
    set ((places.mergeSort fun a b => a.1 ≤ b.1).map (·.2))

end ApiDocs.Datum
