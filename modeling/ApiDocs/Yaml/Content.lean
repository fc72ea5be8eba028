import ApiDocs.Datum.Members
import ApiDocs.Yaml.Merge
import ApiDocs.Yaml.Resolve

/-!
# What the nodes of a document come to

The nodes are read level by level: a list or map is found in another one and waits, until everything found before it
is read. So of several faults the one that lies least deep counts, and of those the first. A node is read once,
wherever it stands.

* `Part`, `Content`: what stands in lists and maps, and what these hold;
* `Reading.ofGraph`: what all nodes come to that the first one reaches, or what is wrong with them.
-/

namespace ApiDocs.Yaml

/-- What stands in a list or map: a datum, or another list or map by its number. -/
inductive Part
  | whole (datum : Datum)
  | number (n : Nat)
deriving Inhabited

/-- What a list or map holds. -/
inductive Content
  | list (items : List Part)
  /-- The pairs have numbers of their own. -/
  | pairs (items : List (Nat × Part × Part))
  | map (entries : List (Datum × Part))
  | set (members : List Datum)
deriving Inhabited

/-- Whether what a list or map holds are the entries of a map. -/
def Content.isMap : Content → Bool
  | map _ => true
  | _ => false

/-- How far the nodes of a graph are read. -/
structure Reading where
  graph : Graph
  /-- How many marks of merging can lie within each other at most. -/
  limit : Nat
  /-- What the nodes that have been found come to where they stand. -/
  parts : Array (Option Part)
  /-- The lists and maps that have been found, in that order. -/
  found : Array Nat := #[]
  /-- What the lists and maps hold that have been read. -/
  contents : Array (Option Content)
  /-- The number of the next pair. -/
  next : Nat

/-- A step of reading. -/
abbrev ReadingStep := StateT Reading (Except Fault)

/-- What a node comes to that holds no others. A map may be taken for the scalar under its value mark, but not for a
timestamp. -/
def Graph.leaf (g : Graph) (n : Nat) : Except Fault Datum :=
  match g.node n with
  | .scalar kind text => kind.read text
  | .list .. => .error .malformedDocument
  | .map kind _ =>
    if kind ∈ [.unknown, .merge, .value] then .error .malformedDocument
    else do
      let text ← g.scalarText (g.size + 1) n
      if kind == .time then .error .notText else kind.read text

namespace Reading

/-- What a node comes to where it stands. A list or map that has not been found yet waits from now on. -/
def part (n : Nat) : ReadingStep Part := do
  match (← get).parts.getD n none with
  | some p => pure p
  | none =>
    let g := (← get).graph
    if (g.kind n).isCollection then
      modify fun r => { r with
        parts := r.parts.setIfInBounds n (some (.number n)), found := r.found.push n }
      pure (.number n)
    else
      let d ← g.leaf n
      modify fun r => { r with parts := r.parts.setIfInBounds n (some (.whole d)) }
      pure (.whole d)

/-- What an item of a list of pairs comes to, which is a map with one entry. -/
def pair (n : Nat) : ReadingStep (Nat × Part × Part) := do
  match (← get).graph.node n with
  | .map _ [(k, v)] => do
    let key ← part k
    let value ← part v
    let number := (← get).next
    modify fun r => { r with next := number + 1 }
    pure (number, key, value)
  | _ => throw .malformedDocument

/-- What an entry comes to. No list and no map is a key. -/
def entry (e : Nat × Nat) : ReadingStep (Datum × Part) := do
  match ← part e.1 with
  | .number _ => throw .malformedDocument
  | .whole key =>
    let value ← part e.2
    pure (key, value)

/-- What the entries of a map come to, with those that it merges. Of entries with the same key the last one counts, in
the place of the first. -/
def entries (n : Nat) : ReadingStep (List (Datum × Part)) := do
  let r ← get
  let g ← r.graph.merged r.limit n
  modify fun r => { r with graph := g }
  let es ← (g.entries n).mapM entry
  pure (Datum.putAll es)

/-- What a list or map holds. -/
def content (n : Nat) : ReadingStep Content := do
  match (← get).graph.node n with
  | .list .list items => Content.list <$> items.mapM part
  | .list .pairs items => Content.pairs <$> items.mapM pair
  | .map .map _ => Content.map <$> entries n
  | .map .set _ => (fun es => Content.set (es.map (·.1))) <$> entries n
  | _ => throw .malformedDocument

/-- Reads the lists and maps that have been found, from a place on, as many as may be left. -/
def rest : Nat → Nat → ReadingStep Unit
  | 0, _ => pure ()
  | left + 1, place => do
    match (← get).found[place]? with
    | none => pure ()
    | some n =>
      let c ← content n
      modify fun r => { r with contents := r.contents.setIfInBounds n (some c) }
      rest left (place + 1)

/-- What the first node comes to, and all nodes that it reaches. -/
def ofGraph (g : Graph) : Except Fault (Part × Reading) :=
  let start : Reading := {
    graph := g, limit := g.entryCount + 1
    parts := Array.replicate g.size none, contents := Array.replicate g.size none
    next := g.size }
  (do
    let p ← part 0
    rest g.size 0
    pure p).run start

end Reading

end ApiDocs.Yaml
