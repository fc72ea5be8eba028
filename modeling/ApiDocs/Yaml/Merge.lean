import ApiDocs.Yaml.Graph

/-!
# Merging maps

An entry whose key is the merge mark brings the entries of other maps: those of a map, or of each map of a list, of
which the first goes over the others. What is brought comes before the entries of the map itself, which go over it.
In a map whose entries are merged, the value mark as a key is a text.

* `Graph.merged`: a graph in which the entries of a map are merged.

A map can bring its own entries, when it lies within itself. It then brings what it has by then, and its marks of
merging are gone before they are followed, so that there are fewer of them at every step inwards.
-/

namespace ApiDocs.Yaml.Graph

/-- Takes a key for a text, which is the value mark. -/
def withTextKey (g : Graph) (k : Nat) : Graph :=
  match g.node k with
  | .scalar _ text => g.set k (.scalar .text text)
  | .list _ items => g.set k (.list .text items)
  | .map _ entries => g.set k (.map .text entries)

mutual
/-- A graph in which the entries of a map are merged, where so many marks of merging lie within each other at
most. -/
def merged (limit n : Nat) (g : Graph) : Except Fault Graph :=
  match limit with
  | 0 => .error .endless
  | limit + 1 => mergedFrom limit n [] (g.entries n) [] g
termination_by (limit, 0, 0)

/-- A graph in which the entries of a map are merged, where some entries of it, last first, are looked at already,
and have brought others. -/
def mergedFrom (limit n : Nat) (done rest brought : List (Nat × Nat)) (g : Graph) : Except Fault Graph :=
  match rest with
  | [] => .ok (if brought.isEmpty then g else g.setEntries n (brought ++ g.entries n))
  | (k, v) :: rest =>
    match g.kind k with
    | .merge => do
      let own := done.reverseAux rest
      let (others, g) ← offered limit v (g.setEntries n own)
      if g.entries n = own then mergedFrom limit n done rest (brought ++ others) g
      else .ok (g.setEntries n (brought ++ others ++ g.entries n))
    | .value => mergedFrom limit n ((k, v) :: done) rest brought (g.withTextKey k)
    | _ => mergedFrom limit n ((k, v) :: done) rest brought g
termination_by (limit, 3, rest.length)

/-- The entries that a node offers to a map, and the graph in which they are merged. -/
def offered (limit n : Nat) (g : Graph) : Except Fault (List (Nat × Nat) × Graph) :=
  match g.node n with
  | .map .. => do
    let g ← merged limit n g
    .ok (g.entries n, g)
  | .list _ items => offeredBy limit items g
  | .scalar .. => .error .malformedDocument
termination_by (limit, 2, 0)

/-- The entries that some maps offer to another one, the last map first. -/
def offeredBy (limit : Nat) (maps : List Nat) (g : Graph) : Except Fault (List (Nat × Nat) × Graph) :=
  match maps with
  | [] => .ok ([], g)
  | n :: rest =>
    match g.node n with
    | .map .. => do
      let g ← merged limit n g
      let (others, g') ← offeredBy limit rest g
      .ok (others ++ g.entries n, g')
    | _ => .error .malformedDocument
termination_by (limit, 1, maps.length)
end

/-- How many entries there are in the maps of a graph, which is no less than how many of them can merge. -/
def entryCount (g : Graph) : Nat := g.nodes.foldl (fun count x => count + x.entries.length) 0

end ApiDocs.Yaml.Graph
