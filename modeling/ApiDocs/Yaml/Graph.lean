import ApiDocs.Fault
import ApiDocs.Yaml.Kind

/-!
# The graph of a document

A document is a graph of nodes, since a node that has a name can stand in many places, also within itself. The nodes
have numbers in the order in which they begin, and a list or map holds its parts by their numbers.

* `Node`: a scalar, a list or a map, with its kind;
* `Graph.node`, `Graph.set`: the node with a number;
* `Graph.scalarText`: the scalar that a node is taken for.
-/

namespace ApiDocs.Yaml

/-- A value of a document. -/
inductive Node
  | scalar (kind : Kind) (text : String)
  | list (kind : Kind) (items : List Nat)
  | map (kind : Kind) (entries : List (Nat × Nat))
deriving Inhabited

namespace Node

/-- The kind of a node. -/
def kind : Node → Kind
  | scalar kind _ | list kind _ | map kind _ => kind

/-- The entries of a map; anything else has none. -/
def entries : Node → List (Nat × Nat)
  | map _ entries => entries
  | _ => []

/-- A value that is left out is an empty scalar. -/
def empty : Node := scalar .null ""

end Node

/-- The nodes of a document by their numbers. -/
structure Graph where
  nodes : Array Node := #[]

namespace Graph

/-- How many nodes there are. -/
def size (g : Graph) : Nat := g.nodes.size

/-- The node with a number. -/
def node (g : Graph) (n : Nat) : Node := g.nodes.getD n .empty

/-- The kind of the node with a number. -/
def kind (g : Graph) (n : Nat) : Kind := (g.node n).kind

/-- The entries of the map with a number. -/
def entries (g : Graph) (n : Nat) : List (Nat × Nat) := (g.node n).entries

/-- A graph with one more node, which has the next number. -/
def push (g : Graph) (x : Node) : Graph := ⟨g.nodes.push x⟩

/-- A graph with another node in the place of one. -/
def set (g : Graph) (n : Nat) (x : Node) : Graph := ⟨g.nodes.setIfInBounds n x⟩

/-- A graph in which a map has other entries. -/
def setEntries (g : Graph) (n : Nat) (entries : List (Nat × Nat)) : Graph := g.set n (.map (g.kind n) entries)

/-- The scalar that a node is, or that stands under the value mark of a map. Maps that mark each other have none
and end nowhere, as going through more maps than there are nodes shows. -/
def scalarText (g : Graph) : Nat → Nat → Except Fault String
  | 0, _ => .error .endless
  | left + 1, n =>
    match g.node n with
    | .scalar _ text => .ok text
    | .list .. => .error .malformedDocument
    | .map _ entries =>
      match entries.find? fun e => g.kind e.1 == .value with
      | some (_, v) => g.scalarText left v
      | none => .error .malformedDocument

end Graph

end ApiDocs.Yaml
