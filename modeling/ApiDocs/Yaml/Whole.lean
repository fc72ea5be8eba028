import ApiDocs.Yaml.Content

/-!
# Documents as wholes

* `Graph.datum`: the datum that the first node of a graph comes to, with everything in it in its place. A list or map
  that lies within itself has its number as its mark.
-/

namespace ApiDocs.Yaml

/-- The data that have been put together by their numbers; only such that do not lie within themselves. -/
abbrev Wholes := Array (Option Datum)

/-- A datum, and the marks in it that belong to lists and maps around it. -/
structure Fragment where
  datum : Datum
  marks : List Nat := []

namespace Fragment

/-- The marks of some fragments, each once. -/
def marksOf (fragments : List Fragment) : List Nat :=
  fragments.foldl (fun marks p => p.marks.foldl (fun marks m => marks.insert m) marks) []

/-- A list of some fragments. -/
def list (fragments : List Fragment) : Fragment := ⟨.list (fragments.map datum), marksOf fragments⟩

/-- A pair of two fragments. -/
def pair (a b : Fragment) : Fragment := ⟨.pair a.datum b.datum, marksOf [a, b]⟩

/-- A map of some fragments under keys. -/
def map (entries : List (Datum × Fragment)) : Fragment :=
  ⟨.map (entries.map fun e => (e.1, e.2.datum)), marksOf (entries.map (·.2))⟩

/-- What is put together of a list, pair or map. It needs its mark if there are marks in it. -/
def closed (p : Fragment) (n : Nat) : Fragment :=
  if p.marks.isEmpty then p else ⟨.knot n p.datum, p.marks.filter (· != n)⟩

end Fragment

/-- What a content comes to whose parts come to fragments. -/
def Content.fragment (part : Part → StateM Wholes Fragment) : Content → StateM Wholes Fragment
  | list items => Fragment.list <$> items.mapM part
  | pairs items => Fragment.list <$> items.mapM fun (n, a, b) => do
    let first ← part a
    let second ← part b
    pure ((Fragment.pair first second).closed n)
  | map entries => Fragment.map <$> entries.mapM fun (k, v) => do
    let value ← part v
    pure (k, value)
  | set members => pure ⟨.ofMembers members, []⟩

/-- What a list or map comes to within some others, as many as may be left lying in it. -/
def fragment (contents : Array (Option Content)) : Nat → List Nat → Nat → StateM Wholes Fragment
  | 0, _, _ => pure ⟨.null, []⟩
  | left + 1, around, n => do
    let c := (contents.getD n none).getD (.list [])
    if n ∈ around then pure ⟨.again n c.isMap, [n]⟩
    else
      match (← get).getD n none with
      | some d => pure ⟨d, []⟩
      | none =>
        let body ← c.fragment fun
          | .whole d => pure ⟨d, []⟩
          | .number m => fragment contents left (n :: around) m
        if body.marks.isEmpty then modify fun ws => ws.setIfInBounds n (some body.datum)
        pure (body.closed n)

/-- The datum that the first node of a graph comes to. -/
def Graph.datum (g : Graph) : Except Fault Datum := do
  match ← Reading.ofGraph g with
  | (.whole d, _) => .ok d
  | (.number n, r) =>
    let whole := Id.run ((fragment r.contents (g.size + 1) [] n).run (Array.replicate g.size none))
    .ok whole.1.datum

end ApiDocs.Yaml
