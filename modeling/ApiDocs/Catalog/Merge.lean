import ApiDocs.Catalog.Connect

/-!
# Merging documentation into structure

The catalog of what code declares and the catalog of what its documentation says become one. A type
that both have is the structural type with the documented text; a type that one side has stays as it
is.

* `MergeContext.claim`: the documented type for an identifier, from then on claimed;
* `MergeContext.leftovers`: the documented types that nobody claimed;
* `Catalog.merge`: the merged catalog, with the counts of the merge in the log.
-/

namespace ApiDocs

/-- The state of a merge: which documented types are claimed, and what was counted. -/
structure MergeContext where
  documentation : Catalog
  /-- The keys of the claimed types. -/
  applied : List String := []
  matched : Nat := 0
  structuralOnly : Nat := 0
  documentationOnly : Nat := 0
  unmatchedMembers : Nat := 0

namespace MergeContext

/-- The documented type for an identifier, which is claimed by asking. -/
def claim (ctx : MergeContext) (x : Identifier) : Option TypeDoc × MergeContext :=
  match ctx.documentation.find? x with
  | none => (none, ctx)
  | some t => (some t, { ctx with applied := x.canonicalKey :: ctx.applied.erase x.canonicalKey })

/-- The claimed keys in ascending order. -/
def appliedKeys (ctx : MergeContext) : List String := ctx.applied.mergeSort

/-- The documented types that nobody claimed, in the order of their keys. -/
def leftovers (ctx : MergeContext) : List TypeDoc :=
  (ctx.documentation.table.entries.filter fun e => !ctx.applied.contains e.1).map (·.2)

/-- Merges one structural type with its documentation, if there is some. -/
def mergeType (ctx : MergeContext) (t : TypeDoc) : Work (TypeDoc × MergeContext) :=
  match ctx.claim t.identifier with
  | (none, ctx) => pure (t, { ctx with structuralOnly := ctx.structuralOnly + 1 })
  | (some documented, ctx) => do
    let unmatched := t.unmatched documented
    Logged.emitAll (unmatched.map fun m => .unmatchedMember m.identifier.text)
    pure (t.merge documented,
      { ctx with
        matched := ctx.matched + 1
        unmatchedMembers := ctx.unmatchedMembers + unmatched.length })

/-- Merges structural types one after another. -/
def mergeTypes (ctx : MergeContext) : List TypeDoc → Work (List TypeDoc × MergeContext)
  | [] => pure ([], ctx)
  | t :: rest => do
    let (t, ctx) ← ctx.mergeType t
    let (rest, ctx) ← ctx.mergeTypes rest
    pure (t :: rest, ctx)

end MergeContext

namespace Catalog

/-- The merged types and the final state of the merge. -/
def mergedTypes (structural documentation : Catalog) : Work (List TypeDoc × MergeContext) := do
  let (types, ctx) ← MergeContext.mergeTypes { documentation } structural.types
  let leftovers := ctx.leftovers
  pure (types ++ leftovers, { ctx with documentationOnly := leftovers.length })

/-- The catalog of structure with the text of documentation. -/
def merge (structural documentation : Catalog) : Work Catalog := do
  let (types, ctx) ← mergedTypes structural documentation
  Logged.emit (.merged types.length ctx.matched ctx.structuralOnly ctx.documentationOnly
    ctx.unmatchedMembers)
  Logged.ofExcept (ofTypes types)

end Catalog

end ApiDocs
