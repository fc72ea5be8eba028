import ApiDocs.Storage.View

/-!
# Trees of files

A table of files by the parts of their paths. A directory is there when it is listed or holds something.
The table is all there is: outside of it no file is found.

* `Tree.find?`: what is found under a path, where double dots lead back to the directory above;
* `Tree.view`: the same within the limits of paths.
-/

namespace ApiDocs

/-- Files and directories by the parts of their paths. -/
structure Tree where
  entries : List (List String × Entry)

namespace Tree

/-- What stands at a place, if anything. -/
def entry? (t : Tree) (place : List String) : Option Entry :=
  match t.entries.lookup place with
  | some e => some e
  | none =>
    if place.isEmpty || t.entries.any fun e => place.isPrefixOf e.1 then some .directory else none

/-- Follows parts from a directory on, as far as every step leads to something. Places above the tree
are directories in which nothing is found. -/
def follow (t : Tree) (place : Option (List String)) : List String → Option (Option (List String))
  | [] => some place
  | ".." :: rest =>
    match place with
    | some place => if place.isEmpty then follow t none rest else follow t (some place.dropLast) rest
    | none => follow t none rest
  | part :: rest =>
    match place with
    | none => none
    | some place =>
      match t.entry? (place ++ [part]) with
      | none => none
      | some (.file _) => if rest.isEmpty then some (some (place ++ [part])) else none
      | some .directory => follow t (some (place ++ [part])) rest

/-- What is found under a path. -/
def find? (t : Tree) (path : Path) : Option Entry :=
  match t.follow (if path.root.isEmpty then some [] else none) path.parts with
  | none => none
  | some none => some .directory
  | some (some place) => t.entry? place

/-- What is found under each path within the limits. -/
def view (t : Tree) : View := .ofLookup t.find?

end Tree

end ApiDocs
