import ApiDocs.Catalog.Merge
import ApiDocs.Source.Documentation
import ApiDocs.Source.Structural

/-!
# Loading sources

Both halves of a source are merged, and the merged sources are united. A source that fails
contributes nothing; the others are loaded all the same.

* `Source.load`: the merged catalog of one source;
* `loadSources`: the union of the sources that loaded, and the failures of those that did not.
-/

namespace ApiDocs

/-- A fault that no record explains. -/
def Work.unexplained {α : Type} (x : Work α) : LoadWork α := x.mapError .other

/-- The merged catalog of a source. -/
def Source.load (options : LoadOptions) (s : Source) : LoadWork Catalog := do
  let structural ← Catalog.ofStructural s.name options s.structural
  let documentation ← Catalog.ofDocumentation s.name s.documentation
  Work.unexplained (structural.merge documentation)

/-- The union of what is loaded so far with the catalog of a source. -/
def uniteSource (name : String) (loaded merged : Catalog) : Except LoadError Catalog :=
  match loaded.union merged with
  | .ok c => .ok c
  | .error (.duplicate key) => .error (.source ⟨name, .clash key⟩)
  | .error fault => .error (.other fault)

/-- What loading came to. -/
structure LoadResult where
  catalog : Catalog
  failures : List SourceError

/-- Whether every source was loaded. -/
def LoadResult.isComplete (r : LoadResult) : Bool := r.failures.isEmpty

/-- Loads a source into what is loaded so far. -/
def loadOne (options : LoadOptions) (loaded : Catalog) (s : Source) : LoadWork Catalog := do
  let merged ← s.load options
  let united ← Logged.ofExcept (uniteSource s.name loaded merged)
  Logged.emit (.sourceLoaded s.name merged.size)
  pure united

/-- Loads sources one after another. With `failFast` the first failure ends it. -/
def loadFrom (options : LoadOptions) (failFast : Bool) (result : LoadResult) :
    List Source → LoadWork LoadResult
  | [] => pure result
  | s :: rest =>
    let step := loadOne options result.catalog s
    match step.outcome with
    | .ok catalog => do
      Logged.emitAll step.log
      loadFrom options failFast { result with catalog } rest
    | .error (.other fault) => do
      Logged.emitAll step.log
      throw (.other fault)
    | .error (.source e) => do
      Logged.emitAll step.log
      Logged.emit (.sourceFailed s.name e.message)
      if failFast then throw (.source e)
      else loadFrom options failFast { result with failures := result.failures ++ [e] } rest

/-- Loads all sources. -/
def loadSources (options : LoadOptions) (failFast : Bool) (sources : List Source) :
    LoadWork LoadResult :=
  loadFrom options failFast ⟨.empty, []⟩ sources

end ApiDocs
