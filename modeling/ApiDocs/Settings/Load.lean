import ApiDocs.LogEntry
import ApiDocs.Logged
import ApiDocs.Settings.Basic
import ApiDocs.Storage.View
import ApiDocs.Yaml.Reader

/-!
# Settings from files

* `Settings.load`: the default settings with those of a file over them.
-/

namespace ApiDocs

/-- The default settings with those of a file over them. No path stands for no file. A file that is not
there is noted, and the default settings are used. -/
def Settings.load (view : View) (path : String) : Logged Fault LogEntry Settings :=
  if path.isEmpty then pure .default
  else do
    match ← Logged.ofExcept (view (.ofText path)) with
    | none =>
      Logged.emit (.noConfig path)
      pure .default
    | some _ =>
      let content ← Logged.ofExcept (view.read (.ofText path))
      let document ← Logged.ofExcept (Datum.ofYaml content)
      Logged.ofExcept (Settings.default.updateWith document)

end ApiDocs
