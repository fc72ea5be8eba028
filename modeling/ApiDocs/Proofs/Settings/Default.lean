import Mathlib
import ApiDocs.CommandLine.Run
import ApiDocs.Proofs.Logged

/-!
# The default settings

Every default setting passes its own check, and a run without a file of settings goes through all of its
files and hides nothing.

* `Settings.visibilities_default`, `Settings.failsFast_default`: single settings;
* `CommandLine.threshold_default`, `CommandLine.loadOptions_default`: what a run makes of all of them.
-/

namespace ApiDocs

theorem bitsOfNames_cons {β : Type} [OrOp β] {table : List (String × β)} {unknown : Datum → Fault}
    {d : Datum} {name : String} {bit : β} (hname : d.bitName = .ok name)
    (hbit : table.lookup name = some bit) (bits : β) (rest : List Datum) :
    bitsOfNames table unknown bits (d :: rest) = bitsOfNames table unknown (bits ||| bit) rest := by
  rw [bitsOfNames, hname]
  dsimp only [bind, Except.bind]
  rw [hbit]

namespace Settings

/-- By default nothing is hidden. -/
theorem visibilities_default : default.visibilities = .ok .allVisibilities := by
  have hget : default.get "include_visibility" =
      .list [.text "internal", .text "private", .text "protected", .text "public"] := by cbv
  have hnames : bitNamesOf (.list [.text "internal", .text "private", .text "protected",
      .text "public"]) =
      .ok [.text "internal", .text "private", .text "protected", .text "public"] := by cbv
  have hinternal : (Datum.text "internal").bitName = .ok "INTERNAL" := by cbv
  have hprivate : (Datum.text "private").bitName = .ok "PRIVATE" := by cbv
  have hprotected : (Datum.text "protected").bitName = .ok "PROTECTED" := by cbv
  have hpublic : (Datum.text "public").bitName = .ok "PUBLIC" := by cbv
  rw [visibilities, hget]
  refine bind_eq_ok_iff.mpr ⟨_, hnames, ?_⟩
  rw [bitsOfNames_cons hinternal rfl, bitsOfNames_cons hprivate rfl, bitsOfNames_cons hprotected rfl,
    bitsOfNames_cons hpublic rfl]
  rfl

/-- By default a failure does not end a run. -/
theorem failsFast_default : default.failsFast = false := by cbv

end Settings

namespace CommandLine

/-- The default level is known. -/
theorem threshold_default : threshold .default false = .ok LogLevel.info.weight := by
  have hlevel : Settings.default.levelName = .ok "INFO" := by cbv
  rw [threshold, if_neg Bool.false_ne_true, hlevel]
  rfl

/-- By default sources are loaded as they are when nothing is asked for. -/
theorem loadOptions_default (s : Source) (sources : List Source) :
    loadOptions .default (s :: sources) = .ok {} := by
  have hskips : Settings.default.skipsCompilerGenerated = true := by cbv
  have hprefixes : Settings.default.prefixes = .ok Prefixes.default := by cbv
  rw [loadOptions, Settings.visibilities_default, hprefixes, hskips]
  rfl

end CommandLine

end ApiDocs
