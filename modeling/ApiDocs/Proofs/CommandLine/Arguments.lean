import ApiDocs.CommandLine.Arguments

/-!
# The files that a command line names

Files come to a request only as words, so every path in it is one that a text writes.

* `Request.exists_ofText_of_parse`: the files of a request are written by texts.
-/

namespace ApiDocs.CommandLine.Request

/-- Every file is a path that a text writes. -/
def Progress.HasWrittenFiles (p : Progress) : Prop :=
  ∀ path ∈ p.arguments.files, ∃ s, path = .ofText s

namespace Progress.HasWrittenFiles

variable {p : Progress}

theorem addFile (h : p.HasWrittenFiles) (text : String) : (p.addFile text).HasWrittenFiles := by
  rw [Progress.addFile]
  split
  · exact h
  · intro path hpath
    rcases List.mem_append.mp hpath with hpath | hpath
    · exact h path hpath
    · exact ⟨text, List.mem_singleton.mp hpath⟩

theorem separate (h : p.HasWrittenFiles) : p.separate.HasWrittenFiles := by
  rw [Progress.separate]
  split <;> exact h

theorem pass (h : p.HasWrittenFiles) : p.pass.HasWrittenFiles := by
  rw [Progress.pass]
  split <;> exact h

theorem set (h : p.HasWrittenFiles) (o : Switch) : (p.set o).HasWrittenFiles := by
  cases o <;> exact h

theorem setTo (h : p.HasWrittenFiles) (o : Switch) (value : String) :
    (p.setTo o value).HasWrittenFiles := by
  cases o <;> exact h

theorem foldl_set (h : p.HasWrittenFiles) (os : List Switch) :
    (os.foldl Progress.set p).HasWrittenFiles := by
  induction os generalizing p with
  | nil => exact h
  | cons o os ih => exact ih (h.set o)

end Progress.HasWrittenFiles

theorem exists_ofText_of_ofWords {p : Progress} {words : List Word} {a : Arguments}
    (hp : p.HasWrittenFiles) (h : ofWords p words = .ok (.reconcile a)) :
    ∀ path ∈ a.files, ∃ s, path = .ofText s := by
  fun_induction ofWords p words
  case case1 =>
    cases h
    exact hp
  case case3 ih => exact ih (hp.addFile _) h
  case case4 ih => exact ih hp.separate h
  case case5 ih => exact ih hp.pass h
  case case6 ih | case10 ih => exact ih (hp.pass.setTo _ _) h
  case case9 ih => exact ih (hp.pass.set _) h
  case case14 ih => exact ih (hp.pass.foldl_set _) h
  all_goals cases h

theorem exists_ofText_of_parse {words : List String} {a : Arguments}
    (h : parse words = .ok (.reconcile a)) : ∀ path ∈ a.files, ∃ s, path = .ofText s := by
  rw [parse] at h
  cases hwords : Word.ofTexts words with
  | error fault =>
    rw [hwords] at h
    cases h
  | ok ws =>
    rw [hwords] at h
    exact exists_ofText_of_ofWords (p := {}) nofun h

end ApiDocs.CommandLine.Request
