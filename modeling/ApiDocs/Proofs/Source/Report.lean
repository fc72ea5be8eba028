import Mathlib.Data.List.Forall2
import ApiDocs.Source.Error

/-!
# Reports on failures

Failures are reported together: how many they are, and then one entry for each of them.

* `SourceError.IsEntry`, `SourceError.IsReport`: what is said about one failure and about all of them;
* `SourceError.isReport_aggregate`: the message for several failures is such a report.
-/

namespace ApiDocs

open Text

/-- Lines that are put together, and the end of the last one. -/
theorem intercalate_append_eq_join {lines : List String} (hne : lines ≠ []) :
    "\n".intercalate lines ++ "\n" = String.join (lines.map (· ++ "\n")) := by
  induction lines with
  | nil => exact absurd rfl hne
  | cons line lines ih =>
    rw [List.map_cons, String.join_cons]
    rcases eq_or_ne lines [] with rfl | hmore
    · rw [String.intercalate_singleton, List.map_nil, String.join_nil, String.append_empty]
    · rw [String.intercalate_cons_of_ne_nil hmore, ← ih hmore, String.append_assoc]

namespace SourceError

/-- What is said about a failure: the source, the text to blame in quotes if there is one, and the words
for the problem. -/
inductive IsEntry (e : SourceError) (entry : String) : Prop
  | blamed {identifier : String} (h : e.problem.identifier? = some identifier) (hne : identifier ≠ "")
    (hentry : entry = e.source ++ ": " ++ quoted identifier ++ ": " ++ e.problem.message)
  | plain (h : ∀ identifier, e.problem.identifier? = some identifier → identifier = "")
    (hentry : entry = e.source ++ ": " ++ e.problem.message)

/-- A line with the number of failures, and below it one entry for each of them, in order. -/
def IsReport (failures : List SourceError) (report : String) : Prop :=
  ∃ entries, List.Forall₂ IsEntry failures entries ∧
    report = toString failures.length ++ " source(s) failed to load:\n" ++
      String.join (entries.map fun entry => "  - " ++ entry ++ "\n")

theorem isEntry_message (e : SourceError) : e.IsEntry e.message := by
  rw [message]
  split
  · next hempty =>
    refine .plain (fun identifier h => ?_) rfl
    rwa [h, Option.getD_some] at hempty
  · next identifier hne =>
    cases hidentifier : e.problem.identifier? with
    | none =>
      rw [hidentifier] at hne
      exact absurd rfl hne
    | some identifier =>
      rw [hidentifier] at hne
      exact .blamed hidentifier hne rfl

theorem isReport_aggregate (failures : List SourceError) :
    IsReport failures (aggregate failures ++ "\n") := by
  refine ⟨failures.map message, ?_, ?_⟩
  · exact List.forall₂_map_right_iff.mpr (List.forall₂_same.mpr fun e _ => e.isEntry_message)
  · have hheader : " source(s) failed to load:\n" = " source(s) failed to load:" ++ "\n" := rfl
    rw [aggregate, intercalate_append_eq_join (List.cons_ne_nil _ _), List.map_cons, String.join_cons,
      List.map_map, List.map_map, hheader, ← String.append_assoc]
    rfl

end SourceError

end ApiDocs
