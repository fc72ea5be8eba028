import ApiDocs.Decimal.Limit
import ApiDocs.Yaml.Scalar
import ApiDocs.Yaml.ScanFault
import ApiDocs.Yaml.Tag

/-!
# Directives

Lines in front of a document that begin with a percent sign say by which version of the format it is
written, and what the handles of tags stand for. Other directives mean nothing here.

* `Directive.read`: a directive behind its percent sign, with the end of its line.
-/

namespace ApiDocs.Yaml

/-- A line in front of a document. -/
inductive Directive
  /-- The version of the format, of which only the number in front of the point counts. -/
  | version (major : Nat)
  | handle (name beginning : String)
  | other
deriving DecidableEq, Repr

namespace Directive

/-- The number that decimal digits write, unless they are too many. -/
def ofDigits (cs : List Char) : Except ScanFault Nat :=
  if Decimal.maxDigits < cs.length then .error (.longNumber cs.length)
  else .ok (cs.foldl (fun n c => 10 * n + (c.toNat - 0x30)) 0)

/-- A number of a version. -/
def number (s : List Spot) : Except ScanFault (Nat × List Spot) :=
  let (cs, left) := span (·.isDigit) s
  if cs.isEmpty then .error .malformed else (ofDigits cs).map fun n => (n, left)

/-- The two numbers of a version. -/
def version? (s : List Spot) : Except ScanFault (Directive × List Spot) := do
  let (major, left) ← number (skip (· == ' ') s)
  if peek left != '.' then .error .malformed
  else
    let (_, left) ← number (left.drop 1)
    .ok (version major, left)

/-- A handle and what it stands for. -/
def handle? (s : List Spot) : Option (Directive × List Spot) :=
  (Tag.handle? (skip (· == ' ') s)).bind fun (name, left) =>
    if peek left != ' ' then none
    else
      (identifier? (skip (· == ' ') left)).map fun (beginning, left) => (handle name beginning, left)

/-- What a directive says behind its name. -/
def value (name : List Char) (s : List Spot) : Except ScanFault (Directive × List Spot) :=
  if String.ofList name == "YAML" then version? s
  else if String.ofList name == "TAG" then ScanFault.require (handle? s)
  else .ok (other, skip (fun c => !isBreakOrEnd c) s)

/-- A directive behind its percent sign, with the end of its line. -/
def read (s : List Spot) : Except ScanFault (Directive × List Spot) := do
  let (name, left) ← ScanFault.require (word? s)
  if !Tag.endsWord (peek left) then .error .malformed
  else
    let (directive, left) ← value name left
    let behind := skipComment left
    if !Tag.endsWord (peek left) || !isBreakOrEnd (peek behind) then .error .malformed
    else .ok (directive, if isBreak (peek behind) then behind.drop 1 else behind)

/-! ## A directive takes characters -/

theorem length_le_of_number {s left : List Spot} {n : Nat} (h : number s = .ok (n, left)) :
    left.length ≤ s.length := by
  have hs := length_span_le (·.isDigit) s
  simp only [number] at h
  split at h
  · cases h
  · cases hd : ofDigits (span (·.isDigit) s).1 with
    | error e => simp [hd, Except.map] at h
    | ok m =>
      simp only [hd, Except.map, Except.ok.injEq, Prod.mk.injEq] at h
      rw [← h.2]
      exact hs

theorem length_le_of_version? {s left : List Spot} {d : Directive} (h : version? s = .ok (d, left)) :
    left.length ≤ s.length := by
  have hs := length_skip_le (· == ' ') s
  unfold version? at h
  cases h₁ : number (skip (· == ' ') s) with
  | error e => simp [h₁, bind, Except.bind] at h
  | ok r =>
    have := length_le_of_number h₁
    simp only [h₁, bind, Except.bind] at h
    split at h
    · cases h
    · cases h₂ : number (r.2.drop 1) with
      | error e =>
        rw [h₂] at h
        cases h
      | ok r' =>
        have := length_le_of_number h₂
        simp only [h₂, Except.ok.injEq, Prod.mk.injEq] at h
        simp only [List.length_drop] at this
        rw [← h.2]
        omega

theorem length_le_of_handle? {s left : List Spot} {d : Directive} (h : handle? s = some (d, left)) :
    left.length ≤ s.length := by
  have hs := length_skip_le (· == ' ') s
  obtain ⟨⟨name, left₁⟩, h₁, h⟩ := Option.bind_eq_some_iff.mp h
  have := Tag.length_le_of_handle? h₁
  rw [List.length_drop] at this
  dsimp only at h
  split at h
  · cases h
  · obtain ⟨⟨beginning, left₂⟩, h₂, e⟩ := Option.map_eq_some_iff.mp h
    have := length_le_of_identifier? h₂
    have := length_skip_le (· == ' ') left₁
    cases e
    exact Nat.le_trans ‹left₂.length ≤ _› (by omega)

theorem length_le_of_value {name : List Char} {s left : List Spot} {d : Directive}
    (h : value name s = .ok (d, left)) : left.length ≤ s.length := by
  unfold value at h
  split at h
  · exact length_le_of_version? h
  · split at h
    · exact length_le_of_handle? (ScanFault.require_eq_ok h)
    · cases h
      exact length_skip_le _ s

theorem length_le_of_read {s left : List Spot} {d : Directive} (h : read s = .ok (d, left)) :
    left.length ≤ s.length := by
  have hw := length_span_le isNameChar s
  unfold read at h
  cases h₁ : word? s with
  | none => simp [h₁, ScanFault.require, bind, Except.bind] at h
  | some r =>
    have hr : r.2.length ≤ s.length := by
      simp only [word?] at h₁
      grind
    simp only [h₁, ScanFault.require, bind, Except.bind] at h
    split at h
    · cases h
    · cases h₂ : value r.1 r.2 with
      | error e => simp [h₂] at h
      | ok r' =>
        have := length_le_of_value h₂
        have := length_skipComment_le r'.2
        simp only [h₂] at h
        grind [List.length_drop]

end Directive

end ApiDocs.Yaml
