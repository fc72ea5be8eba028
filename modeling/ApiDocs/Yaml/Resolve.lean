import ApiDocs.Datum.Basic
import ApiDocs.Yaml.Bytes
import ApiDocs.Yaml.Numeral

/-!
# What scalars stand for

* `Kind.read`: what a text stands for that is said to be of a kind.

Some texts stand for nothing: a number that cannot be read, a day that is not in the calendar, and what is no
scalar at all.
-/

namespace ApiDocs.Yaml

/-- The truth values by their words in lower case. -/
def truthValues : List (String × Bool) :=
  [("yes", true), ("no", false), ("true", true), ("false", false), ("on", true), ("off", false)]

/-- The truth value that a text stands for. -/
def readBool (text : String) : Except Fault Bool :=
  match truthValues.lookup (Text.lower text) with
  | some b => .ok b
  | none => .error (.noEntry (Text.lower text))

/-- The timestamp that a text writes, if there is such a one. -/
def readTime (cs : List Char) : Except Fault Calendar.Timestamp :=
  match timestamp? (withoutLineFeed cs) with
  | some t => t.check.mapError .noTimestamp
  | none => .error .notTimestamp

/-- What a text stands for that is said to be of a kind. -/
def Kind.read (text : String) : Kind → Except Fault Datum
  | null => .ok .null
  | bool => .bool <$> readBool text
  | int => .int <$> readInt text.toList
  | float => .float <$> readFloat text.toList
  | time => .time <$> readTime text.toList
  | bytes => .bytes <$> readBytes text.toList
  | Kind.text => .ok (.text text)
  | list | pairs | set | map | merge | value | unknown => .error .malformedDocument

end ApiDocs.Yaml
