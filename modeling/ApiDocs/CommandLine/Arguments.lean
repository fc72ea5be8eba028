import ApiDocs.Storage.Path
import ApiDocs.Text.Digit
import ApiDocs.Text.Quoted

/-!
# Arguments of the command line

A word that begins with a hyphen is an option, by its full spelling or by the beginning of a long one that
fits no other. Two hyphens alone end the options. The other words are files; only those that stand
together at the first place where there are any are taken.

* `Word.ofText`: the role of a word;
* `Request.parse`: what a command line asks for.
-/

namespace ApiDocs.CommandLine

open Text

/-! ## Options -/

/-- The options of the command line. -/
inductive Switch
  | help
  | config
  | out
  | dryRun
  | verbose
deriving DecidableEq, Repr

namespace Switch

/-- All options, in the order in which they are explained. -/
def all : List Switch := [help, config, out, dryRun, verbose]

/-- The letter behind a single hyphen. -/
def letter? : Switch → Option Char
  | help => some 'h'
  | verbose => some 'v'
  | _ => none

/-- The spelling with two hyphens. -/
def longSpelling : Switch → String
  | help => "--help"
  | config => "--config"
  | out => "--out"
  | dryRun => "--dry-run"
  | verbose => "--verbose"

/-- All spellings. -/
def spellings (o : Switch) : List String :=
  (o.letter?.map fun c => String.ofList ['-', c]).toList ++ [o.longSpelling]

/-- Whether the option needs a value. -/
def takesValue : Switch → Bool
  | config | out => true
  | _ => false

/-- The option of a letter. -/
def ofLetter? (c : Char) : Option Switch := all.find? (·.letter? == some c)

/-- The option of a full spelling. -/
def ofSpelling? (s : String) : Option Switch := all.find? (s ∈ ·.spellings)

end Switch

/-! ## Faults -/

/-- What is wrong with a command line. -/
inductive UsageFault
  /-- The beginning of a spelling fits several options. -/
  | ambiguous (written : String) (options : List Switch)
  | missingValue (option : Switch)
  /-- A value is given to an option that takes none. -/
  | needlessValue (option : Switch) (value : String)
  | unrecognized (words : List String)
deriving DecidableEq, Repr

/-- The wording of a fault. -/
def UsageFault.message : UsageFault → String
  | ambiguous written options =>
    "ambiguous option: " ++ written ++ " could match "
      ++ ", ".intercalate (options.map Switch.longSpelling)
  | missingValue option =>
    "argument " ++ "/".intercalate option.spellings ++ ": expected one argument"
  | needlessValue option value =>
    "argument " ++ "/".intercalate option.spellings ++ ": ignored explicit argument " ++ quoted value
  | unrecognized words => "unrecognized arguments: " ++ " ".intercalate words

/-! ## Words -/

/-- A word of a command line by its role. -/
inductive Word
  /-- A file or a value. -/
  | operand (text : String)
  /-- The mark behind which there are no options. -/
  | separator
  | option (o : Switch)
  /-- An option with a value behind an equals sign. -/
  | optionWith (o : Switch) (value : String)
  /-- An option by its letter, with more letters behind it. -/
  | cluster (o : Switch) (more : List Char)
  | unknown (text : String)
deriving DecidableEq, Repr

namespace Word

/-- What stands before and behind the first equals sign, if there is one. -/
def splitEquals : List Char → List Char × Option (List Char)
  | [] => ([], none)
  | c :: cs =>
    if c == '=' then ([], some cs)
    else
      let (before, behind) := splitEquals cs
      (c :: before, behind)

/-- An option, with its value if one is given. -/
def ofOption (o : Switch) (value : Option (List Char)) : Word :=
  match value with
  | none => .option o
  | some cs => .optionWith o (String.ofList cs)

/-- An option by its letter, with what is written behind the equals sign. It is read as more letters, if
there is anything. -/
def ofLetter (o : Switch) (value : List Char) : Word :=
  if value.isEmpty then .optionWith o "" else .cluster o value

/-- A text without the line feed it ends with, if it ends with one. -/
def withoutLastLineFeed : List Char → List Char
  | [] => []
  | ['\n'] => []
  | c :: cs => c :: withoutLastLineFeed cs

/-- Whether a text is a number without a sign: digits of any script, or a point with digits behind it. -/
def isUnsignedNumber (cs : List Char) : Bool :=
  match cs.dropWhile isDecimalDigit with
  | [] => !cs.isEmpty
  | '.' :: fraction => !fraction.isEmpty && fraction.all isDecimalDigit
  | _ => false

/-- Whether a text is a negative number. A line feed at its end does not count. -/
def isNegativeNumber : List Char → Bool
  | '-' :: cs => isUnsignedNumber (withoutLastLineFeed cs)
  | _ => false

/-- The role of a word that begins with a hyphen and is no spelling of an option. -/
def ofUnknown (s : String) : Word :=
  if isNegativeNumber s.toList || s.contains ' ' then .operand s else .unknown s

/-- The role of a word that begins with two hyphens, by the beginning of a spelling. -/
def ofAbbreviation (s : String) : Except UsageFault Word :=
  let (start, value) := splitEquals s.toList
  match Switch.all.filter fun o => start.isPrefixOf o.longSpelling.toList with
  | [] => .ok (ofUnknown s)
  | [o] => .ok (ofOption o value)
  | options => .error (.ambiguous s options)

/-- The role of a word. -/
def ofText (s : String) : Except UsageFault Word :=
  match s.toList with
  | '-' :: c :: cs =>
    match Switch.ofSpelling? s with
    | some o => .ok (.option o)
    | none =>
      let (start, value) := splitEquals s.toList
      match value, Switch.ofSpelling? (String.ofList start) with
      | some value, some o =>
        .ok (if c == '-' then .optionWith o (String.ofList value) else ofLetter o value)
      | _, _ =>
        if c == '-' then ofAbbreviation s
        else
          match Switch.ofLetter? c with
          | some o => .ok (.cluster o cs)
          | none => .ok (ofUnknown s)
  | _ => .ok (.operand s)

/-- The roles of all words. -/
def ofTexts : List String → Except UsageFault (List Word)
  | [] => .ok []
  | s :: rest =>
    if s == "--" then .ok (.separator :: rest.map .operand)
    else do
      let word ← ofText s
      .ok (word :: (← ofTexts rest))

end Word

/-! ## Requests -/

/-- What a run is asked to do. -/
structure Arguments where
  files : List Path := []
  config : String := ""
  out : Option Path := none
  dryRun : Bool := false
  verbose : Bool := false
deriving DecidableEq, Repr

/-- What a command line asks for. -/
inductive Request
  | help
  | reconcile (arguments : Arguments)
deriving DecidableEq, Repr

namespace Request

/-- Where the words for files stand: ahead, here, or behind. -/
inductive Place
  | ahead
  | here
  | behind
deriving DecidableEq, Repr

/-- How far a command line is read. -/
structure Progress where
  arguments : Arguments := {}
  place : Place := .ahead
  leftOver : List String := []

namespace Progress

/-- Behind an option the words for files are over, if there were any. -/
def pass (p : Progress) : Progress := if p.place = .here then { p with place := .behind } else p

/-- A word that nothing is known about. -/
def leave (p : Progress) (text : String) : Progress :=
  { p with leftOver := p.leftOver ++ [text] }

/-- A word for a file, where files are still taken. -/
def addFile (p : Progress) (text : String) : Progress :=
  if p.place = .behind then p.leave text
  else
    { p with
      place := .here
      arguments := { p.arguments with files := p.arguments.files ++ [.ofText text] } }

/-- The mark behind which there are no options. -/
def separate (p : Progress) : Progress :=
  if p.place = .behind then p.leave "--" else { p with place := .here }

/-- An option without a value. Help is no matter of settings. -/
def set (p : Progress) (o : Switch) : Progress :=
  match o with
  | .dryRun => { p with arguments := { p.arguments with dryRun := true } }
  | .verbose => { p with arguments := { p.arguments with verbose := true } }
  | _ => p

/-- An option with its value. Two hyphens are no value. -/
def setTo (p : Progress) (o : Switch) (value : String) : Progress :=
  let value? := if value == "--" then none else some value
  match o with
  | .config => { p with arguments := { p.arguments with config := value?.getD "" } }
  | .out => { p with arguments := { p.arguments with out := value?.map .ofText } }
  | _ => p

end Progress

/-- The options of a cluster from its first on. Nothing but letters of options may stand in it. -/
def clusterOptions (o : Switch) : List Char → Except UsageFault (List Switch)
  | [] => .ok [o]
  | c :: cs =>
    match Switch.ofLetter? c with
    | none => .error (.needlessValue o (String.ofList (c :: cs)))
    | some next => (o :: ·) <$> clusterOptions next cs

/-- Reads words one after another. Help is given as soon as it is asked for. -/
def ofWords (p : Progress) : List Word → Except UsageFault Request
  | [] => if p.leftOver.isEmpty then .ok (.reconcile p.arguments) else .error (.unrecognized p.leftOver)
  | .operand text :: rest => ofWords (p.addFile text) rest
  | .separator :: rest => ofWords p.separate rest
  | .unknown text :: rest => ofWords (p.pass.leave text) rest
  | .option o :: rest =>
    if o.takesValue then
      match rest with
      | .operand value :: rest => ofWords (p.pass.setTo o value) rest
      | _ => .error (.missingValue o)
    else if o = .help then .ok .help
    else ofWords (p.pass.set o) rest
  | .optionWith o value :: rest =>
    if o.takesValue then ofWords (p.pass.setTo o value) rest else .error (.needlessValue o value)
  | .cluster o more :: rest =>
    match clusterOptions o more with
    | .error fault => .error fault
    | .ok options =>
      if Switch.help ∈ options then .ok .help else ofWords (options.foldl Progress.set p.pass) rest

/-- What a command line asks for. -/
def parse (words : List String) : Except UsageFault Request := do ofWords {} (← Word.ofTexts words)

end Request

end ApiDocs.CommandLine
