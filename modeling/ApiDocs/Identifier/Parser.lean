import ApiDocs.Identifier.ParseFault
import ApiDocs.Token.Lexer

/-!
# Parser of member ids

The grammar, in which a text in quotes is a token:

    identifier  ::= path parameters?
    path        ::= segment ("." segment)*
    segment     ::= name (mark NUMBER)?
    name        ::= "#" NAME | "##" NAME | NAME ("#" NAME)*
    parameters  ::= "(" (argument "@"? ("," argument "@"?)*)? ")"
    argument    ::= (mark NUMBER | type) array*
    type        ::= typeName ("." typeName)*
    typeName    ::= NAME ("{" argument ("," argument)* "}")?
    array       ::= "[" (NUMBER ":" ("," NUMBER ":")*)? "]"
    mark        ::= "`" | "``"

Every production looks one token ahead, so the first token that cannot go on is the one a fault
names. Each returns what it has read together with the tokens left, fewer than it was given.

* `Identifier.parse`: the identifier that a text writes;
* `TypeRef.parse`: the type that a text writes, with given generic names.
-/

namespace ApiDocs

namespace Grammar

/-- What a production has read, and the tokens it has left. -/
abbrev Taken (α : Type) (ts : List Token) := { r : α × List Token // r.2.length < ts.length }

/-- What a production that may read nothing has read, and the tokens it has left. -/
abbrev Passed (α : Type) (ts : List Token) := { r : α × List Token // r.2.length ≤ ts.length }

/-- The fault of finding a token where something else was expected. -/
def refuse (t : Token) (what : Expectation) : ParseFault :=
  .name ⟨if t.kind = .unknown then .unrecognized t.text else .expected what, t.start⟩

/-- The token that stands next. -/
def ahead (ts : List Token) : Token := ts.headD (Token.endAt 0)

/-- The number that a token of digits writes. -/
def numberOf (t : Token) : Except ParseFault Nat :=
  if Decimal.maxDigits < t.length then .error (.longNumber t.length)
  else .ok (t.lexeme.foldl (fun n x => 10 * n + (x.number - 0x30)) 0)

/-- Takes a token of one kind. -/
def expect (kind : TokenKind) (what : Expectation) : (ts : List Token) →
    Except ParseFault (Taken Token ts)
  | [] => .error (refuse (Token.endAt 0) what)
  | t :: rest => if t.kind = kind then .ok ⟨(t, rest), by simp⟩ else .error (refuse t what)

/-! ## Paths -/

/-- The parts of a name behind its first one. -/
def nameParts (ts : List Token) : Except ParseFault (Passed (List String) ts) :=
  match ts with
  | [] => .ok ⟨([], []), by simp⟩
  | t :: rest =>
    if t.kind = .sharp then
      match expect .name .interfaceName rest with
      | .error e => .error e
      | .ok ⟨(part, rest'), h⟩ =>
        match nameParts rest' with
        | .error e => .error e
        | .ok ⟨(parts, left), h'⟩ =>
          .ok ⟨(part.text :: parts, left), by simp at h h' ⊢; omega⟩
    else .ok ⟨([], t :: rest), by simp⟩
termination_by ts.length
decreasing_by simp at h ⊢; omega

/-- The name of a level. -/
def segmentName (ts : List Token) : Except ParseFault (Taken SegmentName ts) :=
  match ts with
  | [] => .error (refuse (Token.endAt 0) .memberName)
  | t :: rest =>
    match t.kind with
    | .sharp =>
      match expect .name .specialName rest with
      | .error e => .error e
      | .ok ⟨(name, left), h⟩ => .ok ⟨(.special name.text, left), by simp at h ⊢; omega⟩
    | .doubleSharp =>
      match expect .name .classSpecialName rest with
      | .error e => .error e
      | .ok ⟨(name, left), h⟩ => .ok ⟨(.classSpecial name.text, left), by simp at h ⊢; omega⟩
    | .name =>
      match nameParts rest with
      | .error e => .error e
      | .ok ⟨(parts, left), h⟩ => .ok ⟨(.hashed t.text parts, left), by simp at h ⊢; omega⟩
    | _ => .error (refuse t .memberName)

/-- The mark and number of generic parameters, if a mark stands next. -/
def generics (ts : List Token) : Except ParseFault (Passed (Option (Mark × Nat)) ts) :=
  match ts with
  | [] => .ok ⟨(none, []), by simp⟩
  | t :: rest =>
    match t.kind.mark? with
    | none => .ok ⟨(none, t :: rest), by simp⟩
    | some mark =>
      match expect .number (.arity mark) rest with
      | .error e => .error e
      | .ok ⟨(number, left), h⟩ =>
        match numberOf number with
        | .error e => .error e
        | .ok n => .ok ⟨(some (mark, n), left), by simp at h ⊢; omega⟩

/-- A level of a path. -/
def segment (ts : List Token) : Except ParseFault (Taken PathSegment ts) :=
  match segmentName ts with
  | .error e => .error e
  | .ok ⟨(name, rest), h⟩ =>
    match generics rest with
    | .error e => .error e
    | .ok ⟨(declared, left), h'⟩ => .ok ⟨(⟨name, declared⟩, left), by simp at h h' ⊢; omega⟩

/-- A path: the levels before the last, and the last. -/
def path (ts : List Token) : Except ParseFault (Taken (List PathSegment × PathSegment) ts) :=
  match segment ts with
  | .error e => .error e
  | .ok ⟨(first, []), h⟩ => .ok ⟨(([], first), []), h⟩
  | .ok ⟨(first, t :: rest), h⟩ =>
    if t.kind = .period then
      match path rest with
      | .error e => .error e
      | .ok ⟨((outer, last), left), h'⟩ =>
        .ok ⟨((first :: outer, last), left), by simp at h h' ⊢; omega⟩
    else .ok ⟨(([], first), t :: rest), h⟩
termination_by ts.length
decreasing_by simp at h; omega

/-! ## Array suffixes -/

/-- The dimensions of an array with lower bounds, at least one. -/
def dimensions (ts : List Token) : Except ParseFault (Taken Nat ts) :=
  match expect .number .dimension ts with
  | .error e => .error e
  | .ok ⟨(_, rest), h⟩ =>
    match expect .colon .dimensionColon rest with
    | .error e => .error e
    | .ok ⟨(_, []), h'⟩ => .ok ⟨(1, []), by simp at h h' ⊢; omega⟩
    | .ok ⟨(_, t :: rest'), h'⟩ =>
      if t.kind = .comma then
        match dimensions rest' with
        | .error e => .error e
        | .ok ⟨(n, left), h''⟩ => .ok ⟨(n + 1, left), by simp at h h' h'' ⊢; omega⟩
      else .ok ⟨(1, t :: rest'), by simp at h h' ⊢; omega⟩
termination_by ts.length
decreasing_by simp at h h'; omega

/-- What stands behind the left bracket of an array suffix. -/
def arrayBody (ts : List Token) : Except ParseFault (Taken Nat ts) :=
  if (ahead ts).kind = .rightBracket then
    match expect .rightBracket .rightBracket ts with
    | .error e => .error e
    | .ok ⟨(_, left), h⟩ => .ok ⟨(0, left), h⟩
  else
    match dimensions ts with
    | .error e => .error e
    | .ok ⟨(n, rest), h⟩ =>
      match expect .rightBracket .rightBracket rest with
      | .error e => .error e
      | .ok ⟨(_, left), h'⟩ => .ok ⟨(n, left), by simp at h h' ⊢; omega⟩

/-- The array suffixes that stand next. -/
def arrays (ts : List Token) : Except ParseFault (Passed (List Int) ts) :=
  match ts with
  | [] => .ok ⟨([], []), by simp⟩
  | t :: rest =>
    if t.kind = .leftBracket then
      match arrayBody rest with
      | .error e => .error e
      | .ok ⟨(n, rest'), h⟩ =>
        match arrays rest' with
        | .error e => .error e
        | .ok ⟨(more, left), h'⟩ => .ok ⟨((n : Int) :: more, left), by simp at h h' ⊢; omega⟩
    else .ok ⟨([], t :: rest), by simp⟩
termination_by ts.length
decreasing_by simp at h ⊢; omega

/-! ## Arguments -/

/-- The generic name that a reference behind a mark means. -/
def reference (scope : Scope) (mark : Mark) (ts : List Token) :
    Except ParseFault (Taken String ts) :=
  match expect .number (.genericIndex mark) ts with
  | .error e => .error e
  | .ok ⟨(number, left), h⟩ =>
    match numberOf number with
    | .error e => .error e
    | .ok index =>
      match (scope.names mark)[index]? with
      | some name => .ok ⟨(name, left), h⟩
      | none =>
        .error (.name ⟨.outOfRange index (scope.names mark).length, number.start⟩)

mutual
/-- The type of an argument. -/
def argument (scope : Scope) (ts : List Token) : Except ParseFault (Taken TypeRef ts) :=
  match (ahead ts).kind.mark? with
  | some mark =>
    match ts with
    | [] => .error (refuse (Token.endAt 0) .typeName)
    | _ :: rest =>
      match reference scope mark rest with
      | .error e => .error e
      | .ok ⟨(name, rest'), h⟩ =>
        match arrays rest' with
        | .error e => .error e
        | .ok ⟨(suffixes, left), h'⟩ =>
          .ok ⟨(.mk [.mk name []] suffixes, left), by simp at h h' ⊢; omega⟩
  | none =>
    match typePath scope ts with
    | .error e => .error e
    | .ok ⟨(names, rest), h⟩ =>
      match arrays rest with
      | .error e => .error e
      | .ok ⟨(suffixes, left), h'⟩ => .ok ⟨(.mk names suffixes, left), by simp at h h' ⊢; omega⟩
termination_by (ts.length, 2)

/-- The dotted names of a type. -/
def typePath (scope : Scope) (ts : List Token) : Except ParseFault (Taken (List TypeName) ts) :=
  match typeName scope ts with
  | .error e => .error e
  | .ok ⟨(name, []), h⟩ => .ok ⟨([name], []), h⟩
  | .ok ⟨(name, t :: rest), h⟩ =>
    if t.kind = .period then
      match typePath scope rest with
      | .error e => .error e
      | .ok ⟨(names, left), h'⟩ => .ok ⟨(name :: names, left), by simp at h h' ⊢; omega⟩
    else .ok ⟨([name], t :: rest), h⟩
termination_by (ts.length, 1)
decreasing_by
  · decreasing_tactic
  · apply Prod.Lex.left
    simp at h
    omega

/-- One name of a type with its generic arguments. -/
def typeName (scope : Scope) (ts : List Token) : Except ParseFault (Taken TypeName ts) :=
  match expect .name .typeName ts with
  | .error e => .error e
  | .ok ⟨(name, []), h⟩ => .ok ⟨(.mk name.text [], []), h⟩
  | .ok ⟨(name, t :: rest), h⟩ =>
    if t.kind = .leftBrace then
      match genericArguments scope rest with
      | .error e => .error e
      | .ok ⟨(arguments, rest'), h'⟩ =>
        match expect .rightBrace .rightBrace rest' with
        | .error e => .error e
        | .ok ⟨(_, left), h''⟩ =>
          .ok ⟨(.mk name.text arguments, left), by simp at h h' h'' ⊢; omega⟩
    else .ok ⟨(.mk name.text [], t :: rest), h⟩
termination_by (ts.length, 0)
decreasing_by
  apply Prod.Lex.left
  simp at h
  omega

/-- Arguments between braces, at least one. -/
def genericArguments (scope : Scope) (ts : List Token) :
    Except ParseFault (Taken (List TypeRef) ts) :=
  match argument scope ts with
  | .error e => .error e
  | .ok ⟨(first, []), h⟩ => .ok ⟨([first], []), h⟩
  | .ok ⟨(first, t :: rest), h⟩ =>
    if t.kind = .comma then
      match genericArguments scope rest with
      | .error e => .error e
      | .ok ⟨(more, left), h'⟩ => .ok ⟨(first :: more, left), by simp at h h' ⊢; omega⟩
    else .ok ⟨([first], t :: rest), h⟩
termination_by (ts.length, 3)
decreasing_by
  · decreasing_tactic
  · apply Prod.Lex.left
    simp at h
    omega
end

/-! ## Parameters -/

/-- Whether an argument is passed out, as the sign behind it says. -/
def outMark (ts : List Token) : Passed ParameterKind ts :=
  match ts with
  | [] => ⟨(.none, []), by simp⟩
  | t :: rest =>
    if t.kind = .atSign then ⟨(.outBit, rest), by simp⟩ else ⟨(.none, t :: rest), by simp⟩

/-- The parameters between parentheses, at least one. -/
def parameterList (scope : Scope) (ts : List Token) :
    Except ParseFault (Taken (List Parameter) ts) :=
  match argument scope ts with
  | .error e => .error e
  | .ok ⟨(type, rest), h⟩ =>
    match outMark rest with
    | ⟨(kind, []), h'⟩ => .ok ⟨([⟨type, none, kind⟩], []), by simp at h h' ⊢; omega⟩
    | ⟨(kind, t :: rest'), h'⟩ =>
      if t.kind = .comma then
        match parameterList scope rest' with
        | .error e => .error e
        | .ok ⟨(more, left), h''⟩ =>
          .ok ⟨(⟨type, none, kind⟩ :: more, left), by simp at h h' h'' ⊢; omega⟩
      else .ok ⟨([⟨type, none, kind⟩], t :: rest'), by simp at h h' ⊢; omega⟩
termination_by ts.length
decreasing_by simp at h h'; omega

/-- The parameters, if a left parenthesis stands next. -/
def parameters (scope : Scope) (ts : List Token) :
    Except ParseFault (Passed (List Parameter) ts) :=
  match ts with
  | [] => .ok ⟨([], []), by simp⟩
  | t :: rest =>
    if t.kind = .leftParen then
      if (ahead rest).kind = .rightParen then
        match expect .rightParen .rightParen rest with
        | .error e => .error e
        | .ok ⟨(_, left), h⟩ => .ok ⟨([], left), by simp at h ⊢; omega⟩
      else
        match parameterList scope rest with
        | .error e => .error e
        | .ok ⟨(list, rest'), h⟩ =>
          match expect .rightParen .rightParen rest' with
          | .error e => .error e
          | .ok ⟨(_, left), h'⟩ => .ok ⟨(list, left), by simp at h h' ⊢; omega⟩
    else .ok ⟨([], t :: rest), by simp⟩

end Grammar

open Grammar

/-- The identifier that a list of tokens up to the end of input writes. -/
def Identifier.parseTokens (isMethod : Bool) (ts : List Token) : Except ParseFault Identifier :=
  match path ts with
  | .error e => .error e
  | .ok ⟨((outer, last), rest), _⟩ =>
    match Grammar.parameters (Scope.ofPath (outer ++ [last])) rest with
    | .error e => .error e
    | .ok ⟨(list, rest'), _⟩ =>
      match expect .endOfInput .endOfName rest' with
      | .error e => .error e
      | .ok _ => .ok (Identifier.ofPath isMethod outer last list)

/-- The identifier that a text writes, without the prefix of its kind. -/
def Identifier.parse (text : String) (isMethod : Bool := false) : Except ParseFault Identifier :=
  Identifier.parseTokens isMethod (Token.tokenize text)

/-- The type that a text writes; references count among the names of a scope. -/
def TypeRef.parse (text : String) (scope : Scope := {}) : Except ParseFault TypeRef :=
  match argument scope (Token.tokenize text) with
  | .error e => .error e
  | .ok ⟨(type, rest), _⟩ =>
    match expect .endOfInput .endOfType rest with
    | .error e => .error e
    | .ok _ => .ok type

end ApiDocs
