/-! # Errors of the JSON reader

A JSON error names what went wrong and where: the line, counted from 1, and the column, the
number of bytes since the last line break. Errors fall into three categories: the text ended
early (`eof`), the text is no JSON (`malformed`), or it is JSON of a shape that is no expression
(`data`).
-/

namespace MiniLisp.Json

/-- A place in JSON text: the line from 1, the column in bytes after the last line break. -/
structure Pos where
  line : Nat
  column : Nat
  deriving Repr, DecidableEq, Inhabited

namespace Pos

/-- The start of the text. -/
def start : Pos := ⟨1, 0⟩

/-- The place after a character. -/
def next (p : Pos) (c : Char) : Pos :=
  if c = '\n' then ⟨p.line + 1, 0⟩ else ⟨p.line, p.column + c.utf8Size⟩

/-- The place after the first byte of a character. -/
def nextByte (p : Pos) (c : Char) : Pos :=
  if c = '\n' then ⟨p.line + 1, 0⟩ else ⟨p.line, p.column + 1⟩

/-- The place after some characters. -/
def skip (p : Pos) (cs : List Char) : Pos := cs.foldl next p

/-- The place `n` bytes into `cs`, or at its end if it is shorter; a character cut in two
counts the bytes of it that are passed. -/
def skipBytes : Pos → List Char → Nat → Pos
  | p, [], _ => p
  | p, _ :: _, 0 => p
  | p, c :: r, n + 1 =>
    if c.utf8Size ≤ n + 1 then skipBytes (p.next c) r (n + 1 - c.utf8Size)
    else ⟨p.line, p.column + (n + 1)⟩

end Pos

/-- A JSON value that is no expression. -/
inductive Unexpected where
  | map
  | bool (b : Bool)
  | unit
  deriving Repr, DecidableEq, Inhabited

/-- How an error message names an unexpected value. -/
def Unexpected.describe : Unexpected → String
  | .map => "map"
  | .bool b => "boolean `" ++ (if b then "true" else "false") ++ "`"
  | .unit => "null"

/-- What went wrong reading JSON. -/
inductive Fault where
  | eofWhileList
  | eofWhileObject
  | eofWhileString
  | eofWhileValue
  | expectedCommaOrEnd
  | expectedIdent
  | expectedValue
  | invalidEscape
  | invalidNumber
  | numberOutOfRange
  | controlCharacter
  | loneLeadingSurrogate
  | trailingComma
  | trailingCharacters
  | unexpectedEndOfEscape
  | recursionLimit
  /-- Well-formed JSON of a kind no expression has. -/
  | invalidType (found : Unexpected)
  deriving Repr, DecidableEq, Inhabited

/-- The three categories of JSON errors. -/
inductive Category where
  | eof | malformed | data
  deriving Repr, DecidableEq, Inhabited

namespace Fault

/-- The category of a fault. -/
def category : Fault → Category
  | .eofWhileList | .eofWhileObject | .eofWhileString | .eofWhileValue => .eof
  | .invalidType _ => .data
  | _ => .malformed

/-- The wording of a fault. -/
def message : Fault → String
  | .eofWhileList => "EOF while parsing a list"
  | .eofWhileObject => "EOF while parsing an object"
  | .eofWhileString => "EOF while parsing a string"
  | .eofWhileValue => "EOF while parsing a value"
  | .expectedCommaOrEnd => "expected `,` or `]`"
  | .expectedIdent => "expected ident"
  | .expectedValue => "expected value"
  | .invalidEscape => "invalid escape"
  | .invalidNumber => "invalid number"
  | .numberOutOfRange => "number out of range"
  | .controlCharacter => "control character (\\u0000-\\u001F) found while parsing a string"
  | .loneLeadingSurrogate => "lone leading surrogate in hex escape"
  | .trailingComma => "trailing comma"
  | .trailingCharacters => "trailing characters"
  | .unexpectedEndOfEscape => "unexpected end of hex escape"
  | .recursionLimit => "recursion limit exceeded"
  | .invalidType u =>
    "invalid type: " ++ u.describe ++ ", expected a number, a string or an array of expressions"

end Fault

/-- A JSON error and where it happened. -/
structure Error where
  fault : Fault
  pos : Pos
  deriving Repr, DecidableEq, Inhabited

namespace Error

/-- The category of an error. -/
def category (e : Error) : Category := e.fault.category

/-- The message of an error, with its place. -/
def message (e : Error) : String :=
  e.fault.message ++ " at line " ++ toString e.pos.line ++ " column " ++ toString e.pos.column

end Error

/-- The name of a category. -/
def Category.name : Category → String
  | .eof => "eof"
  | .malformed => "syntax"
  | .data => "data"

end MiniLisp.Json
