import MiniLisp.Text.Quoted
import MiniLisp.Fault

/-! # Tokens of program text

Program text splits into parentheses, string literals `"…"` (any characters but `"`, line
breaks included, no escapes) and words over ASCII letters, digits and `_+-*/<>=%.`. Space,
tab, carriage return, line feed and form feed separate tokens; any other character is an
error at its byte offset, and so is a string literal that is never closed.

* `tokenize`: the tokens of a text, or the first error.
* `SyntaxError.message`: the wording of each error.
-/

namespace MiniLisp

/-- A token of program text. -/
inductive Token where
  | openParen
  | closeParen
  /-- A string literal; the text between its quotes. -/
  | text (content : String)
  /-- A run of word characters: a number or a symbol. -/
  | word (chars : String)
  deriving Repr, DecidableEq, Inhabited

namespace Token

/-- How diagnostics name a token. -/
def describe : Token → String
  | .openParen => "LeftParen"
  | .closeParen => "RightParen"
  | .text s => "Text(" ++ Text.quote ("\"" ++ s ++ "\"") ++ ")"
  | .word w => "Literal(" ++ Text.quote w ++ ")"

/-- A character that separates tokens. -/
def isSpace (c : Char) : Bool :=
  c = ' ' || c = '\t' || c = '\r' || c = '\n' || c = '\x0c'

/-- A character of a word token. -/
def isWordChar (c : Char) : Bool :=
  c.isAlphanum || "_+-*/<>=%.".contains c

end Token

/-- Why program text is not a program. -/
inductive SyntaxError where
  /-- Text that starts no token, at its byte offset. -/
  | unexpectedText (slice : String) (offset : Nat)
  /-- A form was expected and the token (or the end of input) was found instead. -/
  | expectedOpen (found : Option Token)
  /-- The end of a list was expected. -/
  | expectedClose (found : Option Token)
  /-- A token after the one form that was asked for. -/
  | trailing (token : Token)
  /-- The reader met a case its own checks rule out. -/
  | fault (f : Fault)
  deriving Repr, DecidableEq, Inhabited

namespace SyntaxError

/-- How diagnostics name what was found. -/
def describeFound : Option Token → String
  | some t => t.describe
  | none => "end of input"

/-- The wording of a syntax error. -/
def message : SyntaxError → String
  | .unexpectedText s o => "unexpected `" ++ s ++ "` at offset " ++ toString o
  | .expectedOpen f => "expected `(`, found " ++ describeFound f
  | .expectedClose f => "expected `)`, found " ++ describeFound f
  | .trailing t => "unexpected " ++ t.describe ++ " after expression"
  | .fault f => f.message

end SyntaxError

/-- The token the scanner is in the middle of. -/
inductive Pending where
  | nothing
  /-- A word, its characters so far in reverse. -/
  | word (chars : List Char)
  /-- A string literal opened at a byte offset, its characters so far in reverse. -/
  | text (start : Nat) (chars : List Char)
  deriving Repr, DecidableEq, Inhabited

/-- Reads one character at byte offset `pos` when no token is pending. -/
def startToken (c : Char) (pos : Nat) (done : Array Token) :
    Except SyntaxError (Pending × Array Token) :=
  if Token.isSpace c then .ok (.nothing, done)
  else if c = '(' then .ok (.nothing, done.push .openParen)
  else if c = ')' then .ok (.nothing, done.push .closeParen)
  else if c = '"' then .ok (.text pos [], done)
  else if Token.isWordChar c then .ok (.word [c], done)
  else .error (.unexpectedText c.toString pos)

/-- Scans characters from byte offset `pos` on, `pending` open, `done` tokens behind. -/
def scan : List Char → Nat → Pending → Array Token → Except SyntaxError (Array Token)
  | [], _, .nothing, done => .ok done
  | [], _, .word w, done => .ok (done.push (.word (String.ofList w.reverse)))
  | [], _, .text start t, _ => .error (.unexpectedText (String.ofList ('"' :: t.reverse)) start)
  | c :: rest, pos, .text start t, done =>
    if c = '"' then scan rest (pos + 1) .nothing (done.push (.text (String.ofList t.reverse)))
    else scan rest (pos + c.utf8Size) (.text start (c :: t)) done
  | c :: rest, pos, .word w, done =>
    if Token.isWordChar c then scan rest (pos + 1) (.word (c :: w)) done
    else
      match startToken c pos (done.push (.word (String.ofList w.reverse))) with
      | .ok (p, done') => scan rest (pos + c.utf8Size) p done'
      | .error e => .error e
  | c :: rest, pos, .nothing, done =>
    match startToken c pos done with
    | .ok (p, done') => scan rest (pos + c.utf8Size) p done'
    | .error e => .error e

/-- The tokens of a program text. -/
def tokenize (src : String) : Except SyntaxError (List Token) :=
  (scan src.toList 0 .nothing #[]).map Array.toList

end MiniLisp
