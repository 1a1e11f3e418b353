import MiniLisp.Decimal.Notation
import MiniLisp.Fault

/-! # Expression trees

A program is a sequence of expressions: numbers, string literals, symbols and parenthesised
lists. Every special form and call is a list whose head decides how it is read.

A string literal keeps its text as written, delimiting quotes included; a tree built from
JSON can hold one whose quotes are missing.

* `Expr.render`: the written form, items of a list separated by one space.
* `Expr.isVariableName`: the symbols that name variables, which exclude the keywords of the
  special forms.
* `Expr.isQuotedText`, `Expr.stripQuotes`: a string literal's text has both quotes, and the
  text between them, cut by byte offsets.
-/

namespace MiniLisp

/-- The number text of the language: the shortest decimal that reads back, always positional,
with no `.0` on integers; a tie goes up; `NaN`, `inf` and `-inf` for the other doubles. -/
def numberText : Decimal.Notation :=
  { tie := .up, positional := none, pointZero := false,
    nan := "NaN", infinity := "inf", negInfinity := "-inf" }

/-- Writes a number in the language's number text. -/
def showNumber (x : Float) : String := numberText.render x

/-- An expression of the language. -/
inductive Expr where
  | num (value : Float)
  /-- A string literal, its text as written, delimiting quotes included. -/
  | str (text : String)
  | sym (name : String)
  | list (items : List Expr)
  deriving Inhabited, Repr

/-- The keywords that make a list a special form when they stand at its head. -/
inductive Keyword where
  | begin | var | set | cond | loop | define | lambda
  deriving Repr, DecidableEq, Inhabited

namespace Keyword

/-- The word that spells the keyword. -/
def word : Keyword → String
  | .begin => "begin"
  | .var => "var"
  | .set => "set"
  | .cond => "if"
  | .loop => "while"
  | .define => "def"
  | .lambda => "lambda"

/-- All keywords. -/
def all : List Keyword := [.begin, .var, .set, .cond, .loop, .define, .lambda]

/-- The keyword a word spells, if any. -/
def ofWord? (w : String) : Option Keyword := all.find? (·.word == w)

end Keyword

namespace Expr

mutual
/-- The written form of an expression. -/
def render : Expr → String
  | .num x => showNumber x
  | .str t => t
  | .sym n => n
  | .list items => "(" ++ renderItems items ++ ")"

/-- Expressions separated by one space. -/
def renderItems : List Expr → String
  | [] => ""
  | [e] => render e
  | e :: es => render e ++ " " ++ renderItems es
end

/-- A character allowed in a variable name. -/
def isNameChar (c : Char) : Bool :=
  c.isAlphanum || "_+-*/<>=%".contains c

/-- A nonempty word of name characters that is no keyword. -/
def isNameWord (w : String) : Bool :=
  !w.isEmpty && w.toList.all isNameChar && (Keyword.ofWord? w).isNone

/-- The expression is a number. -/
def isNumber : Expr → Bool
  | .num _ => true
  | _ => false

/-- Text that still has both delimiting quotes of a string literal: two bytes at least, a
double quote first and last. -/
def isQuotedText (t : String) : Bool :=
  match t.toList with
  | '"' :: rest => rest.getLast? == some '"'
  | _ => false

/-- The text between the delimiting quotes of a string literal: the bytes from offset `1` to one
before the end. A fault where the range runs backwards, in a text of fewer than two bytes, or
where an end of it falls inside a character. -/
def stripQuotes (t : String) : Except Fault String :=
  let stop := t.utf8ByteSize - 1
  if 1 ≤ stop ∧ (⟨1⟩ : String.Pos.Raw).IsValid t ∧ (⟨stop⟩ : String.Pos.Raw).IsValid t then
    .ok (String.Pos.Raw.extract t ⟨1⟩ ⟨stop⟩)
  else .error (.badCut t 1 stop)

/-- The expression is a string literal with both its quotes. -/
def isQuoted : Expr → Bool
  | .str t => isQuotedText t
  | _ => false

/-- The expression is a symbol that names a variable. -/
def isVariableName : Expr → Bool
  | .sym n => isNameWord n
  | _ => false

/-- The name of a symbol. -/
def symbol? : Expr → Option String
  | .sym n => some n
  | _ => none

end Expr

end MiniLisp
