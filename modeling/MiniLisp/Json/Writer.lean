import MiniLisp.Syntax.Expr

/-! # Expressions as JSON

The JSON form of an expression on one line: numbers in the JSON number text, string literals
as JSON strings that keep their quotes, symbols as JSON strings, lists as arrays with no
blanks. In a JSON string the quote, the backslash and the control characters are escaped;
all other characters stand as themselves.
-/

namespace MiniLisp.Json

/-- The number text of JSON output: the shortest decimal that reads back, a tie to the even
digit, positional for decimal exponents from -5 to 15 with `.0` on integers, `d.ddde±X`
otherwise, the sign of the exponent always written (`1e+16`, `1e-7`); `null` for NaN and the
infinities. -/
def numberText : Decimal.Notation :=
  { tie := .even, positional := some (-5, 15), pointZero := true,
    nan := "null", infinity := "null", negInfinity := "null" }

/-- Two lowercase hexadecimal digits. -/
def hex2 (n : Nat) : String :=
  let ds := Nat.toDigits 16 n
  String.ofList (List.replicate (2 - ds.length) '0' ++ ds)

/-- The escape of one character in a JSON string. -/
def escapeChar (c : Char) : String :=
  if c = '"' then "\\\""
  else if c = '\\' then "\\\\"
  else if c = '\x08' then "\\b"
  else if c = '\x0c' then "\\f"
  else if c = '\n' then "\\n"
  else if c = '\r' then "\\r"
  else if c = '\t' then "\\t"
  else if c.toNat < 0x20 then "\\u00" ++ hex2 c.toNat
  else c.toString

/-- A JSON string. -/
def quote (s : String) : String := "\"" ++ String.join (s.toList.map escapeChar) ++ "\""

end MiniLisp.Json

namespace MiniLisp.Expr

mutual
/-- The JSON form of an expression. -/
def toJson : Expr → String
  | .num x => Json.numberText.render x
  | .str t => Json.quote t
  | .sym n => Json.quote n
  | .list items => "[" ++ toJsonItems items ++ "]"

/-- JSON forms separated by commas. -/
def toJsonItems : List Expr → String
  | [] => ""
  | [e] => toJson e
  | e :: es => toJson e ++ "," ++ toJsonItems es
end

end MiniLisp.Expr
