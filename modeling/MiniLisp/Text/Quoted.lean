import MiniLisp.Text.Printable
import MiniLisp.Text.Combining

/-! # Quoted text for diagnostics

`Text.quote s` writes `s` between double quotes so that every character can be read off the
result: the quote and the backslash get a backslash, NUL, tab, line feed and carriage return
their short escapes, and a hidden or grapheme-extending character its code point in hex,
`\u{hex}`. Everything else stands as itself.
-/

namespace MiniLisp.Text

/-- Lowercase hexadecimal digits of `n`, without padding. -/
def hexDigits (n : Nat) : String := String.ofList (Nat.toDigits 16 n)

/-- The escape of one character inside quoted text. -/
def quoteChar (c : Char) : String :=
  if c = '\x00' then "\\0"
  else if c = '\t' then "\\t"
  else if c = '\r' then "\\r"
  else if c = '\n' then "\\n"
  else if c = '\\' then "\\\\"
  else if c = '"' then "\\\""
  else if isExtending c || isHidden c then "\\u\x7b" ++ hexDigits c.toNat ++ "\x7d"
  else c.toString

/-- `s` between double quotes, each character escaped by `quoteChar`. -/
def quote (s : String) : String :=
  "\"" ++ String.join (s.toList.map quoteChar) ++ "\""

end MiniLisp.Text
