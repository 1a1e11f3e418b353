/-! # Decimal literals

A decimal literal is an optional sign, digits with at most one point among or after them (at
least one digit in all), and an optional exponent `e` or `E` with an optional sign and at
least one digit. Its value is the double nearest to the exact decimal, ties to even, which
`Float.ofScientific` computes: a value past the largest double is infinite, one below half the
least is zero.

* `Literal.parse?`: the parts of a literal, or `none` if the text is not one.
* `Literal.toFloat`: the nearest double.
-/

namespace MiniLisp.Decimal

/-- A decimal literal: `(-1)^negative · digits · 10^exponent`. -/
structure Literal where
  negative : Bool
  digits : Nat
  exponent : Int
  deriving Repr, DecidableEq, Inhabited

/-- The number that a list of decimal digits spells. -/
def digitsValue (ds : List Char) : Nat :=
  ds.foldl (fun n c => 10 * n + (c.toNat - '0'.toNat)) 0

/-- The leading run of decimal digits and what follows it. -/
def spanDigits (cs : List Char) : List Char × List Char :=
  (cs.takeWhile Char.isDigit, cs.dropWhile Char.isDigit)

/-- An exponent part `e±digits`, or nothing. -/
def exponentPart? : List Char → Option Int
  | [] => some 0
  | c :: rest =>
    if c = 'e' || c = 'E' then
      let (negative, ds) := match rest with
        | '-' :: t => (true, t)
        | '+' :: t => (false, t)
        | t => (false, t)
      if !ds.isEmpty && ds.all Char.isDigit then
        let n : Int := digitsValue ds
        some (if negative then -n else n)
      else none
    else none

namespace Literal

/-- Splits a text into the parts of a decimal literal. -/
def parse? (s : String) : Option Literal :=
  let (negative, cs) := match s.toList with
    | '-' :: r => (true, r)
    | '+' :: r => (false, r)
    | r => (false, r)
  let (whole, cs) := spanDigits cs
  let (fraction, cs) := match cs with
    | '.' :: r => spanDigits r
    | r => ([], r)
  if whole.isEmpty && fraction.isEmpty then none
  else (exponentPart? cs).map fun e =>
    { negative, digits := digitsValue (whole ++ fraction), exponent := e - fraction.length }

/-- The double nearest to the literal. -/
def toFloat (l : Literal) : Float :=
  let magnitude :=
    if l.exponent < 0 then Float.ofScientific l.digits true l.exponent.natAbs
    else Float.ofScientific l.digits false l.exponent.natAbs
  if l.negative then -magnitude else magnitude

end Literal

end MiniLisp.Decimal
