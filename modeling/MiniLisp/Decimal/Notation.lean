import MiniLisp.Decimal.Shortest

/-! # Writing a double in decimal

A `Notation` holds the decisions of one number format: how ties go, which decimal exponents
are written positionally (the rest in scientific form `d.ddde±X`), whether an integral
positional number ends in `.0`, and the texts of NaN and the infinities. `Notation.render`
applies them to the shortest decimal of `Shortest`.
-/

namespace MiniLisp.Decimal

open MiniLisp.Binary

/-- The decisions of one decimal number format. -/
structure Notation where
  /-- How an exact tie between two shortest candidates goes. -/
  tie : Tie
  /-- Exponents of the leading digit written positionally, `none` for all of them. -/
  positional : Option (Int × Int)
  /-- An integral number written positionally ends in `.0`. -/
  pointZero : Bool
  nan : String
  infinity : String
  negInfinity : String
  deriving Repr, Inhabited

/-- `n` zeros. -/
def zeros (n : Nat) : String := String.ofList (List.replicate n '0')

/-- The digits `s` scaled by `10^g`, with a point where it falls. -/
def layoutPositional (pointZero : Bool) (s : String) (g : Int) : String :=
  let point : Int := s.length + g
  if 0 ≤ g then
    s ++ zeros g.toNat ++ (if pointZero then ".0" else "")
  else if 0 < point then
    String.ofList (s.toList.take point.toNat) ++ "." ++ String.ofList (s.toList.drop point.toNat)
  else
    "0." ++ zeros (-point).toNat ++ s

/-- The digits `s` as `d.ddd` times `10^e`, written `d.ddde+X` or `d.ddde-X`. -/
def layoutScientific (s : String) (e : Int) : String :=
  let lead := String.ofList (s.toList.take 1)
  let rest := String.ofList (s.toList.drop 1)
  let mantissa := if rest.isEmpty then lead else lead ++ "." ++ rest
  mantissa ++ "e" ++ (if 0 ≤ e then "+" else "-") ++ toString e.natAbs

namespace Notation

/-- The text of a finite nonzero magnitude `m · 2^q` without its sign. -/
def magnitude (n : Notation) (m : Nat) (q : Int) : String :=
  let (d, g) := shortest n.tie m q
  let s := toString d
  let e : Int := s.length + g - 1
  let inRange := match n.positional with
    | none => true
    | some (lo, hi) => decide (lo ≤ e ∧ e ≤ hi)
  if inRange then layoutPositional n.pointZero s g else layoutScientific s e

/-- The text of a double in this notation. -/
def render (n : Notation) (x : Float) : String :=
  match Parts.ofFloat x with
  | .nan => n.nan
  | .infinite negative => if negative then n.negInfinity else n.infinity
  | .finite negative m q =>
    let sign := if negative then "-" else ""
    if m = 0 then
      sign ++ "0" ++ (if n.pointZero then ".0" else "")
    else
      sign ++ n.magnitude m q

end Notation

end MiniLisp.Decimal
