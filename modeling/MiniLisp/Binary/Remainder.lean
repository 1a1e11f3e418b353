import MiniLisp.Binary.Parts

/-! # The remainder of truncated division of doubles

`truncRem x y` is `x - n · y` for the integer `n` that `x / y` truncates to, computed exactly:
both operands are brought to the smaller of their binary exponents, where they are integers,
and the integer remainder is scaled back. The result has the sign of `x` and is exact, since
it is smaller in magnitude than both `|x|` and `|y|`. A zero divisor, an infinite dividend or
a NaN gives NaN; an infinite divisor leaves a finite dividend as it is.
-/

namespace MiniLisp.Binary

/-- The quiet NaN. -/
def nan : Float := 0.0 / 0.0

/-- The remainder of `x` by `y` with the quotient truncated toward zero. -/
def truncRem (x y : Float) : Float :=
  match Parts.ofFloat x, Parts.ofFloat y with
  | .finite negative mx qx, .finite _ my qy =>
    if my = 0 then nan
    else if mx = 0 then x
    else
      let q := min qx qy
      let r := (mx * Nat.pow 2 (qx - q).toNat) % (my * Nat.pow 2 (qy - q).toNat)
      let magnitude := Float.scaleB (Float.ofNat r) q
      if negative then -magnitude else magnitude
  | .finite _ _ _, .infinite _ => x
  | _, _ => nan

end MiniLisp.Binary
