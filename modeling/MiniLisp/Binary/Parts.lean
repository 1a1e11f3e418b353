/-! # A double as sign, significand and binary exponent

`Parts.ofFloat` reads the bits of a double: a finite one is `(-1)^sign · m · 2^q` with
`m < 2^53` and `-1074 ≤ q ≤ 971`; the other two shapes are the infinities and NaN.

* `Parts.ofBits`: the three fields of the interchange format, unpacked.
* `Parts.narrowBelow`: the gap to the next smaller double is half the gap above exactly when
  `m` is the least normal significand and the exponent is not the smallest one.
-/

namespace MiniLisp.Binary

/-- The value a double stands for, as read from its bits. -/
inductive Parts where
  | nan
  | infinite (negative : Bool)
  /-- `(-1)^negative · m · 2^q`. -/
  | finite (negative : Bool) (m : Nat) (q : Int)
  deriving Repr, DecidableEq, Inhabited

/-- Number of explicit significand bits of a double. -/
def mantissaBits : Nat := 52

/-- The exponent of the smallest subnormal double, `5e-324 = 2^-1074`. -/
def leastExponent : Int := -1074

namespace Parts

/-- Unpacks sign, biased exponent and trailing significand of a 64-bit pattern. -/
def ofBits (b : UInt64) : Parts :=
  let negative := (b >>> 63) == 1
  let biased := ((b >>> 52) &&& 0x7ff).toNat
  let fraction := (b &&& 0xfffffffffffff).toNat
  if biased = 0x7ff then
    if fraction = 0 then .infinite negative else .nan
  else if biased = 0 then
    .finite negative fraction leastExponent
  else
    .finite negative (fraction + Nat.pow 2 mantissaBits) ((biased : Int) - 1075)

/-- The parts of a double. -/
def ofFloat (x : Float) : Parts := ofBits x.toBits

/-- The gap below `m · 2^q` is half the gap above it. -/
def narrowBelow (m : Nat) (q : Int) : Bool :=
  m == Nat.pow 2 mantissaBits && q > leastExponent

end Parts

end MiniLisp.Binary
