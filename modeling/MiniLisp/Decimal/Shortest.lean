import MiniLisp.Binary.Parts

/-! # The shortest decimal that reads back as a given double

A positive double `v = m · 2^q` owns the interval of reals that round to it: half the gap to
each neighbour on either side, ends included exactly when `m` is even. `shortest` walks the
decimal grids `10^(k-1), 10^(k-2), …` (where `10^(k-1) ≤ v < 10^k`) and stops at the first grid
on which one of the two points next to `v` lies in the interval. Of two such points it takes
the nearer to `v`; an exact tie goes as `Tie` says.

* `readsBack m q d g`: `d · 10^g` lies in the interval of `m · 2^q`, decided in exact `Nat`
  arithmetic.
* `shortest tie m q = (d, g)`: the chosen decimal `d · 10^g`, with no trailing zero in `d`.
-/

namespace MiniLisp.Decimal

open MiniLisp.Binary

/-- Which of two equally near candidates a decimal writer keeps. -/
inductive Tie where
  /-- The larger of the two. -/
  | up
  /-- The one whose last digit is even. -/
  | even
  deriving Repr, DecidableEq, Inhabited

/-- Compares `a · 10^g` with `b · 2^p` exactly, by moving negative powers across. -/
def compareScaled (a : Nat) (g : Int) (b : Nat) (p : Int) : Ordering :=
  compare (a * Nat.pow 10 g.toNat * Nat.pow 2 (-p).toNat) (b * Nat.pow 2 p.toNat * Nat.pow 10 (-g).toNat)

/-- `d · 10^g` rounds to the double `m · 2^q` (`m > 0`): it lies strictly inside the rounding
interval, or on one of its ends when `m` is even. The ends are `(4m ± 2) · 2^(q-2)`, and the
lower one is `(4m - 1) · 2^(q-2)` where the gap below is narrow. -/
def readsBack (m : Nat) (q : Int) (d : Nat) (g : Int) : Bool :=
  let onEnd := m % 2 == 0
  let below := if Parts.narrowBelow m q then 1 else 2
  let aboveLow := match compareScaled d g (4 * m - below) (q - 2) with
    | .gt => true
    | .eq => onEnd
    | .lt => false
  let belowHigh := match compareScaled d g (4 * m + 2) (q - 2) with
    | .lt => true
    | .eq => onEnd
    | .gt => false
  aboveLow && belowHigh

/-- `⌊m · 2^q / 10^g⌋`, and how `m · 2^q` compares with the midpoint between that grid point
and the next one. -/
def gridFloor (m : Nat) (q g : Int) : Nat × Ordering :=
  let num := m * Nat.pow 2 q.toNat * Nat.pow 10 (-g).toNat
  let den := Nat.pow 2 (-q).toNat * Nat.pow 10 g.toNat
  let lo := num / den
  (lo, compare (2 * num) ((2 * lo + 1) * den))

/-- The point of the grid `10^g` that is kept for `m · 2^q`, if one of the two points next to
it reads back. -/
def onGrid (tie : Tie) (m : Nat) (q g : Int) : Option Nat :=
  let (lo, side) := gridFloor m q g
  let hi := lo + 1
  match readsBack m q lo g, readsBack m q hi g with
  | false, false => none
  | true, false => some lo
  | false, true => some hi
  | true, true =>
    match side with
    | .lt => some lo
    | .gt => some hi
    | .eq =>
      match tie with
      | .up => some hi
      | .even => some (if lo % 2 == 0 then lo else hi)

/-- The least `k` with `m · 2^q < 10^k`, found next to the estimate `⌊log₁₀ 2^(log₂ m + q)⌋`. -/
def exponentAbove (m : Nat) (q : Int) : Int :=
  let estimate : Int := ((m.log2 : Int) + q) * 30103 / 100000
  let isAbove (k : Int) : Bool := compareScaled 1 k m q == .gt
  match [estimate - 1, estimate, estimate + 1, estimate + 2].find? isAbove with
  | some k => k
  | none => estimate + 3

/-- Moves trailing zeros of `d` into the exponent. -/
def stripZeros (d : Nat) (g : Int) : Nat × Int :=
  if d ≠ 0 ∧ d % 10 = 0 then stripZeros (d / 10) (g + 1) else (d, g)
termination_by d
decreasing_by omega

/-- The decimal `d · 10^g` with the fewest significant digits that reads back as `m · 2^q`
(`m > 0`), the nearer of two on the first grid that has one. Seventeen digits always
suffice for a double. -/
def shortest (tie : Tie) (m : Nat) (q : Int) : Nat × Int :=
  let k := exponentAbove m q
  let hit := (List.range 17).findSome? fun i =>
    let g := k - ((i + 1 : Nat) : Int)
    (onGrid tie m q g).map fun d => (d, g)
  let (d, g) := hit.getD ((gridFloor m q (k - 17)).1, k - 17)
  stripZeros d g

end MiniLisp.Decimal
