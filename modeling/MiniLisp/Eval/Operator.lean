import MiniLisp.Eval.Error
import MiniLisp.Binary.Remainder

/-! # Applying operators

Every operator takes two operands, except that `-` with one negates it. `+` on two strings
joins them and `==` compares any two values; otherwise both operands must be numbers, the
left one checked first, and the operator is the double operation of its name (`%` is the
remainder of truncated division). The arithmetic has a case for `==` too, which the test
before it rules out: reaching it is a fault.
-/

namespace MiniLisp

namespace Operator

/-- The number an operand of `o` must be. -/
def number (o : Operator) : Value → Except EvalError Float
  | .num x => .ok x
  | v => .error (.typeMismatch o v.kind)

/-- The operator on two numbers; `==` is compared before the operands are numbers, and is a
fault here. -/
def onNumbers : Operator → Float → Float → Except Fault Value
  | .add, x, y => .ok (.num (x + y))
  | .sub, x, y => .ok (.num (x - y))
  | .mul, x, y => .ok (.num (x * y))
  | .div, x, y => .ok (.num (x / y))
  | .rem, x, y => .ok (.num (Binary.truncRem x y))
  | .lt, x, y => .ok (.bool (decide (x < y)))
  | .le, x, y => .ok (.bool (decide (x ≤ y)))
  | .gt, x, y => .ok (.bool (decide (y < x)))
  | .ge, x, y => .ok (.bool (decide (y ≤ x)))
  | .eq, _, _ => .error .equalityOnNumbers

/-- The operator on two operands. -/
def applyBinary (o : Operator) (a b : Value) : Except Halt Value :=
  match o, a, b with
  | .add, .str x, .str y => .ok (.str (x ++ y))
  | .eq, a, b => .ok (.bool (a.same b))
  | o, a, b => do
    let x ← (o.number a).mapError .error
    let y ← (o.number b).mapError .error
    (o.onNumbers x y).mapError .fault

/-- The operator on evaluated operands. -/
def apply (o : Operator) (args : List Value) : Except Halt Value :=
  match o, args with
  | .sub, [a] => do
    let x ← (Operator.sub.number a).mapError .error
    pure (.num (-x))
  | o, [a, b] => o.applyBinary a b
  | _, args => .error (.error (.arity 2 args.length))

end Operator

end MiniLisp
