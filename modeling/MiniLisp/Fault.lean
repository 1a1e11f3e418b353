/-! # Faults

A fault is a case that the interpreter's own checks rule out: a branch after a test that
excludes it, or a cut of text at offsets that an earlier test guarantees. There the interpreter
would stop the whole program instead of reporting an error of the language. The model keeps each
such case as an outcome of its own, so that a theorem can show that no input reaches it.
-/

namespace MiniLisp

/-- A case the interpreter's own checks rule out. -/
inductive Fault where
  /-- The atom reader met a token that is neither a string literal nor a word. -/
  | notAnAtom
  /-- `==` reached the arithmetic on two numbers. -/
  | equalityOnNumbers
  /-- A cut of `text` from byte offset `start` to `stop` that is out of its range or has an end
  inside a character. -/
  | badCut (text : String) (start stop : Nat)
  deriving Repr, DecidableEq, Inhabited

/-- The message of a fault. -/
def Fault.message : Fault → String
  | .notAnAtom => "internal error: entered unreachable code: the atom reader takes atoms only"
  | .equalityOnNumbers =>
    "internal error: entered unreachable code: equality is handled for every value type above"
  | .badCut t a b =>
    "byte range " ++ toString a ++ ".." ++ toString b ++ " of " ++ t ++
      " is out of range or not on character boundaries"

end MiniLisp
