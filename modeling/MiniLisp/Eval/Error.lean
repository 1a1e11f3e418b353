import MiniLisp.Eval.Value
import MiniLisp.Syntax.Token

/-! # Errors of evaluation

Each way a program can fail, with the kind name and the message that diagnostics print, and
`Halt`, each way a run can stop before a value: an error of the language, the end of its fuel,
or a fault of the interpreter.
-/

namespace MiniLisp

/-- Why evaluating a program failed. -/
inductive EvalError where
  /-- The program text does not read. -/
  | unreadable (e : SyntaxError)
  | undefinedVariable (name : String)
  /-- A call with the wrong number of arguments. -/
  | arity (expected actual : Nat)
  /-- An expression that is no form the language knows: the whole form is kept. -/
  | unimplemented (form : Expr)
  /-- An operator met an operand that is not a number. -/
  | typeMismatch (op : Operator) (found : Value.Kind)
  | notCallable (v : Value)
  /-- More nested closure calls than the limit allows. -/
  | recursionLimit (limit : Nat)
  deriving Repr, Inhabited

namespace EvalError

/-- The name of the kind of error. -/
def kindName : EvalError → String
  | .unreadable _ => "SyntaxError"
  | .undefinedVariable _ => "UndefinedVariable"
  | .arity _ _ => "ArityError"
  | .unimplemented _ => "UnimplementedForm"
  | .typeMismatch _ _ => "TypeError"
  | .notCallable _ => "NotCallable"
  | .recursionLimit _ => "RecursionLimit"

/-- The message of an error. -/
def message : EvalError → String
  | .unreadable e => "syntax error: " ++ e.message
  | .undefinedVariable n => "variable \"" ++ n ++ "\" is not defined"
  | .arity e a => "expected " ++ toString e ++ " argument(s), got " ++ toString a
  | .unimplemented f => "unimplemented form: " ++ f.render
  | .typeMismatch o k => "`" ++ o.symbol ++ "` expects number, found " ++ k.name
  | .notCallable v => v.render ++ " is not callable"
  | .recursionLimit n => "maximum evaluation depth of " ++ toString n ++ " exceeded"

end EvalError

/-- Why a run stopped before a value. -/
inductive Halt where
  | error (e : EvalError)
  /-- The fuel ran out; no program of the language is at fault. -/
  | exhausted
  /-- The interpreter reached a case its own checks rule out. -/
  | fault (f : Fault)
  deriving Inhabited

end MiniLisp
