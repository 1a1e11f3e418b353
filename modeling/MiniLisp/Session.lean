import MiniLisp.Eval.Evaluate
import MiniLisp.Syntax.Reader

/-! # Sessions

A session is one global scope that many evaluations share: definitions made by one step are
seen by the next, and a failing step keeps what it did before it failed. Each top-level form
starts with no closure call active.

* `Session.new`: the global scope with `null`, `true`, `false`, `VERSION`, `print` and the
  operators as builtin values.
* `Session.evaluate`, `Session.evaluateText`: one step, with the text it printed.
-/

namespace MiniLisp

/-- The version of the language. -/
def version : String := "0.1.0"

/-- The nesting of closure calls that a session allows unless told otherwise. -/
def defaultMaxDepth : Nat := 10000

/-- Fuel that no run of a program that ends uses up. -/
def ample : Nat := Nat.pow 2 62

/-- The bindings of the global scope of a new session. -/
def globals : List (String × Value) :=
  [("null", .null), ("true", .bool true), ("false", .bool false), ("VERSION", .str version),
    ("print", .builtin .print)] ++ Operator.all.map fun o => (o.symbol, .builtin (.op o))

/-- The index of the global scope. -/
def globalScope : ScopeId := 0

/-- A store holding only the global scope of a new session. -/
def Store.initial : Store := Store.ofRoot globals

/-- Evaluation state shared by the steps of a session. -/
structure Session where
  store : Store
  /-- The most closure calls that may be active at once. -/
  maxDepth : Nat
  deriving Inhabited

/-- What one step of a session gives: its outcome, the text it printed, and the session after
it. -/
structure Outcome (α : Type) where
  result : Except Halt α
  out : String
  session : Session

namespace Session

/-- A session with a fresh global scope. -/
def new (maxDepth : Nat := defaultMaxDepth) : Session :=
  { store := Store.initial, maxDepth }

/-- Evaluates a top-level form in the global scope, no closure call active. -/
def evalForm (s : Session) (e : Expr) : EvalM Value :=
  eval s.maxDepth ample 0 globalScope e

/-- Runs an evaluation from this session, printing into a fresh text. -/
def run {α : Type} (s : Session) (m : EvalM α) : Outcome α :=
  let (result, machine) := (m.run).run { store := s.store, out := "" }
  { result, out := machine.out, session := { s with store := machine.store } }

/-- Evaluates one expression in the global scope. -/
def evaluate (s : Session) (e : Expr) : Outcome Value :=
  s.run (s.evalForm e)

/-- Evaluates the forms in order, each with no call active; the value of the last one, or
`undefined` if there is none. -/
def evalForms (s : Session) (es : List Expr) : EvalM Value :=
  es.foldlM (fun _ e => s.evalForm e) .undefined

/-- Reads a program text and evaluates its forms in order. Text that does not read evaluates
nothing. -/
def evaluateText (s : Session) (src : String) : Outcome Value :=
  match Expr.readMany src with
  | .error e => { result := .error (.error (.unreadable e)), out := "", session := s }
  | .ok es => s.run (s.evalForms es)

/-- The names bound in each scope of the chain from `id` to the global scope. -/
def describeScope (s : Session) (id : ScopeId) : String := s.store.describe id

/-- The names bound in the global scope. -/
def describeGlobal (s : Session) : String := s.describeScope globalScope

end Session

end MiniLisp
