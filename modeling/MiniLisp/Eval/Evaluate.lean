import MiniLisp.Eval.Store
import MiniLisp.Eval.Operator

/-! # Evaluating expressions

`eval limit fuel depth env e` evaluates `e` in the scope `env` while `depth` closure calls are
active, at most `limit` of them at once. A list headed by an operator symbol applies the
operator, whatever the scope binds to that symbol; a list headed by a keyword is a special
form; any other list is a call. The store and the printed text survive a failure, so that a
session keeps what a failing form did before it failed.

`fuel` bounds the nesting of the evaluation and the number of rounds of each loop, so that
`eval` is total; `Halt.exhausted` is the answer when it runs out, distinct from every error
of the language. A string literal's value is cut from its text between the quotes, a fault
where the cut is not in the text (`Halt.fault`).

* `runBlock`, `runLoop`, `callClosure`: the parts of `eval` that repeat, each taking the
  evaluator it runs as an argument.
* `special`: the special forms `begin var set if while def lambda`.
-/

namespace MiniLisp

/-- Where a run stands: the store, and the text that `print` has written. -/
structure Machine where
  store : Store
  out : String
  deriving Inhabited

/-- The evaluation monad: a failure keeps the machine as it was when the failure happened. -/
abbrev EvalM := ExceptT Halt (StateM Machine)

namespace EvalM

/-- Fails with an error of the language. -/
def fail {α : Type} (e : EvalError) : EvalM α := throw (.error e)

/-- Runs a step that may stop. -/
def ofExcept {α : Type} : Except Halt α → EvalM α
  | .ok a => pure a
  | .error h => throw h

/-- The value of a name seen from a scope. -/
def lookup (env : ScopeId) (name : String) : EvalM Value := do
  match (← get).store.lookup env name with
  | some v => pure v
  | none => fail (.undefinedVariable name)

/-- Binds a name in a scope. -/
def define (env : ScopeId) (name : String) (v : Value) : EvalM Unit :=
  modify fun m => { m with store := m.store.define env name v }

/-- Rebinds a name in the nearest scope of the chain that binds it. The scope is found
before the store is changed, so that the change updates the store in place. -/
def assign (env : ScopeId) (name : String) (v : Value) : EvalM Unit := do
  match (← get).store.resolve env name with
  | some home => modify fun m => { m with store := m.store.define home name v }
  | none => fail (.undefinedVariable name)

/-- A new empty scope under `parent`. -/
def newScope (parent : ScopeId) : EvalM ScopeId := do
  let id := (← get).store.nextId
  modify fun m => { m with store := m.store.child parent }
  pure id

/-- A closure with a fresh stamp. -/
def makeClosure (name : Option String) (params : List String) (body : Expr) (env : ScopeId) :
    EvalM Value := do
  let n := (← get).store.stamps
  modify fun m => { m with store := m.store.stamp }
  pure (.closure { stamp := n, name, params, body, scope := env })

/-- Appends to the printed text. -/
def emit (text : String) : EvalM Unit :=
  modify fun m => { m with out := m.out ++ text }

end EvalM

open EvalM

/-- The value of a string literal written `t`: the text between its quotes. A literal without
both quotes is no form the language knows. -/
def literalValue (t : String) : Except Halt Value :=
  if Expr.isQuotedText t then
    match Expr.stripQuotes t with
    | .ok s => .ok (.str s)
    | .error f => .error (.fault f)
  else .error (.error (.unimplemented (.str t)))

/-- Runs a builtin on evaluated arguments: `print` writes them, separated by spaces, on one
line and gives `null`. -/
def Builtin.run : Builtin → List Value → EvalM Value
  | .op o, args => EvalM.ofExcept (o.apply args)
  | .print, args => do
    emit (" ".intercalate (args.map Value.render) ++ "\n")
    pure .null

/-- The name of a variable-name symbol. -/
def Expr.varName? (e : Expr) : Option String :=
  if e.isVariableName then e.symbol? else none

/-- The parameter names of a parameter list: a list of variable names. -/
def Expr.paramNames? : Expr → Option (List String)
  | .list ps => ps.mapM Expr.varName?
  | _ => none

/-- The forms of a body `(begin e …)` with at least one form, which run in the call's own
scope. -/
def Expr.bodyForms? : Expr → Option (List Expr)
  | .list (.sym w :: e :: es) => if w = "begin" then some (e :: es) else none
  | _ => none

/-- The operator a list head stands for. -/
def Expr.operator? (e : Expr) : Option Operator := e.symbol?.bind Operator.ofSymbol?

/-- The keyword a list head stands for. -/
def Expr.keyword? (e : Expr) : Option Keyword := e.symbol?.bind Keyword.ofWord?

/-- Evaluates each expression in turn with `step` and gives the value of the last one. -/
def runBlock (step : Expr → EvalM Value) : List Expr → EvalM Value
  | [] => pure .undefined
  | [e] => step e
  | e :: es => do
    let _ ← step e
    runBlock step es

/-- Runs `body` while `cond` is true, at most `rounds` times; the value of the last round. -/
def runLoop (step : Expr → EvalM Value) (cond body : Expr) : Nat → Value → EvalM Value
  | 0, _ => throw .exhausted
  | rounds + 1, last => do
    if (← step cond).truthy then
      let v ← step body
      runLoop step cond body rounds v
    else pure last

/-- Runs a closure's body in its call scope: the forms of a `begin` body directly there. -/
def runBody (step : Expr → EvalM Value) (body : Expr) : EvalM Value :=
  match body.bodyForms? with
  | some es => runBlock step es
  | none => step body

/-- Calls a closure: checks the arity, binds the parameters in a new scope under the
closure's own, checks that one more call fits under the limit, and runs the body with
`enter`, the evaluator one call deeper. -/
def callClosure (limit depth : Nat) (enter : ScopeId → Expr → EvalM Value) (c : Closure)
    (args : List Value) : EvalM Value := do
  if args.length ≠ c.params.length then fail (.arity c.params.length args.length)
  let act ← newScope c.scope
  (c.params.zip args).forM fun (p, a) => define act p a
  if limit ≤ depth then fail (.recursionLimit limit)
  runBody (enter act) c.body

/-- The special forms, `ev` evaluating in a given scope and `rounds` bounding a loop. A form of
the wrong shape is not one the language knows. -/
def special (ev : ScopeId → Expr → EvalM Value) (rounds : Nat) (env : ScopeId) (form : Expr) :
    Keyword → List Expr → EvalM Value
  | .begin, e :: es => do
    let block ← newScope env
    runBlock (ev block) (e :: es)
  | .var, [n, v] =>
    match n.varName? with
    | some name => do
      let x ← ev env v
      define env name x
      pure x
    | none => fail (.unimplemented form)
  | .set, [n, v] =>
    match n.varName? with
    | some name => do
      let x ← ev env v
      assign env name x
      pure x
    | none => fail (.unimplemented form)
  | .cond, [c, a, b] => do
    if (← ev env c).truthy then ev env a else ev env b
  | .loop, [c, body] => runLoop (ev env) c body rounds .undefined
  | .define, [n, ps, body] =>
    match n.varName?, ps.paramNames? with
    | some name, some params => do
      let f ← makeClosure (some name) params body env
      define env name f
      pure f
    | _, _ => fail (.unimplemented form)
  | .lambda, [ps, body] =>
    match ps.paramNames? with
    | some params => makeClosure none params body env
    | none => fail (.unimplemented form)
  | _, _ => fail (.unimplemented form)

/-- Evaluates `e` in scope `env` with `depth` closure calls active out of at most `limit`. -/
def eval (limit : Nat) : Nat → Nat → ScopeId → Expr → EvalM Value
  | 0, _, _, _ => throw .exhausted
  | fuel + 1, depth, env, e =>
    match e with
    | .num x => pure (.num x)
    | .str t => EvalM.ofExcept (literalValue t)
    | .sym n => if Expr.isNameWord n then lookup env n else fail (.unimplemented e)
    | .list [] => fail (.unimplemented e)
    | .list (head :: rest) =>
      match head.operator? with
      | some o => do
        let args ← rest.mapM (eval limit fuel depth env)
        EvalM.ofExcept (o.apply args)
      | none =>
        match head.keyword? with
        | some kw => special (eval limit fuel depth) fuel env e kw rest
        | none => do
          match ← eval limit fuel depth env head with
          | .builtin b => do
            let args ← rest.mapM (eval limit fuel depth env)
            b.run args
          | .closure c => do
            let args ← rest.mapM (eval limit fuel depth env)
            callClosure limit depth (eval limit fuel (depth + 1)) c args
          | v => fail (.notCallable v)

end MiniLisp
