import MiniLisp.Eval.Evaluate

/-! # Running evaluation steps

An `EvalM` computation is a function from a machine to an outcome and a machine:
`x.run.run m`. This module gives that function for the monad's own operations (`run_bind`,
`run_pure`, `run_throw`, `run_get_bind`) and for each primitive step of the evaluator, so that
later proofs take a step apart by rewriting and never unfold the monad.

It also inverts the dispatch of `eval` on the head of a list: an operator head and a keyword
head are symbols that spell them (`eq_sym_of_operator?`, `eq_sym_of_keyword?`).
-/

namespace MiniLisp

variable {α β : Type}

/-! ## The monad -/

theorem run_bind (x : EvalM α) (f : α → EvalM β) (m : Machine) :
    (x >>= f).run.run m = match x.run.run m with
      | (.ok a, m') => (f a).run.run m'
      | (.error h, m') => (.error h, m') := by
  simp only [ExceptT.run_bind, StateT.run_bind]
  rcases x.run.run m with ⟨_ | _, m'⟩ <;> rfl

theorem run_pure (a : α) (m : Machine) : (pure a : EvalM α).run.run m = (.ok a, m) := rfl

theorem run_throw (h : Halt) (m : Machine) : (throw h : EvalM α).run.run m = (.error h, m) := rfl

theorem run_get_bind (f : Machine → EvalM β) (m : Machine) :
    ((get : EvalM Machine) >>= f).run.run m = (f m).run.run m := rfl

theorem run_modify (f : Machine → Machine) (m : Machine) :
    (modify f : EvalM PUnit).run.run m = (.ok ⟨⟩, f m) := rfl

theorem run_bind_ok {x : EvalM α} {m m' : Machine} {a : α} (h : x.run.run m = (.ok a, m'))
    (f : α → EvalM β) : (x >>= f).run.run m = (f a).run.run m' := by
  rw [run_bind, h]

theorem run_bind_error {x : EvalM α} {m m' : Machine} {e : Halt} (h : x.run.run m = (.error e, m'))
    (f : α → EvalM β) : (x >>= f).run.run m = (.error e, m') := by
  rw [run_bind, h]

theorem mapError_bind_eq_ok {ε ε' γ : Type} {f : ε → ε'} {x : Except ε γ}
    {g : γ → Except ε' α} {b : α} (h : (x.mapError f >>= g) = .ok b) :
    ∃ a, x = .ok a ∧ g a = .ok b := by
  cases x with
  | error e => cases h
  | ok a => exact ⟨a, rfl, h⟩

/-! ## The primitive steps -/

namespace EvalM

theorem run_fail (e : EvalError) (m : Machine) :
    (fail e : EvalM α).run.run m = (.error (.error e), m) := rfl

theorem run_ofExcept (r : Except Halt α) (m : Machine) :
    (ofExcept r).run.run m = match r with
      | .ok a => (.ok a, m)
      | .error h => (.error h, m) := by
  cases r <;> rfl

theorem run_lookup (env : ScopeId) (name : String) (m : Machine) :
    (lookup env name).run.run m = match m.store.lookup env name with
      | some v => (.ok v, m)
      | none => (.error (.error (.undefinedVariable name)), m) := by
  rw [lookup, run_get_bind]
  cases m.store.lookup env name <;> rfl

theorem run_define (env : ScopeId) (name : String) (v : Value) (m : Machine) :
    (define env name v).run.run m = (.ok (), { m with store := m.store.define env name v }) := rfl

theorem run_assign (env : ScopeId) (name : String) (v : Value) (m : Machine) :
    (assign env name v).run.run m = match m.store.resolve env name with
      | some home => (.ok (), { m with store := m.store.define home name v })
      | none => (.error (.error (.undefinedVariable name)), m) := by
  rw [assign, run_get_bind]
  cases m.store.resolve env name <;> rfl

theorem run_newScope (parent : ScopeId) (m : Machine) :
    (newScope parent).run.run m = (.ok m.store.nextId, { m with store := m.store.child parent }) :=
  rfl

theorem run_makeClosure (name : Option String) (params : List String) (body : Expr)
    (env : ScopeId) (m : Machine) :
    (makeClosure name params body env).run.run m =
      (.ok (.closure { stamp := m.store.stamps, name, params, body, scope := env }),
        { m with store := m.store.stamp }) := rfl

theorem run_emit (text : String) (m : Machine) :
    (emit text).run.run m = (.ok (), { m with out := m.out ++ text }) := rfl

end EvalM

open EvalM in
/-- A closure call in the order of its steps: the arity check, the activation scope with the
parameters bound, the depth check, the body. -/
theorem callClosure_eq (limit depth : Nat) (enter : ScopeId → Expr → EvalM Value) (c : Closure)
    (args : List Value) :
    callClosure limit depth enter c args =
      if args.length ≠ c.params.length then fail (.arity c.params.length args.length)
      else newScope c.scope >>= fun act =>
        (c.params.zip args).forM (fun (p, a) => define act p a) >>= fun _ =>
          if limit ≤ depth then fail (.recursionLimit limit) else runBody (enter act) c.body := by
  unfold callClosure
  by_cases harity : args.length ≠ c.params.length <;> by_cases hlimit : limit ≤ depth <;>
    simp [harity, hlimit, EvalM.fail]

/-! ## The dispatch on a list head -/

theorem Operator.symbol_of_ofSymbol? {s : String} {o : Operator} (h : Operator.ofSymbol? s = some o) :
    o.symbol = s := by
  have := List.find?_some h
  simpa using this

theorem Keyword.word_of_ofWord? {w : String} {kw : Keyword} (h : Keyword.ofWord? w = some kw) :
    kw.word = w := by
  have := List.find?_some h
  simpa using this

theorem Expr.eq_sym_of_operator? {e : Expr} {o : Operator} (h : e.operator? = some o) :
    e = .sym o.symbol := by
  cases e with
  | sym n =>
    simp only [Expr.operator?, Expr.symbol?, Option.bind_some] at h
    rw [Operator.symbol_of_ofSymbol? h]
  | _ => simp [Expr.operator?, Expr.symbol?] at h

theorem Expr.eq_sym_of_keyword? {e : Expr} {kw : Keyword} (h : e.keyword? = some kw) :
    e = .sym kw.word := by
  cases e with
  | sym n =>
    simp only [Expr.keyword?, Expr.symbol?, Option.bind_some] at h
    rw [Keyword.word_of_ofWord? h]
  | _ => simp [Expr.keyword?, Expr.symbol?] at h

theorem Expr.eq_sym_of_varName? {e : Expr} {name : String} (h : e.varName? = some name) :
    e = .sym name := by
  unfold Expr.varName? at h
  split at h
  · cases e <;> simp_all [Expr.symbol?]
  · cases h

end MiniLisp
