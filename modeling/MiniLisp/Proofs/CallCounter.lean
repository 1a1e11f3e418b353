import MiniLisp.Proofs.Run
import MiniLisp.Session

/-! # The call counter is balanced

`eval` is handed the number of active closure calls as an argument, and a closure's body gets
one more. A run can also keep that number in one counter that every evaluation shares and
updates: a call counts itself once its arity is checked and its parameters are bound, refusing
to pass the limit, and uncounts itself when its body is done, whether the body gave a value or
stopped. `Counted.eval` is evaluation with the counter kept so.

The counter is a machine word that never exceeds the limit (`Calls limit`). Counting past the
largest word, or uncounting when no call is active, is a fault of the counter (`CounterFault`)
that ends the run.

* `Counted.Agrees n x y`: `x`, run from `n` active calls, is `y` run at depth `n`, with the
  counter back at `n` and no fault.
* `Counted.Agrees.callClosure`: the one step that moves the counter puts it back, on every
  outcome of the body.
* `call_counter_balanced`: every counted evaluation is the evaluation at its depth, leaves the
  counter where it found it on every outcome, and never faults; every round of a loop runs at
  the depth the loop started at.
-/

namespace MiniLisp

/-- The largest machine word, `2^64 - 1`. -/
def wordMax : Nat := Nat.pow 2 64 - 1

/-- The count of active closure calls under a limit, which it never exceeds. -/
abbrev Calls (limit : Nat) := { n : Nat // n ≤ limit }

/-- A fault of the counter itself. -/
inductive CounterFault where
  /-- Counting one more call than the largest word. -/
  | overflow
  /-- Uncounting a call when none is active. -/
  | underflow
  deriving Repr, DecidableEq

/-- Why a counted run stops: as an evaluation stops, or at a fault of its counter. -/
inductive Stop where
  | halt (h : Halt)
  | fault (f : CounterFault)

/-- Evaluation with the count of active calls kept beside the machine, in one counter that
survives every stop as the machine does. -/
abbrev CountM (limit : Nat) := ExceptT Stop (StateM (Machine × Calls limit))

namespace Counted

variable {limit : Nat} {α β : Type}

/-! ## The counter -/

/-- A step of evaluation, run on the machine; the counter is left alone. -/
def lift (x : EvalM α) : CountM limit α :=
  ExceptT.mk fun s =>
    match x.run.run s.1 with
    | (.ok a, m) => (.ok a, (m, s.2))
    | (.error h, m) => (.error (.halt h), (m, s.2))

/-- The count of active calls. -/
def calls : CountM limit (Calls limit) := do return (← get).2

/-- Sets the count of active calls. -/
def setCalls (n : Calls limit) : CountM limit Unit := modify fun s => (s.1, n)

/-- Counts one more active call, refusing one at the limit. -/
def enter : CountM limit Unit := do
  let n ← calls
  if h : limit ≤ n.val then throw (.halt (.error (.recursionLimit limit)))
  else if wordMax < n.val + 1 then throw (.fault .overflow)
  else setCalls ⟨n.val + 1, by omega⟩

/-- Counts one active call fewer. -/
def leave : CountM limit Unit := do
  let n ← calls
  if n.val = 0 then throw (.fault .underflow)
  else setCalls ⟨n.val - 1, Nat.le_trans (Nat.sub_le _ _) n.property⟩

/-- The outcome of `x` as a value: why an evaluation stopped is handed on, in the state it
stopped in; a fault of the counter goes on stopping the run. -/
def observe (x : CountM limit α) : CountM limit (Except Halt α) :=
  ExceptT.mk do
    match ← x.run with
    | .ok a => pure (.ok (.ok a))
    | .error (.halt h) => pure (.ok (.error h))
    | .error (.fault f) => pure (.error (.fault f))

/-- Goes on with an outcome that `observe` handed on. -/
def resume : Except Halt α → CountM limit α
  | .ok a => pure a
  | .error h => throw (.halt h)

/-! ## Evaluation with the counter -/

/-- Evaluates each expression in turn with `step` and gives the value of the last one. -/
def runBlock (step : Expr → CountM limit Value) : List Expr → CountM limit Value
  | [] => pure .undefined
  | [e] => step e
  | e :: es => do
    let _ ← step e
    runBlock step es

/-- Runs `body` while `cond` is true, at most `rounds` times. -/
def runLoop (step : Expr → CountM limit Value) (cond body : Expr) :
    Nat → Value → CountM limit Value
  | 0, _ => throw (.halt .exhausted)
  | rounds + 1, last => do
    if (← step cond).truthy then
      let v ← step body
      runLoop step cond body rounds v
    else pure last

/-- Runs a closure's body in its call scope: the forms of a `begin` body directly there. -/
def runBody (step : Expr → CountM limit Value) (body : Expr) : CountM limit Value :=
  match body.bodyForms? with
  | some es => runBlock step es
  | none => step body

/-- Calls a closure: checks the arity, binds the parameters in a new scope under the closure's
own, counts the call, runs the body with `enter'` and uncounts the call, whatever the body
gave. -/
def callClosure (enter' : ScopeId → Expr → CountM limit Value) (c : Closure)
    (args : List Value) : CountM limit Value := do
  if args.length ≠ c.params.length then lift (EvalM.fail (.arity c.params.length args.length))
  let act ← lift (EvalM.newScope c.scope)
  (c.params.zip args).forM fun (p, a) => lift (EvalM.define act p a)
  enter
  let r ← observe (runBody (enter' act) c.body)
  leave
  resume r

/-- The special forms, `ev` evaluating in a given scope and `rounds` bounding a loop. -/
def special (ev : ScopeId → Expr → CountM limit Value) (rounds : Nat) (env : ScopeId)
    (form : Expr) : Keyword → List Expr → CountM limit Value
  | .begin, e :: es => do
    let block ← lift (EvalM.newScope env)
    runBlock (ev block) (e :: es)
  | .var, [n, v] =>
    match n.varName? with
    | some name => do
      let x ← ev env v
      lift (EvalM.define env name x)
      pure x
    | none => lift (EvalM.fail (.unimplemented form))
  | .set, [n, v] =>
    match n.varName? with
    | some name => do
      let x ← ev env v
      lift (EvalM.assign env name x)
      pure x
    | none => lift (EvalM.fail (.unimplemented form))
  | .cond, [c, a, b] => do
    if (← ev env c).truthy then ev env a else ev env b
  | .loop, [c, body] => runLoop (ev env) c body rounds .undefined
  | .define, [n, ps, body] =>
    match n.varName?, ps.paramNames? with
    | some name, some params => do
      let f ← lift (EvalM.makeClosure (some name) params body env)
      lift (EvalM.define env name f)
      pure f
    | _, _ => lift (EvalM.fail (.unimplemented form))
  | .lambda, [ps, body] =>
    match ps.paramNames? with
    | some params => lift (EvalM.makeClosure none params body env)
    | none => lift (EvalM.fail (.unimplemented form))
  | _, _ => lift (EvalM.fail (.unimplemented form))

/-- Evaluates `e` in scope `env`, the count of active calls kept in the counter. -/
def eval (limit : Nat) : Nat → ScopeId → Expr → CountM limit Value
  | 0, _, _ => throw (.halt .exhausted)
  | fuel + 1, env, e =>
    match e with
    | .num x => pure (.num x)
    | .str t => lift (EvalM.ofExcept (literalValue t))
    | .sym n =>
      if Expr.isNameWord n then lift (EvalM.lookup env n) else lift (EvalM.fail (.unimplemented e))
    | .list [] => lift (EvalM.fail (.unimplemented e))
    | .list (head :: rest) =>
      match head.operator? with
      | some o => do
        let args ← rest.mapM (eval limit fuel env)
        lift (EvalM.ofExcept (o.apply args))
      | none =>
        match head.keyword? with
        | some kw => special (eval limit fuel) fuel env e kw rest
        | none => do
          match ← eval limit fuel env head with
          | .builtin b => do
            let args ← rest.mapM (eval limit fuel env)
            lift (b.run args)
          | .closure c => do
            let args ← rest.mapM (eval limit fuel env)
            callClosure (eval limit fuel) c args
          | v => lift (EvalM.fail (.notCallable v))

/-! ## Running the counter's steps -/

theorem run_bind (x : CountM limit α) (f : α → CountM limit β) (s : Machine × Calls limit) :
    (x >>= f).run.run s = match x.run.run s with
      | (.ok a, s') => (f a).run.run s'
      | (.error h, s') => (.error h, s') := by
  simp only [ExceptT.run_bind, StateT.run_bind]
  rcases x.run.run s with ⟨_ | _, s'⟩ <;> rfl

theorem run_lift (x : EvalM α) (m : Machine) (n : Calls limit) :
    (lift x : CountM limit α).run.run (m, n) = match x.run.run m with
      | (.ok a, m') => (.ok a, (m', n))
      | (.error h, m') => (.error (.halt h), (m', n)) := rfl

theorem run_calls_bind (f : Calls limit → CountM limit β) (m : Machine) (n : Calls limit) :
    (calls >>= f).run.run (m, n) = (f n).run.run (m, n) := rfl

theorem run_lift_eq (x : EvalM α) (m : Machine) (n : Calls limit) :
    (lift x : CountM limit α).run.run (m, n) =
      ((x.run.run m).1.mapError .halt, ((x.run.run m).2, n)) := by
  rw [run_lift]
  rcases x.run.run m with ⟨_ | a, m'⟩ <;> rfl

theorem run_enter_of_le (m : Machine) (n : Calls limit) (h : limit ≤ n.val) :
    (enter : CountM limit Unit).run.run (m, n) =
      (.error (.halt (.error (.recursionLimit limit))), (m, n)) := by
  rw [enter, run_calls_bind, dif_pos h]
  rfl

theorem run_enter_of_lt (hlimit : limit ≤ wordMax) (m : Machine) (n : Calls limit)
    (h : n.val < limit) :
    (enter : CountM limit Unit).run.run (m, n) = (.ok (), (m, ⟨n.val + 1, h⟩)) := by
  rw [enter, run_calls_bind, dif_neg (by omega), if_neg (by omega)]
  rfl

theorem run_leave_succ (m : Machine) (k : Nat) (hk : k + 1 ≤ limit) :
    (leave : CountM limit Unit).run.run (m, ⟨k + 1, hk⟩) = (.ok (), (m, ⟨k, by omega⟩)) := by
  rw [leave, run_calls_bind, if_neg (by simp)]
  rfl

theorem run_observe (x : CountM limit α) (s : Machine × Calls limit) :
    (observe x).run.run s = match x.run.run s with
      | (.ok a, s') => (.ok (.ok a), s')
      | (.error (.halt h), s') => (.ok (.error h), s')
      | (.error (.fault f), s') => (.error (.fault f), s') := by
  simp only [observe, ExceptT.run_mk, StateT.run_bind]
  rcases x.run.run s with ⟨_ | a, s'⟩
  · rename_i h
    cases h <;> rfl
  · rfl

/-! ## Runs that agree with evaluation at a depth -/

/-- `x`, run from `n` active calls, is `y` run at depth `n`: the same outcome and machine, with
the counter back at `n` and no fault. -/
def Agrees (n : Calls limit) (x : CountM limit α) (y : EvalM α) : Prop :=
  ∀ m, x.run.run (m, n) = (lift y).run.run (m, n)

namespace Agrees

variable {n : Calls limit}

theorem pure (a : α) : Agrees n (Pure.pure a : CountM limit α) (Pure.pure a) := fun _ => rfl

theorem lift (y : EvalM α) : Agrees n (Counted.lift y) y := fun _ => rfl

theorem halt (h : Halt) : Agrees n (throw (.halt h) : CountM limit α) (throw h) := fun _ => rfl

theorem bind {x : CountM limit α} {y : EvalM α} {f : α → CountM limit β} {g : α → EvalM β}
    (hx : Agrees n x y) (hf : ∀ a, Agrees n (f a) (g a)) : Agrees n (x >>= f) (y >>= g) := by
  intro m
  rw [run_bind, hx m, run_lift, run_lift, MiniLisp.run_bind]
  rcases y.run.run m with ⟨_ | a, m'⟩
  · rfl
  · exact hf a m'

theorem ite {c : Prop} [Decidable c] {x x' : CountM limit α} {y y' : EvalM α}
    (hx : Agrees n x y) (hx' : Agrees n x' y') :
    Agrees n (if c then x else x') (if c then y else y') := by
  split
  · exact hx
  · exact hx'

theorem mapM {γ : Type} {f : γ → CountM limit α} {g : γ → EvalM α} :
    ∀ l : List γ, (∀ a ∈ l, Agrees n (f a) (g a)) → Agrees n (l.mapM f) (l.mapM g)
  | [], _ => pure _
  | a :: l, h => by
    rw [List.mapM_cons, List.mapM_cons]
    exact bind (h a List.mem_cons_self) fun _ =>
      bind (mapM l fun b hb => h b (List.mem_cons_of_mem _ hb)) fun _ => pure _

theorem forM {γ : Type} {f : γ → CountM limit PUnit} {g : γ → EvalM PUnit} :
    ∀ l : List γ, (∀ a ∈ l, Agrees n (f a) (g a)) → Agrees n (l.forM f) (l.forM g)
  | [], _ => pure _
  | a :: l, h => by
    rw [List.forM, List.forM]
    exact bind (h a List.mem_cons_self) fun _ =>
      forM l fun b hb => h b (List.mem_cons_of_mem _ hb)

variable {stepC : Expr → CountM limit Value} {stepE : Expr → EvalM Value}

theorem runBlock : ∀ {es : List Expr}, (∀ e ∈ es, Agrees n (stepC e) (stepE e)) →
    Agrees n (Counted.runBlock stepC es) (MiniLisp.runBlock stepE es)
  | [], _ => pure _
  | [e], h => by
    rw [Counted.runBlock, MiniLisp.runBlock]
    exact h e List.mem_cons_self
  | e :: e' :: es, h => by
    rw [Counted.runBlock.eq_3 _ _ _ (List.cons_ne_nil _ _),
      MiniLisp.runBlock.eq_3 _ _ _ (List.cons_ne_nil _ _)]
    exact bind (h e List.mem_cons_self) fun _ =>
      runBlock fun b hb => h b (List.mem_cons_of_mem _ hb)

theorem runLoop {c body : Expr} (hc : Agrees n (stepC c) (stepE c))
    (hb : Agrees n (stepC body) (stepE body)) :
    ∀ rounds last, Agrees n (Counted.runLoop stepC c body rounds last)
      (MiniLisp.runLoop stepE c body rounds last)
  | 0, _ => halt _
  | rounds + 1, last => by
    rw [Counted.runLoop, MiniLisp.runLoop]
    exact bind hc fun v => ite (bind hb fun v' => runLoop hc hb rounds v') (pure _)

theorem runBody (h : ∀ e, Agrees n (stepC e) (stepE e)) (body : Expr) :
    Agrees n (Counted.runBody stepC body) (MiniLisp.runBody stepE body) := by
  unfold Counted.runBody MiniLisp.runBody
  cases body.bodyForms? with
  | some es => exact runBlock fun e _ => h e
  | none => exact h body

theorem special {evC : ScopeId → Expr → CountM limit Value} {evE : ScopeId → Expr → EvalM Value}
    (hev : ∀ env e, Agrees n (evC env e) (evE env e)) (rounds : Nat) (env : ScopeId)
    (form : Expr) (kw : Keyword) (rest : List Expr) :
    Agrees n (Counted.special evC rounds env form kw rest)
      (MiniLisp.special evE rounds env form kw rest) := by
  unfold Counted.special
  -- the two functions take the same branch; each branch's steps agree one by one
  split
  next e es =>
    rw [MiniLisp.special.eq_1]
    exact bind (lift _) fun b => runBlock fun e _ => hev b e
  next v x =>
    rw [MiniLisp.special.eq_2]
    cases v.varName? with
    | some name => exact bind (hev env _) fun x => bind (lift _) fun _ => pure _
    | none => exact lift _
  next v x =>
    rw [MiniLisp.special.eq_3]
    cases v.varName? with
    | some name => exact bind (hev env _) fun x => bind (lift _) fun _ => pure _
    | none => exact lift _
  next c a b =>
    rw [MiniLisp.special.eq_4]
    exact bind (hev env _) fun x => ite (hev env _) (hev env _)
  next c body =>
    rw [MiniLisp.special.eq_5]
    exact runLoop (hev env _) (hev env _) _ _
  next v ps body =>
    rw [MiniLisp.special.eq_6]
    cases v.varName? with
    | some name =>
      cases ps.paramNames? with
      | some params => exact bind (lift _) fun f => bind (lift _) fun _ => pure _
      | none => exact lift _
    | none => exact lift _
  next ps body =>
    rw [MiniLisp.special.eq_7]
    cases ps.paramNames? with
    | some params => exact lift _
    | none => exact lift _
  next h₁ h₂ h₃ h₄ h₅ h₆ h₇ =>
    rw [MiniLisp.special.eq_8 _ _ _ _ _ _ h₁ h₂ h₃ h₄ h₅ h₆ h₇]
    exact lift _

/-- **Counting a call and uncounting it** agrees with the depth check, on every outcome of the
body. -/
theorem counted (hlimit : limit ≤ wordMax) {x : CountM limit α} {y : EvalM α}
    (hx : ∀ hn : n.val < limit, Agrees ⟨n.val + 1, hn⟩ x y) :
    Agrees n (enter >>= fun _ => observe x >>= fun r => leave >>= fun _ => resume r)
      (if limit ≤ n.val then (EvalM.fail (.recursionLimit limit) : EvalM Unit) >>= fun _ => y
        else y) := by
  intro m
  by_cases hn : n.val < limit
  · -- the call is counted, the body runs one call deeper, and the count goes back down
    rw [run_bind, run_enter_of_lt hlimit m n hn, if_neg (by omega)]
    simp only
    rw [run_bind, run_observe, hx hn m, run_lift, run_lift]
    rcases y.run.run m with ⟨_ | a, m'⟩
    · simp only
      rw [run_bind, run_leave_succ]
      rfl
    · simp only
      rw [run_bind, run_leave_succ]
      rfl
  · -- the call is refused before anything is counted
    rw [run_bind, run_enter_of_le m n (by omega), if_pos (by omega)]
    rfl

/-- **A closure call keeps the count balanced**: the counted call is the call at depth `n`, given
bodies that agree one call deeper. -/
theorem callClosure (hlimit : limit ≤ wordMax) {enterC : ScopeId → Expr → CountM limit Value}
    {enterE : ScopeId → Expr → EvalM Value}
    (h : ∀ hn : n.val < limit, ∀ act e, Agrees ⟨n.val + 1, hn⟩ (enterC act e) (enterE act e))
    (c : Closure) (args : List Value) :
    Agrees n (Counted.callClosure enterC c args) (MiniLisp.callClosure limit n.val enterE c args) := by
  unfold Counted.callClosure MiniLisp.callClosure
  dsimp only
  -- past the arity check, both go on alike
  refine ite (bind (lift _) fun _ => ?_) ?_
  all_goals
    refine bind (lift _) fun act => bind (forM _ fun pa _ => ?_) fun _ =>
      counted hlimit fun hn => runBody (h hn act) c.body
    obtain ⟨p, a⟩ := pa
    exact lift _

/-- **Counted evaluation is evaluation at the count it starts from.** -/
theorem eval (hlimit : limit ≤ wordMax) : ∀ fuel (n : Calls limit) env e,
    Agrees n (Counted.eval limit fuel env e) (MiniLisp.eval limit fuel n.val env e)
  | 0, _, _, _ => halt _
  | fuel + 1, n, env, e => by
    have ih := eval hlimit fuel
    cases e with
    | num x => exact pure _
    | str t => exact lift _
    | sym name => exact ite (lift _) (lift _)
    | list items =>
      cases items with
      | nil =>
        rw [Counted.eval, MiniLisp.eval]
        exact lift _
      | cons head rest =>
        rw [Counted.eval, MiniLisp.eval]
        have hargs := mapM rest fun e _ => ih n env e
        cases head.operator? with
        | some o => exact bind hargs fun args => lift _
        | none =>
          cases head.keyword? with
          | some kw => exact special (ih n) fuel env _ _ rest
          | none =>
            refine bind (ih n env head) fun v => ?_
            -- a call: the callee's value decides between a builtin, a closure and a failure
            cases v with
            | builtin b => exact bind hargs fun args => lift _
            | closure c =>
              exact bind hargs fun args => callClosure hlimit (fun hn => ih ⟨n.val + 1, hn⟩) c args
            | _ => exact lift _

end Agrees

end Counted

/-! ## The counter is balanced -/

/-- **The call counter is balanced**: counted evaluation is evaluation at the count it starts
from, and it hands the counter back as it found it on every outcome. -/
theorem call_counter_balanced {limit : Nat} (hlimit : limit ≤ wordMax) (fuel : Nat)
    (n : Calls limit) (env : ScopeId) (m : Machine) :
    (∀ e, (Counted.eval limit fuel env e).run.run (m, n) =
      (((eval limit fuel n.val env e).run.run m).1.mapError .halt,
        (((eval limit fuel n.val env e).run.run m).2, n))) ∧
    (∀ c body rounds last,
      (Counted.runLoop (Counted.eval limit fuel env) c body rounds last).run.run (m, n) =
        (((runLoop (eval limit fuel n.val env) c body rounds last).run.run m).1.mapError .halt,
          (((runLoop (eval limit fuel n.val env) c body rounds last).run.run m).2, n))) := by
  have heval := Counted.Agrees.eval hlimit fuel n env
  refine ⟨fun e => ?_, fun c body rounds last => ?_⟩
  · rw [heval e m, Counted.run_lift_eq]
  · rw [Counted.Agrees.runLoop (heval c) (heval body) rounds last m, Counted.run_lift_eq]

/-- Under the largest limit, a call of `(lambda (x) x)` from a new session with no call active
leaves the counter at zero. -/
theorem call_counter_balanced_wordMax :
    wordMax ≤ wordMax ∧
      (Counted.eval wordMax ample globalScope
          (.list [.list [.sym "lambda", .list [.sym "x"], .sym "x"], .num 1])).run.run
          ({ store := Store.initial, out := "" }, ⟨0, Nat.zero_le _⟩) =
        (((eval wordMax ample 0 globalScope
            (.list [.list [.sym "lambda", .list [.sym "x"], .sym "x"], .num 1])).run.run
            { store := Store.initial, out := "" }).1.mapError .halt,
          (((eval wordMax ample 0 globalScope
            (.list [.list [.sym "lambda", .list [.sym "x"], .sym "x"], .num 1])).run.run
            { store := Store.initial, out := "" }).2, ⟨0, Nat.zero_le _⟩)) :=
  ⟨Nat.le_refl _, (call_counter_balanced (Nat.le_refl _) ample ⟨0, Nat.zero_le _⟩ globalScope _).1 _⟩

end MiniLisp
