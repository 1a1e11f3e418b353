import MiniLisp.Proofs.Run

/-! # The closure calls of a run

The depth limit looks at one moment of a run: a closure call that has passed its arity check and
bound its parameters, before its body runs. `Traced.eval` is evaluation that notes each such
moment with the machine as it stands there (`Event.call`), and the end of each call whose body
gives its value (`Event.done`); everything else it does as `eval` does. A call is active from its
moment until its end, so the events before a moment say how many calls are active there
(`Active`): builtins, operators and the nesting of expressions make no events.

* `callTrace L fuel depth env e m`: the events of evaluating `e` from the machine `m`.
* `Traced.Agrees x y`: `x` does what the evaluation step `y` does, and adds the same events to
  any log; `Traced.Agrees.eval`: traced evaluation agrees with evaluation.
* `Traced.run_eval`: a traced evaluation ends with the outcome and the machine of the
  evaluation, its log followed by the run's call events.
-/

namespace MiniLisp

/-- A moment of a run that the depth limit looks at. -/
inductive Event where
  /-- A closure call has passed its arity check and bound its parameters, on this machine; its
  depth is checked next. -/
  | call (m : Machine)
  /-- A closure call's body has given its value. -/
  | done

namespace Event

def isCall : Event → Bool
  | .call _ => true
  | .done => false

def isDone : Event → Bool
  | .call _ => false
  | .done => true

end Event

/-- After the events `pre`, from `depth` calls active at their start, `k` calls are active. -/
def Active (depth : Nat) (pre : List Event) (k : Nat) : Prop :=
  depth + pre.countP Event.isCall = k + pre.countP Event.isDone

/-- Evaluation that keeps a log of events beside the machine, on every outcome. -/
abbrev TraceM := ExceptT Halt (StateM (Machine × List Event))

namespace Traced

variable {α β : Type}

/-- A step of evaluation, run on the machine; the log is left alone. -/
def lift (x : EvalM α) : TraceM α :=
  ExceptT.mk fun s => ((x.run.run s.1).1, ((x.run.run s.1).2, s.2))

/-- Notes the event `f` makes of the machine as it stands. -/
def note (f : Machine → Event) : TraceM Unit := modify fun s => (s.1, s.2 ++ [f s.1])

/-- Evaluates each expression in turn with `step` and gives the value of the last one. -/
def runBlock (step : Expr → TraceM Value) : List Expr → TraceM Value
  | [] => pure .undefined
  | [e] => step e
  | e :: es => do
    let _ ← step e
    runBlock step es

/-- Runs `body` while `cond` is true, at most `rounds` times. -/
def runLoop (step : Expr → TraceM Value) (cond body : Expr) : Nat → Value → TraceM Value
  | 0, _ => throw .exhausted
  | rounds + 1, last => do
    if (← step cond).truthy then
      let v ← step body
      runLoop step cond body rounds v
    else pure last

/-- Runs a closure's body in its call scope: the forms of a `begin` body directly there. -/
def runBody (step : Expr → TraceM Value) (body : Expr) : TraceM Value :=
  match body.bodyForms? with
  | some es => runBlock step es
  | none => step body

/-- Calls a closure as `callClosure` does, noting the moment its depth is checked and, when its
body gives a value, its end. -/
def callClosure (limit depth : Nat) (enter : ScopeId → Expr → TraceM Value) (c : Closure)
    (args : List Value) : TraceM Value :=
  if args.length ≠ c.params.length then lift (EvalM.fail (.arity c.params.length args.length))
  else do
    let act ← lift (EvalM.newScope c.scope)
    (c.params.zip args).forM fun (p, a) => lift (EvalM.define act p a)
    note .call
    if limit ≤ depth then lift (EvalM.fail (.recursionLimit limit))
    else do
      let v ← runBody (enter act) c.body
      note fun _ => .done
      pure v

/-- The special forms, `ev` evaluating in a given scope and `rounds` bounding a loop. -/
def special (ev : ScopeId → Expr → TraceM Value) (rounds : Nat) (env : ScopeId) (form : Expr) :
    Keyword → List Expr → TraceM Value
  | .begin, e :: es => do
    let block ← lift (EvalM.newScope env)
    runBlock (ev block) (e :: es)
  | .var, [n, v] =>
    match n.varName? with
    | some name => do
      let x ← ev env v
      lift (EvalM.define env name x)
      pure x
    | none => lift (EvalM.fail (.unimplemented form))
  | .set, [n, v] =>
    match n.varName? with
    | some name => do
      let x ← ev env v
      lift (EvalM.assign env name x)
      pure x
    | none => lift (EvalM.fail (.unimplemented form))
  | .cond, [c, a, b] => do
    if (← ev env c).truthy then ev env a else ev env b
  | .loop, [c, body] => runLoop (ev env) c body rounds .undefined
  | .define, [n, ps, body] =>
    match n.varName?, ps.paramNames? with
    | some name, some params => do
      let f ← lift (EvalM.makeClosure (some name) params body env)
      lift (EvalM.define env name f)
      pure f
    | _, _ => lift (EvalM.fail (.unimplemented form))
  | .lambda, [ps, body] =>
    match ps.paramNames? with
    | some params => lift (EvalM.makeClosure none params body env)
    | none => lift (EvalM.fail (.unimplemented form))
  | _, _ => lift (EvalM.fail (.unimplemented form))

/-- Evaluates `e` in scope `env` with `depth` closure calls active, noting the call events. -/
def eval (limit : Nat) : Nat → Nat → ScopeId → Expr → TraceM Value
  | 0, _, _, _ => throw .exhausted
  | fuel + 1, depth, env, e =>
    match e with
    | .num x => pure (.num x)
    | .str t => lift (EvalM.ofExcept (literalValue t))
    | .sym n =>
      if Expr.isNameWord n then lift (EvalM.lookup env n) else lift (EvalM.fail (.unimplemented e))
    | .list [] => lift (EvalM.fail (.unimplemented e))
    | .list (head :: rest) =>
      match head.operator? with
      | some o => do
        let args ← rest.mapM (eval limit fuel depth env)
        lift (EvalM.ofExcept (o.apply args))
      | none =>
        match head.keyword? with
        | some kw => special (eval limit fuel depth) fuel env e kw rest
        | none => do
          match ← eval limit fuel depth env head with
          | .builtin b => do
            let args ← rest.mapM (eval limit fuel depth env)
            lift (b.run args)
          | .closure c => do
            let args ← rest.mapM (eval limit fuel depth env)
            callClosure limit depth (eval limit fuel (depth + 1)) c args
          | v => lift (EvalM.fail (.notCallable v))

end Traced

/-- The events of evaluating `e` in scope `env` with `depth` calls active, from the machine `m`. -/
def callTrace (limit fuel depth : Nat) (env : ScopeId) (e : Expr) (m : Machine) : List Event :=
  ((Traced.eval limit fuel depth env e).run.run (m, [])).2.2

namespace Traced

variable {α β : Type}

/-! ## Running the traced steps -/

theorem run_bind (x : TraceM α) (f : α → TraceM β) (s : Machine × List Event) :
    (x >>= f).run.run s = match x.run.run s with
      | (.ok a, s') => (f a).run.run s'
      | (.error h, s') => (.error h, s') := by
  simp only [ExceptT.run_bind, StateT.run_bind]
  rcases x.run.run s with ⟨_ | _, s'⟩ <;> rfl

theorem run_note (f : Machine → Event) (m : Machine) (log : List Event) :
    (note f).run.run (m, log) = (.ok (), (m, log ++ [f m])) := rfl

/-! ## Traced runs that agree with evaluation -/

/-- `x` does what `y` does, outcome and machine, and adds the same events to any log. -/
def Agrees (x : TraceM α) (y : EvalM α) : Prop :=
  ∀ m, ∃ tr, ∀ log, x.run.run (m, log) = ((y.run.run m).1, ((y.run.run m).2, log ++ tr))

namespace Agrees

/-- A step that notes nothing agrees with the evaluation step it runs. -/
theorem of_silent {x : TraceM α} {y : EvalM α}
    (h : ∀ m log, x.run.run (m, log) = ((y.run.run m).1, ((y.run.run m).2, log))) :
    Agrees x y :=
  fun m => ⟨[], fun log => by rw [List.append_nil]; exact h m log⟩

theorem pure (a : α) : Agrees (Pure.pure a : TraceM α) (Pure.pure a) :=
  of_silent fun _ _ => rfl

theorem lift (y : EvalM α) : Agrees (Traced.lift y) y := of_silent fun _ _ => rfl

theorem throw (h : Halt) : Agrees (throw h : TraceM α) (throw h) := of_silent fun _ _ => rfl

theorem bind {x : TraceM α} {y : EvalM α} {f : α → TraceM β} {g : α → EvalM β}
    (hx : Agrees x y) (hf : ∀ a, Agrees (f a) (g a)) : Agrees (x >>= f) (y >>= g) := by
  intro m
  obtain ⟨tr, htr⟩ := hx m
  rcases hy : y.run.run m with ⟨_ | a, m₁⟩
  · refine ⟨tr, fun log => ?_⟩
    rw [run_bind, htr log, MiniLisp.run_bind, hy]
  · -- the rest runs from the machine the first part left, after its events
    obtain ⟨tr', htr'⟩ := hf a m₁
    refine ⟨tr ++ tr', fun log => ?_⟩
    rw [run_bind, htr log, MiniLisp.run_bind, hy]
    dsimp only
    rw [htr' (log ++ tr), List.append_assoc]

theorem note_bind {x : TraceM α} {y : EvalM α} (f : Machine → Event) (hx : Agrees x y) :
    Agrees (note f >>= fun _ => x) y := by
  intro m
  obtain ⟨tr, htr⟩ := hx m
  refine ⟨f m :: tr, fun log => ?_⟩
  rw [run_bind, run_note]
  dsimp only
  rw [htr, List.append_assoc, List.singleton_append]

theorem bind_note {x : TraceM α} {y : EvalM α} (hx : Agrees x y) (f : Machine → Event) :
    Agrees (x >>= fun v => note f >>= fun _ => Pure.pure v) y := by
  have h := bind hx fun v => note_bind f (pure v)
  rwa [bind_pure] at h

theorem ite {c : Prop} [Decidable c] {x x' : TraceM α} {y y' : EvalM α}
    (hx : Agrees x y) (hx' : Agrees x' y') :
    Agrees (if c then x else x') (if c then y else y') := by
  split
  · exact hx
  · exact hx'

theorem mapM {γ : Type} {f : γ → TraceM α} {g : γ → EvalM α} :
    ∀ l : List γ, (∀ a ∈ l, Agrees (f a) (g a)) → Agrees (l.mapM f) (l.mapM g)
  | [], _ => pure _
  | a :: l, h => by
    rw [List.mapM_cons, List.mapM_cons]
    exact bind (h a List.mem_cons_self) fun _ =>
      bind (mapM l fun b hb => h b (List.mem_cons_of_mem _ hb)) fun _ => pure _

theorem forM {γ : Type} {f : γ → TraceM PUnit} {g : γ → EvalM PUnit} :
    ∀ l : List γ, (∀ a ∈ l, Agrees (f a) (g a)) → Agrees (l.forM f) (l.forM g)
  | [], _ => pure _
  | a :: l, h => by
    rw [List.forM, List.forM]
    exact bind (h a List.mem_cons_self) fun _ =>
      forM l fun b hb => h b (List.mem_cons_of_mem _ hb)

variable {stepT : Expr → TraceM Value} {stepE : Expr → EvalM Value}

theorem runBlock : ∀ {es : List Expr}, (∀ e ∈ es, Agrees (stepT e) (stepE e)) →
    Agrees (Traced.runBlock stepT es) (MiniLisp.runBlock stepE es)
  | [], _ => pure _
  | [e], h => by
    rw [Traced.runBlock, MiniLisp.runBlock]
    exact h e List.mem_cons_self
  | e :: e' :: es, h => by
    rw [Traced.runBlock.eq_3 _ _ _ (List.cons_ne_nil _ _),
      MiniLisp.runBlock.eq_3 _ _ _ (List.cons_ne_nil _ _)]
    exact bind (h e List.mem_cons_self) fun _ =>
      runBlock fun b hb => h b (List.mem_cons_of_mem _ hb)

theorem runLoop {c body : Expr} (hc : Agrees (stepT c) (stepE c))
    (hb : Agrees (stepT body) (stepE body)) :
    ∀ rounds last, Agrees (Traced.runLoop stepT c body rounds last)
      (MiniLisp.runLoop stepE c body rounds last)
  | 0, _ => throw _
  | rounds + 1, last => by
    rw [Traced.runLoop, MiniLisp.runLoop]
    exact bind hc fun v => ite (bind hb fun v' => runLoop hc hb rounds v') (pure _)

theorem runBody (h : ∀ e, Agrees (stepT e) (stepE e)) (body : Expr) :
    Agrees (Traced.runBody stepT body) (MiniLisp.runBody stepE body) := by
  unfold Traced.runBody MiniLisp.runBody
  cases body.bodyForms? with
  | some es => exact runBlock fun e _ => h e
  | none => exact h body

theorem special {evT : ScopeId → Expr → TraceM Value} {evE : ScopeId → Expr → EvalM Value}
    (hev : ∀ env e, Agrees (evT env e) (evE env e)) (rounds : Nat) (env : ScopeId)
    (form : Expr) (kw : Keyword) (rest : List Expr) :
    Agrees (Traced.special evT rounds env form kw rest)
      (MiniLisp.special evE rounds env form kw rest) := by
  unfold Traced.special
  -- the two functions take the same branch; each branch's steps agree one by one
  split
  next e es =>
    rw [MiniLisp.special.eq_1]
    exact bind (lift _) fun b => runBlock fun e _ => hev b e
  next v x =>
    rw [MiniLisp.special.eq_2]
    cases v.varName? with
    | some name => exact bind (hev env _) fun x => bind (lift _) fun _ => pure _
    | none => exact lift _
  next v x =>
    rw [MiniLisp.special.eq_3]
    cases v.varName? with
    | some name => exact bind (hev env _) fun x => bind (lift _) fun _ => pure _
    | none => exact lift _
  next c a b =>
    rw [MiniLisp.special.eq_4]
    exact bind (hev env _) fun x => ite (hev env _) (hev env _)
  next c body =>
    rw [MiniLisp.special.eq_5]
    exact runLoop (hev env _) (hev env _) _ _
  next v ps body =>
    rw [MiniLisp.special.eq_6]
    cases v.varName? with
    | some name =>
      cases ps.paramNames? with
      | some params => exact bind (lift _) fun f => bind (lift _) fun _ => pure _
      | none => exact lift _
    | none => exact lift _
  next ps body =>
    rw [MiniLisp.special.eq_7]
    cases ps.paramNames? with
    | some params => exact lift _
    | none => exact lift _
  next h₁ h₂ h₃ h₄ h₅ h₆ h₇ =>
    rw [MiniLisp.special.eq_8 _ _ _ _ _ _ h₁ h₂ h₃ h₄ h₅ h₆ h₇]
    exact lift _

theorem callClosure {limit depth : Nat} {enterT : ScopeId → Expr → TraceM Value}
    {enterE : ScopeId → Expr → EvalM Value} (h : ∀ act e, Agrees (enterT act e) (enterE act e))
    (c : Closure) (args : List Value) :
    Agrees (Traced.callClosure limit depth enterT c args)
      (MiniLisp.callClosure limit depth enterE c args) := by
  unfold Traced.callClosure
  rw [callClosure_eq]
  refine ite (lift _) (bind (lift _) fun act => bind (forM _ fun pa _ => ?_) fun _ => ?_)
  · obtain ⟨p, a⟩ := pa
    exact lift _
  · exact note_bind _ (ite (lift _) (bind_note (runBody (h act) c.body) _))

/-- **Traced evaluation is evaluation**, with its call events noted. -/
theorem eval (limit : Nat) : ∀ fuel depth env e,
    Agrees (Traced.eval limit fuel depth env e) (MiniLisp.eval limit fuel depth env e)
  | 0, _, _, _ => throw _
  | fuel + 1, depth, env, e => by
    have ih := eval limit fuel
    cases e with
    | num x => exact pure _
    | str t => exact lift _
    | sym name => exact ite (lift _) (lift _)
    | list items =>
      cases items with
      | nil =>
        rw [Traced.eval, MiniLisp.eval]
        exact lift _
      | cons head rest =>
        rw [Traced.eval, MiniLisp.eval]
        have hargs := mapM rest fun e _ => ih depth env e
        cases head.operator? with
        | some o => exact bind hargs fun args => lift _
        | none =>
          cases head.keyword? with
          | some kw => exact special (ih depth) fuel env _ _ rest
          | none =>
            refine bind (ih depth env head) fun v => ?_
            -- a call: the callee's value decides between a builtin, a closure and a failure
            cases v with
            | builtin b => exact bind hargs fun args => lift _
            | closure c => exact bind hargs fun args => callClosure (ih (depth + 1)) c args
            | _ => exact lift _

end Agrees

/-- A traced evaluation ends with the outcome and the machine of the evaluation, its log followed
by the call events of the run. -/
theorem run_eval (limit fuel depth : Nat) (env : ScopeId) (e : Expr) (m : Machine)
    (log : List Event) :
    (Traced.eval limit fuel depth env e).run.run (m, log) =
      (((MiniLisp.eval limit fuel depth env e).run.run m).1,
        (((MiniLisp.eval limit fuel depth env e).run.run m).2,
          log ++ callTrace limit fuel depth env e m)) := by
  obtain ⟨tr, htr⟩ := Agrees.eval limit fuel depth env e m
  rw [htr, callTrace, htr, List.nil_append]

end Traced

end MiniLisp
