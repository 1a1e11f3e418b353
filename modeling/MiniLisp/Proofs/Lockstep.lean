import Mathlib
import MiniLisp.Proofs.Run
import MiniLisp.Proofs.Literal

/-! # Relations that evaluation keeps step by step

Facts about `eval` compare the runs of two evaluators that take the same steps, or say of one
evaluator what each of its steps keeps. Either way the proof is one walk through the evaluator;
this module makes that walk once, for any relation `P` between computations.

* `Sequenced P`: `P` holds of `pure` and of running out of fuel, and `bind` keeps it. The loops
  of the evaluator then keep it (`runBlock_rel`, `runLoop_rel`, `runBody_rel`).
* `Lockstep P`: besides, `P` holds of each primitive step taken alike on both sides and of each
  error other than the depth limit. The special forms then keep it (`special_rel`), and so does
  `eval`, given the closure call, the one step at which two evaluators may part
  (`eval_rel`, `eval_rel_self`).
* `Operator.apply_error_cases`: operators fail only on their operands, never at the depth limit
  and never at a fault; string literals only for want of their quotes (`literalValue_eq_error`).
* `StopsWithin S x`: every run of `x` that stops, stops as `S` allows; it is a lockstep relation
  when `S` allows every error of the language but the depth limit's (`StopsWithin.lockstep`).
-/

namespace MiniLisp

/-- A relation between computations that sequencing keeps. -/
structure Sequenced (P : {α : Type} → EvalM α → EvalM α → Prop) : Prop where
  pure : ∀ {α : Type} (a : α), P (Pure.pure a : EvalM α) (Pure.pure a)
  bind : ∀ {α β : Type} {x y : EvalM α} {f g : α → EvalM β},
    P x y → (∀ a, P (f a) (g a)) → P (x >>= f) (y >>= g)
  exhausted : ∀ {α : Type}, P (throw .exhausted : EvalM α) (throw .exhausted)

/-- A relation between computations that every step of evaluation keeps, the closure call apart. -/
structure Lockstep (P : {α : Type} → EvalM α → EvalM α → Prop) : Prop
    extends Sequenced P where
  fail : ∀ {α : Type} {e : EvalError}, (∀ k, e ≠ .recursionLimit k) →
    P (EvalM.fail e : EvalM α) (EvalM.fail e)
  lookup : ∀ env name, P (EvalM.lookup env name) (EvalM.lookup env name)
  define : ∀ env name v, P (EvalM.define env name v) (EvalM.define env name v)
  assign : ∀ env name v, P (EvalM.assign env name v) (EvalM.assign env name v)
  newScope : ∀ p, P (EvalM.newScope p) (EvalM.newScope p)
  makeClosure : ∀ name params body env,
    P (EvalM.makeClosure name params body env) (EvalM.makeClosure name params body env)
  emit : ∀ text, P (EvalM.emit text) (EvalM.emit text)

variable {P : {α : Type} → EvalM α → EvalM α → Prop} {α : Type}

theorem rel_ite {c : Prop} {_ : Decidable c} {x x' y y' : EvalM α} (hx : P x x') (hy : P y y') :
    P (if c then x else y) (if c then x' else y') := by
  split
  · exact hx
  · exact hy

/-! ## Sequencing -/

namespace Sequenced

variable (hP : Sequenced P)
include hP

theorem mapM_rel {γ : Type} {f g : γ → EvalM α} :
    ∀ (l : List γ), (∀ a ∈ l, P (f a) (g a)) → P (l.mapM f) (l.mapM g)
  | [], _ => hP.pure _
  | a :: l, h => by
    rw [List.mapM_cons, List.mapM_cons]
    exact hP.bind (h a List.mem_cons_self) fun _ =>
      hP.bind (mapM_rel l fun b hb => h b (List.mem_cons_of_mem _ hb)) fun _ => hP.pure _

theorem forM_rel {γ : Type} {f g : γ → EvalM PUnit} :
    ∀ (l : List γ), (∀ a ∈ l, P (f a) (g a)) → P (l.forM f) (l.forM g)
  | [], _ => hP.pure _
  | a :: l, h => by
    rw [List.forM, List.forM]
    exact hP.bind (h a List.mem_cons_self) fun _ =>
      forM_rel l fun b hb => h b (List.mem_cons_of_mem _ hb)

theorem foldlM_rel {γ : Type} {f g : α → γ → EvalM α} :
    ∀ (l : List γ) (init : α), (∀ b, ∀ a ∈ l, P (f b a) (g b a)) →
      P (l.foldlM f init) (l.foldlM g init)
  | [], _, _ => hP.pure _
  | a :: l, init, h => by
    rw [List.foldlM_cons, List.foldlM_cons]
    exact hP.bind (h init a List.mem_cons_self) fun b =>
      foldlM_rel l b fun b' a' ha' => h b' a' (List.mem_cons_of_mem _ ha')

variable {step step' : Expr → EvalM Value}

theorem runBlock_rel : ∀ {es : List Expr}, (∀ e ∈ es, P (step e) (step' e)) →
    P (runBlock step es) (runBlock step' es)
  | [], _ => hP.pure _
  | [e], h => by
    rw [runBlock, runBlock]
    exact h e List.mem_cons_self
  | e :: e' :: es, h => by
    rw [runBlock.eq_3 _ _ _ (List.cons_ne_nil _ _), runBlock.eq_3 _ _ _ (List.cons_ne_nil _ _)]
    exact hP.bind (h e List.mem_cons_self) fun _ =>
      runBlock_rel fun b hb => h b (List.mem_cons_of_mem _ hb)

theorem runLoop_rel {c body : Expr} (hc : P (step c) (step' c)) (hb : P (step body) (step' body)) :
    ∀ rounds last, P (runLoop step c body rounds last) (runLoop step' c body rounds last)
  | 0, _ => hP.exhausted
  | rounds + 1, last => by
    rw [runLoop, runLoop]
    refine hP.bind hc fun v => ?_
    exact rel_ite (hP.bind hb fun v' => runLoop_rel hc hb rounds v') (hP.pure _)

theorem runBody_rel (h : ∀ e, P (step e) (step' e)) (body : Expr) :
    P (runBody step body) (runBody step' body) := by
  unfold runBody
  split
  · exact hP.runBlock_rel fun e _ => h e
  · exact h body

end Sequenced

/-! ## Operators fail on their operands only -/

theorem Operator.number_error {o : Operator} {v : Value} {e : EvalError}
    (h : o.number v = .error e) :
    ∃ k, e = .typeMismatch o k := by
  unfold Operator.number at h
  split at h
  · cases h
  · cases h
    exact ⟨_, rfl⟩

/-- The arithmetic on numbers fails only for `==`, which `applyBinary` compares first. -/
theorem Operator.onNumbers_ne_error {o : Operator} (ho : o ≠ .eq) (x y : Float) (f : Fault) :
    o.onNumbers x y ≠ .error f := by
  cases o <;> simp_all [Operator.onNumbers]

/-- Operators fail only on the kinds or the number of their operands. -/
theorem Operator.apply_error_cases {o : Operator} {args : List Value} {h : Halt}
    (hh : o.apply args = .error h) :
    (∃ o' k, h = .error (.typeMismatch o' k)) ∨ ∃ n m, h = .error (.arity n m) := by
  -- the failures of `number` name a type; the arithmetic after them does not fail
  have hnum : ∀ (o' : Operator) (v : Value) {β : Type} (f : Float → Except Halt β),
      ((o'.number v).mapError Halt.error >>= f) = .error h →
        (∃ k, h = .error (.typeMismatch o' k)) ∨ ∃ x, f x = .error h := by
    intro o' v β f hb
    cases hn : o'.number v with
    | error e' =>
      rw [hn] at hb
      cases hb
      obtain ⟨k, rfl⟩ := Operator.number_error hn
      exact .inl ⟨k, rfl⟩
    | ok x => rw [hn] at hb; exact .inr ⟨x, hb⟩
  unfold Operator.apply at hh
  split at hh
  · rcases hnum _ _ _ hh with ⟨k, rfl⟩ | ⟨x, hx⟩
    · exact .inl ⟨_, _, rfl⟩
    · cases hx
  · unfold Operator.applyBinary at hh
    split at hh
    · cases hh
    · cases hh
    · rename_i hne _
      rcases hnum _ _ _ hh with ⟨k, rfl⟩ | ⟨x, hx⟩
      · exact .inl ⟨_, _, rfl⟩
      · rcases hnum _ _ _ hx with ⟨k, rfl⟩ | ⟨y, hy⟩
        · exact .inl ⟨_, _, rfl⟩
        · cases hon : Operator.onNumbers _ x y with
          | ok v => rw [hon] at hy; cases hy
          | error f => exact absurd hon (Operator.onNumbers_ne_error (fun he => hne he) x y f)
  · cases hh
    exact .inr ⟨_, _, rfl⟩

/-! ## Evaluation -/

namespace Lockstep

variable (hP : Lockstep P)
include hP

theorem ofExcept_rel {r : Except Halt α}
    (hr : ∀ h, r = .error h → ∃ e, h = .error e ∧ ∀ k, e ≠ .recursionLimit k) :
    P (EvalM.ofExcept r) (EvalM.ofExcept r) := by
  cases r with
  | error h =>
    obtain ⟨e, rfl, he⟩ := hr h rfl
    exact hP.fail he
  | ok a => exact hP.pure a

theorem literal_rel (t : String) :
    P (EvalM.ofExcept (literalValue t)) (EvalM.ofExcept (literalValue t)) :=
  hP.ofExcept_rel fun _ hv => ⟨_, (literalValue_eq_error hv).2, fun k hk => by cases hk⟩

theorem apply_rel (o : Operator) (args : List Value) :
    P (EvalM.ofExcept (o.apply args)) (EvalM.ofExcept (o.apply args)) := by
  refine hP.ofExcept_rel fun h hh => ?_
  rcases Operator.apply_error_cases hh with ⟨o', k, rfl⟩ | ⟨n, m, rfl⟩
  · exact ⟨_, rfl, fun k hk => by cases hk⟩
  · exact ⟨_, rfl, fun k hk => by cases hk⟩

theorem builtin_rel (b : Builtin) (args : List Value) : P (b.run args) (b.run args) := by
  cases b with
  | op o => exact hP.apply_rel o args
  | print => exact hP.bind (hP.emit _) fun _ => hP.pure _

theorem special_rel {ev ev' : ScopeId → Expr → EvalM Value}
    (hev : ∀ env e, P (ev env e) (ev' env e)) (rounds : Nat) (env : ScopeId) (form : Expr)
    (kw : Keyword) (rest : List Expr) :
    P (special ev rounds env form kw rest) (special ev' rounds env form kw rest) := by
  have hun : ∀ {α : Type}, P (EvalM.fail (.unimplemented form) : EvalM α)
      (EvalM.fail (.unimplemented form)) := hP.fail fun k hk => by cases hk
  unfold special
  split
  · exact hP.bind (hP.newScope _) fun b => hP.runBlock_rel fun e _ => hev b e
  · split
    · exact hP.bind (hev env _) fun x => hP.bind (hP.define _ _ _) fun _ => hP.pure _
    · exact hun
  · split
    · exact hP.bind (hev env _) fun x => hP.bind (hP.assign _ _ _) fun _ => hP.pure _
    · exact hun
  · exact hP.bind (hev env _) fun x => rel_ite (hev env _) (hev env _)
  · exact hP.runLoop_rel (hev env _) (hev env _) _ _
  · split
    · exact hP.bind (hP.makeClosure _ _ _ _) fun f => hP.bind (hP.define _ _ _) fun _ => hP.pure _
    · exact hun
  · split
    · exact hP.makeClosure _ _ _ _
    · exact hun
  · exact hun

/-- A closure call up to its depth check, which is left to `tail`: the arity check, the new
scope and the binding of the parameters. -/
theorem callClosure_rel {L L' depth : Nat} {enter enter' : ScopeId → Expr → EvalM Value}
    (c : Closure) (args : List Value)
    (tail : ∀ act,
      P (if L ≤ depth then EvalM.fail (.recursionLimit L) else runBody (enter act) c.body)
        (if L' ≤ depth then EvalM.fail (.recursionLimit L') else runBody (enter' act) c.body)) :
    P (callClosure L depth enter c args) (callClosure L' depth enter' c args) := by
  rw [callClosure_eq, callClosure_eq]
  refine rel_ite (hP.fail fun k hk => by cases hk) ?_
  exact hP.bind (hP.newScope _) fun act =>
    hP.bind (hP.forM_rel _ fun pa _ => hP.define _ _ _) fun _ => tail act

/-- **Every evaluation keeps a lockstep relation** that the closure call keeps. -/
theorem eval_rel {L L' : Nat}
    (hcall : ∀ depth {enter enter' : ScopeId → Expr → EvalM Value},
      (∀ act e, P (enter act e) (enter' act e)) →
        ∀ c args, P (callClosure L depth enter c args) (callClosure L' depth enter' c args)) :
    ∀ fuel depth env e, P (eval L fuel depth env e) (eval L' fuel depth env e)
  | 0, _, _, _ => hP.exhausted
  | fuel + 1, depth, env, e => by
    have ih := eval_rel hcall fuel
    cases e with
    | num x => exact hP.pure _
    | str t => exact hP.literal_rel t
    | sym n => exact rel_ite (hP.lookup _ _) (hP.fail fun k hk => by cases hk)
    | list items =>
    cases items with
    | nil => exact hP.fail fun k hk => by cases hk
    | cons head rest =>
      rw [eval, eval]
      have hargs := hP.mapM_rel rest fun e _ => ih depth env e
      split
      · exact hP.bind hargs fun args => hP.apply_rel _ args
      · split
        · exact hP.special_rel (ih depth) fuel env _ _ rest
        · refine hP.bind (ih depth env head) fun v => ?_
          split
          · exact hP.bind hargs fun args => hP.builtin_rel _ args
          · exact hP.bind hargs fun args => hcall depth (ih (depth + 1)) _ _
          · exact hP.fail fun k hk => by cases hk

/-- Under one limit, a lockstep relation that also holds of the depth-limit error holds of every
evaluation. -/
theorem eval_rel_self {L : Nat}
    (hlimit : ∀ {α : Type},
      P (EvalM.fail (.recursionLimit L) : EvalM α) (EvalM.fail (.recursionLimit L))) :
    ∀ fuel depth env e, P (eval L fuel depth env e) (eval L fuel depth env e) :=
  hP.eval_rel fun _ _ _ h c _ => hP.callClosure_rel c _ fun act =>
    rel_ite hlimit (hP.runBody_rel (h act) c.body)

end Lockstep

/-! ## Computations that stop only in given ways -/

/-- Every run of `x`, from any machine, that stops, stops with a halt that `S` allows. -/
def StopsWithin (S : Halt → Prop) {α : Type} (x : EvalM α) : Prop :=
  ∀ m h, (x.run.run m).1 = .error h → S h

namespace StopsWithin

variable {S : Halt → Prop} {β : Type}

theorem bind {x : EvalM α} {g : α → EvalM β} (hx : StopsWithin S x)
    (hg : ∀ a, StopsWithin S (g a)) : StopsWithin S (x >>= g) := by
  intro m h hh
  rw [run_bind] at hh
  rcases hr : x.run.run m with ⟨_ | a, m₁⟩
  · rw [hr] at hh
    exact hx m h (by rw [hr, Except.error.inj hh])
  · rw [hr] at hh
    exact hg a m₁ h hh

/-- Where `S` allows running out of fuel and every error of the language but the depth limit's,
the steps of evaluation stop only as `S` allows. -/
theorem lockstep (hex : S .exhausted) (herr : ∀ e, (∀ k, e ≠ .recursionLimit k) → S (.error e)) :
    Lockstep (fun x _ => StopsWithin S x) where
  pure _ := fun _ _ h => by cases h
  bind hx hg := bind hx hg
  exhausted := fun _ _ h => Except.error.inj h ▸ hex
  fail he := fun _ _ h => Except.error.inj h ▸ herr _ he
  lookup env name := fun m h hh => by
    rw [EvalM.run_lookup] at hh
    split at hh
    · cases hh
    · cases hh
      exact herr _ fun k hk => by cases hk
  define _ _ _ := fun _ _ h => by cases h
  assign env name v := fun m h hh => by
    rw [EvalM.run_assign] at hh
    split at hh
    · cases hh
    · cases hh
      exact herr _ fun k hk => by cases hk
  newScope _ := fun _ _ h => by cases h
  makeClosure _ _ _ _ := fun _ _ h => by cases h
  emit _ := fun _ _ h => by cases h

end StopsWithin

end MiniLisp
