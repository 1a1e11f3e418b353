import MiniLisp.Proofs.Store
import MiniLisp.Proofs.Lockstep
import MiniLisp.Session

/-! # Scope discipline of evaluation

Evaluating an expression `e` in a scope `env` binds new names only in `env` itself and in the
scopes it makes on the way (a `begin` block, a call's activation). In `env` it binds only the
names that `var` and `def` forms of `e` declare at positions evaluated in `env`
(`Expr.declared`), and it never removes a binding. This holds on every path, a failing one
included, and whatever the closures stored in the machine do.

* `Frame allowed m m'`: the store of `m'` grows out of that of `m` by binding, in scopes `m`
  already has, only names that `allowed` lets through.
* `Confined allowed x`: every run of `x` is such a frame. `Confined.bind` and the primitive
  steps build it up, and it is `Sequenced` (`Confined.sequenced`), so the loops of the
  evaluator keep it; `Confined.newScope_bind` is the step that forgets what happens in a new
  scope.
* `eval_confined`: every evaluation is confined to its own scope and the names it declares;
  `eval_scope_discipline` states it scope by scope.
-/

namespace MiniLisp

/-! ## The names a form declares -/

mutual
/-- The names that `var` and `def` forms bind in the scope an expression is evaluated in: those
at positions evaluated there, not inside a `begin` block and not inside a function body. -/
def Expr.declared : Expr → List String
  | .list [.sym "var", .sym n, v] => n :: v.declared
  | .list [.sym "def", .sym n, _, _] => [n]
  | .list (.sym "begin" :: _) => []
  | .list (.sym "lambda" :: _) => []
  | .list items => Expr.declaredAll items
  | _ => []

/-- The names the expressions of a list declare, in order. -/
def Expr.declaredAll : List Expr → List String
  | [] => []
  | e :: es => e.declared ++ Expr.declaredAll es
end

namespace Expr

theorem mem_declaredAll {es : List Expr} {e : Expr} {n : String} (he : e ∈ es)
    (hn : n ∈ e.declared) : n ∈ declaredAll es := by
  induction es with
  | nil => cases he
  | cons e' es ih =>
    rw [declaredAll, List.mem_append]
    rcases List.mem_cons.1 he with rfl | he'
    · exact .inl hn
    · exact .inr (ih he')

theorem declared_list {head : Expr} {rest : List Expr}
    (h : ∀ w ∈ ["var", "def", "begin", "lambda"], head ≠ .sym w) :
    (Expr.list (head :: rest)).declared = declaredAll (head :: rest) := by
  rw [declared.eq_5]
  · intro n v he
    exact h "var" (by simp) (List.cons.inj he).1
  · intro n b c he
    exact h "def" (by simp) (List.cons.inj he).1
  · intro t he
    exact h "begin" (by simp) (List.cons.inj he).1
  · intro t he
    exact h "lambda" (by simp) (List.cons.inj he).1

theorem mem_declared_list {head : Expr} {rest : List Expr}
    (h : ∀ w ∈ ["var", "def", "begin", "lambda"], head ≠ .sym w) {e : Expr} {n : String}
    (he : e ∈ head :: rest) (hn : n ∈ e.declared) : n ∈ (Expr.list (head :: rest)).declared := by
  rw [declared_list h]
  exact mem_declaredAll he hn

theorem ne_sym_of_keyword {kw : Keyword} (hkw : kw ≠ .var ∧ kw ≠ .define ∧ kw ≠ .begin ∧ kw ≠ .lambda) :
    ∀ w ∈ ["var", "def", "begin", "lambda"], Expr.sym kw.word ≠ .sym w := by
  intro w hw he
  cases kw <;> simp only [Keyword.word, Expr.sym.injEq] at he <;> subst he <;> simp_all

theorem ne_sym_of_operator (o : Operator) :
    ∀ w ∈ ["var", "def", "begin", "lambda"], Expr.sym o.symbol ≠ .sym w := by
  intro w hw he
  cases o <;> simp only [Operator.symbol, Expr.sym.injEq] at he <;> subst he <;> simp at hw

theorem ne_sym_of_keyword?_none {head : Expr} (h : head.keyword? = none) :
    ∀ w ∈ ["var", "def", "begin", "lambda"], head ≠ .sym w := by
  intro w hw he
  subst he
  simp at hw
  rcases hw with rfl | rfl | rfl | rfl <;> simp [keyword?, symbol?] at h <;> contradiction

end Expr

/-! ## Frames -/

/-- The store of `m'` grows out of that of `m`: scopes are only added, no binding is removed, and
a scope that `m` has binds a new name only where `allowed` lets it. -/
structure Frame (allowed : ScopeId → String → Prop) (m m' : Machine) : Prop where
  grows : m.store.scopes.size ≤ m'.store.scopes.size
  keeps : ∀ i n, m.store.Binds i n → m'.store.Binds i n
  adds : ∀ i < m.store.scopes.size, ∀ n, m'.store.Binds i n → m.store.Binds i n ∨ allowed i n

namespace Frame

variable {A B : ScopeId → String → Prop} {m m₁ m₂ : Machine}

theorem refl (A : ScopeId → String → Prop) (m : Machine) : Frame A m m :=
  ⟨Nat.le_refl _, fun _ _ h => h, fun _ _ _ h => .inl h⟩

theorem of_scopes (h : m₁.store.scopes = m.store.scopes) : Frame A m m₁ := by
  have hb : ∀ i n, m₁.store.Binds i n ↔ m.store.Binds i n := by
    intro i n
    simp only [Store.Binds, h]
  exact ⟨Nat.le_of_eq (congrArg Array.size h).symm, fun i n hm => (hb i n).2 hm, fun i _ n hm => .inl ((hb i n).1 hm)⟩

theorem trans (h₁ : Frame A m m₁) (h₂ : Frame A m₁ m₂) : Frame A m m₂ := by
  refine ⟨Nat.le_trans h₁.grows h₂.grows, fun i n hm => h₂.keeps i n (h₁.keeps i n hm), ?_⟩
  intro i hi n hm
  rcases h₂.adds i (Nat.lt_of_lt_of_le hi h₁.grows) n hm with hm₁ | ha
  · exact h₁.adds i hi n hm₁
  · exact .inr ha

theorem mono (h : Frame A m m₁) (hA : ∀ i n, A i n → B i n) : Frame B m m₁ :=
  ⟨h.grows, h.keeps, fun i hi n hm => (h.adds i hi n hm).imp_right (hA i n)⟩

end Frame

/-! ## Confined computations -/

/-- Every run of `x`, from any machine, ends in a frame of that machine. -/
def Confined {α : Type} (allowed : ScopeId → String → Prop) (x : EvalM α) : Prop :=
  ∀ m, Frame allowed m (x.run.run m).2

namespace Confined

variable {α β : Type} {A B : ScopeId → String → Prop}

theorem mono {x : EvalM α} (h : Confined A x) (hA : ∀ i n, A i n → B i n) : Confined B x :=
  fun m => (h m).mono hA

theorem pure (a : α) : Confined A (Pure.pure a : EvalM α) := fun m => Frame.refl A m

theorem throw (e : Halt) : Confined A (MonadExcept.throw e : EvalM α) := fun m => Frame.refl A m

theorem fail (e : EvalError) : Confined A (EvalM.fail e : EvalM α) := fun m => Frame.refl A m

theorem ofExcept (r : Except Halt α) : Confined A (EvalM.ofExcept r) := by
  cases r
  · exact throw _
  · exact pure _

theorem bind {x : EvalM α} {f : α → EvalM β} (hx : Confined A x) (hf : ∀ a, Confined A (f a)) :
    Confined A (x >>= f) := by
  intro m
  rw [run_bind]
  rcases hr : x.run.run m with ⟨_ | a, m₁⟩
  · simpa [hr] using hx m
  · have h₁ : Frame A m m₁ := by simpa [hr] using hx m
    exact h₁.trans (hf a m₁)

theorem ite {c : Prop} {_ : Decidable c} {x y : EvalM α} (hx : Confined A x) (hy : Confined A y) :
    Confined A (if c then x else y) := by
  split
  · exact hx
  · exact hy

theorem lookup (env : ScopeId) (name : String) : Confined A (EvalM.lookup env name) := by
  intro m
  rw [EvalM.run_lookup]
  split <;> exact Frame.refl A m

theorem define {env : ScopeId} {name : String} (v : Value) (h : A env name) :
    Confined A (EvalM.define env name v) := by
  intro m
  rw [EvalM.run_define]
  refine ⟨by simp, fun i n hm => Store.binds_define.2 (.inl hm), fun i _ n hm => ?_⟩
  rcases Store.binds_define.1 hm with hm | ⟨rfl, -, rfl⟩
  · exact .inl hm
  · exact .inr h

theorem assign (env : ScopeId) (name : String) (v : Value) : Confined A (EvalM.assign env name v) := by
  intro m
  rw [EvalM.run_assign]
  split
  · rename_i home hhome
    have hb := Store.binds_of_resolve hhome
    refine ⟨by simp, fun i n hm => (Store.binds_define_of_binds hb).2 hm, fun i _ n hm => ?_⟩
    exact .inl ((Store.binds_define_of_binds hb).1 hm)
  · exact Frame.refl A m

theorem makeClosure (name : Option String) (params : List String) (body : Expr) (env : ScopeId) :
    Confined A (EvalM.makeClosure name params body env) := by
  intro m
  rw [EvalM.run_makeClosure]
  exact Frame.of_scopes rfl

theorem emit (text : String) : Confined A (EvalM.emit text) := by
  intro m
  rw [EvalM.run_emit]
  exact Frame.of_scopes rfl

/-- What runs in a scope made by the step before is confined to the scopes that existed. -/
theorem newScope_bind {p : ScopeId} {f : ScopeId → EvalM β}
    (hf : ∀ b, Confined (fun i n => i = b ∨ A i n) (f b)) : Confined A (EvalM.newScope p >>= f) := by
  intro m
  rw [run_bind_ok (EvalM.run_newScope p m)]
  have h := hf m.store.nextId { m with store := m.store.child p }
  have hsize : ({ m with store := m.store.child p } : Machine).store.scopes.size =
      m.store.scopes.size + 1 := Store.size_child _ _
  refine ⟨?_, fun i n hm => h.keeps i n (Store.binds_child.2 hm), ?_⟩
  · have := h.grows
    omega
  · intro i hi n hm
    rcases h.adds i (by omega) n hm with hm | hfresh | ha
    · exact .inl (Store.binds_child.1 hm)
    · -- the new scope is not one that existed
      rw [hfresh] at hi
      exact absurd hi (Nat.lt_irrefl _)
    · exact .inr ha

theorem sequenced : Sequenced (fun x y => Confined A x ∧ Confined A y) where
  pure a := ⟨pure a, pure a⟩
  bind hx hf := ⟨bind hx.1 fun a => (hf a).1, bind hx.2 fun a => (hf a).2⟩
  exhausted := ⟨throw _, throw _⟩

theorem mapM {γ : Type} {f : γ → EvalM α} (l : List γ) (h : ∀ a ∈ l, Confined A (f a)) :
    Confined A (l.mapM f) :=
  (sequenced.mapM_rel l fun a ha => ⟨h a ha, h a ha⟩).1

theorem forM {γ : Type} {f : γ → EvalM PUnit} (l : List γ) (h : ∀ a ∈ l, Confined A (f a)) :
    Confined A (l.forM f) :=
  (sequenced.forM_rel l fun a ha => ⟨h a ha, h a ha⟩).1

end Confined

/-! ## The parts of evaluation -/

section
variable {A : ScopeId → String → Prop} {step : Expr → EvalM Value}

theorem runBlock_confined {es : List Expr} (h : ∀ e ∈ es, Confined A (step e)) :
    Confined A (runBlock step es) :=
  (Confined.sequenced.runBlock_rel fun e he => ⟨h e he, h e he⟩).1

theorem runLoop_confined {c body : Expr} (hc : Confined A (step c)) (hb : Confined A (step body))
    (rounds : Nat) (last : Value) : Confined A (runLoop step c body rounds last) :=
  (Confined.sequenced.runLoop_rel ⟨hc, hc⟩ ⟨hb, hb⟩ rounds last).1

theorem runBody_confined (h : ∀ e, Confined A (step e)) (body : Expr) :
    Confined A (runBody step body) :=
  (Confined.sequenced.runBody_rel (fun e => ⟨h e, h e⟩) body).1

end

/-- A closure call binds the parameters and whatever the body binds in a new activation scope,
so it binds no new name in any scope that existed before it. -/
theorem callClosure_confined {A : ScopeId → String → Prop} {limit depth : Nat}
    {enter : ScopeId → Expr → EvalM Value}
    (h : ∀ act e, Confined (fun i _ => i = act) (enter act e)) (c : Closure) (args : List Value) :
    Confined A (callClosure limit depth enter c args) := by
  rw [callClosure_eq]
  refine Confined.ite (Confined.fail _) (Confined.newScope_bind fun act => ?_)
  refine Confined.bind (Confined.forM _ fun pa _ => Confined.define pa.2 (.inl rfl)) fun _ => ?_
  exact Confined.ite (Confined.fail _)
    (runBody_confined (fun e => (h act e).mono fun i n hi => .inl hi) c.body)

/-- The evaluation of `e` in `env`, as `eval` runs it: its own scope and what it declares. -/
abbrev Declares (env : ScopeId) (e : Expr) : ScopeId → String → Prop :=
  fun i n => i = env ∧ n ∈ e.declared

/-- **One step of the induction**: a special form whose parts are confined to what they declare
is confined to what the form declares. -/
theorem special_confined {ev : ScopeId → Expr → EvalM Value}
    (hev : ∀ env e, Confined (Declares env e) (ev env e)) (rounds : Nat) (env : ScopeId)
    (form : Expr) (kw : Keyword) (rest : List Expr) :
    Confined (Declares env (.list (.sym kw.word :: rest))) (special ev rounds env form kw rest) := by
  -- the parts evaluated in `env` declare names that the form declares, for the keywords whose
  -- forms `declared` looks into item by item
  have hpart : ∀ e ∈ rest, kw ≠ .var ∧ kw ≠ .define ∧ kw ≠ .begin ∧ kw ≠ .lambda →
      Confined (Declares env (.list (.sym kw.word :: rest))) (ev env e) := by
    intro e he hkw
    refine (hev env e).mono fun i n h => ⟨h.1, ?_⟩
    exact Expr.mem_declared_list (Expr.ne_sym_of_keyword hkw) (List.mem_cons_of_mem _ he) h.2
  unfold special
  split
  · -- a block runs in a scope of its own
    exact Confined.newScope_bind fun b =>
      runBlock_confined fun e _ => (hev b e).mono fun i n h => .inl h.1
  · -- `var`: the value, then the name in `env`
    rename_i n v
    split
    · rename_i name hname
      rw [Expr.eq_sym_of_varName? hname]
      have hd : (Expr.list [.sym Keyword.var.word, .sym name, v]).declared = name :: v.declared := by
        simp [Keyword.word, Expr.declared]
      refine Confined.bind ((hev env v).mono fun i n h => ⟨h.1, ?_⟩) fun x => ?_
      · rw [hd]
        exact List.mem_cons_of_mem _ h.2
      · refine Confined.bind (Confined.define x ⟨rfl, ?_⟩) fun _ => Confined.pure _
        rw [hd]
        exact List.mem_cons_self
    · exact Confined.fail _
  · -- `set` binds no new name
    rename_i n v
    split
    · refine Confined.bind (hpart v (by simp) (by simp)) fun x => ?_
      exact Confined.bind (Confined.assign _ _ _) fun _ => Confined.pure _
    · exact Confined.fail _
  · rename_i c a b
    refine Confined.bind (hpart c (by simp) (by simp)) fun x => ?_
    exact Confined.ite (hpart a (by simp) (by simp)) (hpart b (by simp) (by simp))
  · rename_i c body
    exact runLoop_confined (hpart c (by simp) (by simp)) (hpart body (by simp) (by simp)) _ _
  · -- `def`: the closure, then the name in `env`
    rename_i n ps body
    split
    · rename_i name params hname _
      rw [Expr.eq_sym_of_varName? hname]
      refine Confined.bind (Confined.makeClosure _ _ _ _) fun f => ?_
      refine Confined.bind (Confined.define f ⟨rfl, ?_⟩) fun _ => Confined.pure _
      simp [Keyword.word, Expr.declared]
    · exact Confined.fail _
  · rename_i ps body
    split
    · exact Confined.makeClosure _ _ _ _
    · exact Confined.fail _
  · exact Confined.fail _

/-- **Every evaluation is confined** to its own scope and the names it declares there. -/
theorem eval_confined (limit : Nat) :
    ∀ fuel depth env e, Confined (Declares env e) (eval limit fuel depth env e)
  | 0, _, _, _ => Confined.throw _
  | fuel + 1, depth, env, e => by
    have ih := eval_confined limit fuel
    cases e with
    | num x => exact Confined.pure _
    | str t => exact Confined.ofExcept _
    | sym n => exact Confined.ite (Confined.lookup _ _) (Confined.fail _)
    | list items =>
    cases items with
    | nil => exact Confined.fail _
    | cons head rest =>
      rw [eval]
      -- an item evaluated in `env` declares names the list declares, unless the head is
      -- a keyword whose form `declared` reads on its own
      have hitem : (∀ w ∈ ["var", "def", "begin", "lambda"], head ≠ .sym w) → ∀ e ∈ head :: rest,
          Confined (Declares env (.list (head :: rest))) (eval limit fuel depth env e) := by
        intro hh e he
        exact (ih depth env e).mono fun i n h => ⟨h.1, Expr.mem_declared_list hh he h.2⟩
      split
      · rename_i o ho
        have hh := Expr.eq_sym_of_operator? ho ▸ Expr.ne_sym_of_operator o
        exact Confined.bind (Confined.mapM rest fun e he => hitem hh e (List.mem_cons_of_mem _ he))
          fun _ => Confined.ofExcept _
      · rename_i hop
        split
        · rename_i kw hkw
          rw [Expr.eq_sym_of_keyword? hkw]
          exact special_confined (ih depth) fuel env _ kw rest
        · rename_i hkw
          have hh := Expr.ne_sym_of_keyword?_none hkw
          refine Confined.bind (hitem hh head List.mem_cons_self) fun v => ?_
          have hargs := Confined.mapM rest fun e he => hitem hh e (List.mem_cons_of_mem _ he)
          split
          · rename_i b
            refine Confined.bind hargs fun args => ?_
            cases b with
            | op o => exact Confined.ofExcept _
            | print => exact Confined.bind (Confined.emit _) fun _ => Confined.pure _
          · rename_i c
            refine Confined.bind hargs fun args => ?_
            exact callClosure_confined (fun act e => (ih (depth + 1) act e).mono fun i n h => h.1) c args
          · exact Confined.fail _


/-- **Scope discipline**: evaluation binds new names only in its own scope, only those the
expression declares, and removes none. -/
theorem eval_scope_discipline (limit fuel depth : Nat) (env : ScopeId) (e : Expr) (m : Machine)
    (henv : env < m.store.scopes.size) :
    let m' := ((eval limit fuel depth env e).run.run m).2
    (∀ i < m.store.scopes.size, i ≠ env → ∀ n, m'.store.Binds i n ↔ m.store.Binds i n) ∧
    (∀ n, m'.store.Binds env n → m.store.Binds env n ∨ n ∈ e.declared) ∧
    (∀ i n, m.store.Binds i n → m'.store.Binds i n) := by
  have h := eval_confined limit fuel depth env e m
  refine ⟨fun i hi hne n => ⟨fun hm => ?_, h.keeps i n⟩, fun n hm => ?_, h.keeps⟩
  · rcases h.adds i hi n hm with hm | ⟨rfl, _⟩
    · exact hm
    · exact absurd rfl hne
  · exact (h.adds env henv n hm).imp_right And.right

/-- Inner blocks shadow without leaking: `(begin (var x 10) (begin (var x 20) x) x)` in the global
scope of a new session binds no name there. -/
theorem eval_scope_discipline_blocks :
    globalScope < Store.initial.scopes.size ∧
      let m := { store := Store.initial, out := "" }
      let e := Expr.list [.sym "begin", .list [.sym "var", .sym "x", .num 10],
        .list [.sym "begin", .list [.sym "var", .sym "x", .num 20], .sym "x"], .sym "x"]
      let m' := ((eval defaultMaxDepth ample 0 globalScope e).run.run m).2
      (∀ i < m.store.scopes.size, i ≠ globalScope → ∀ n, m'.store.Binds i n ↔ m.store.Binds i n) ∧
      (∀ n, m'.store.Binds globalScope n → m.store.Binds globalScope n ∨ n ∈ e.declared) ∧
      (∀ i n, m.store.Binds i n → m'.store.Binds i n) :=
  ⟨by decide, eval_scope_discipline _ _ _ _ _ _ (by decide)⟩

end MiniLisp
