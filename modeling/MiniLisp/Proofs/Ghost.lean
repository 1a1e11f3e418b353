import MiniLisp.Proofs.Run
import MiniLisp.Proofs.Literal
import MiniLisp.Session

/-! # Knowledge that grows along a run

Some facts about a store hold relative to what is known of the run that built it: which scopes
exist, which closures have been made. A run only learns more (a new scope, a new closure), and
what it knew stays true. `Ghost` packs such knowledge: worlds ordered by growth, the stores a
world describes, and the scopes and values it vouches for, with what each primitive step of the
evaluator does to them. The walk through the evaluator is made here once, for every such
knowledge.

* `Ghost.strengthen G I`: the same knowledge with one more fact about the store that every
  primitive step keeps.
* `Ghost.Keeps G w Q x`: from a store that `w` describes, `x` ends on a store that a grown world
  describes, whether it succeeds or fails, and a value it gives satisfies `Q` there.
* `Ghost.Keeps.bind`, `mapM`, `foldlM`, `runBlock`, `runLoop`, `runBody`: sequencing keeps it.
* `Ghost.Keeps.eval`: every evaluation in a scope the world vouches for keeps it, and gives a value
  the grown world vouches for; `Ghost.Keeps.evaluate`, `Ghost.Keeps.evaluateText`: so does every
  step of a session, and `Ghost.Keeps.session` keeps every property of the stores it describes.
-/

namespace MiniLisp

/-- Knowledge about runs that only grows: worlds, the stores each describes, and the scopes and
values each vouches for, kept by every primitive step of evaluation. -/
structure Ghost where
  World : Type
  /-- `w'` knows all that `w` knows. -/
  Grows : World → World → Prop
  grows_refl : ∀ w, Grows w w
  grows_trans : ∀ {w₁ w₂ w₃ : World}, Grows w₁ w₂ → Grows w₂ w₃ → Grows w₁ w₃
  /-- The stores the world describes. -/
  Holds : World → Store → Prop
  /-- The scopes the world vouches for. -/
  ScopeOk : World → ScopeId → Prop
  /-- The values the world vouches for. -/
  ValueOk : World → Value → Prop
  scopeOk_mono : ∀ {w w' : World} {i : ScopeId}, Grows w w' → ScopeOk w i → ScopeOk w' i
  valueOk_mono : ∀ {w w' : World} {v : Value}, Grows w w' → ValueOk w v → ValueOk w' v
  /-- A closure it vouches for was made in a scope it vouches for. -/
  scopeOk_closure : ∀ {w : World} {c : Closure}, ValueOk w (.closure c) → ScopeOk w c.scope
  /-- It vouches for every value that is no closure. -/
  valueOk_plain : ∀ (w : World) (v : Value), (∀ c, v ≠ .closure c) → ValueOk w v
  lookup : ∀ {w : World} {s : Store} {env : ScopeId} {name : String} {v : Value},
    Holds w s → s.lookup env name = some v → ValueOk w v
  define : ∀ {w : World} {s : Store} {v : Value} (env : ScopeId) (name : String),
    Holds w s → ValueOk w v → Holds w (s.define env name v)
  child : ∀ {w : World} {s : Store} {p : ScopeId}, Holds w s → ScopeOk w p →
    ∃ w', Grows w w' ∧ Holds w' (s.child p) ∧ ScopeOk w' s.nextId
  makeClosure : ∀ {w : World} {s : Store} {env : ScopeId} (name : Option String)
    (params : List String) (body : Expr), Holds w s → ScopeOk w env →
    ∃ w', Grows w w' ∧ Holds w' s.stamp ∧
      ValueOk w' (.closure { stamp := s.stamps, name, params, body, scope := env })

theorem Operator.onNumbers_ne_closure {o : Operator} {x y : Float} {v : Value}
    (h : o.onNumbers x y = .ok v) (c : Closure) : v ≠ .closure c := by
  rintro rfl
  cases o <;> simp [Operator.onNumbers] at h

/-- Operators give numbers, strings and booleans, never a closure. -/
theorem Operator.apply_ne_closure {o : Operator} {args : List Value} {v : Value}
    (h : o.apply args = .ok v) : ∀ c, v ≠ .closure c := by
  rintro c rfl
  unfold Operator.apply at h
  split at h
  · obtain ⟨x, -, h⟩ := mapError_bind_eq_ok h
    cases h
  · unfold Operator.applyBinary at h
    split at h
    · cases h
    · cases h
    · -- past the operands, numbers go to numbers and comparisons to booleans
      obtain ⟨x, -, h⟩ := mapError_bind_eq_ok h
      obtain ⟨y, -, h⟩ := mapError_bind_eq_ok h
      cases hon : Operator.onNumbers _ x y with
      | error f => rw [hon] at h; cases h
      | ok v =>
        rw [hon] at h
        cases h
        exact Operator.onNumbers_ne_closure hon c rfl
  · cases h

namespace Ghost

/-- The same knowledge, describing only the stores that also satisfy `I`, when defining a name,
adding a scope the world vouches for as parent, and making a closure keep `I`. -/
def strengthen (G : Ghost) (I : Store → Prop)
    (define : ∀ {s : Store} (env : ScopeId) (name : String) (v : Value), I s →
      I (s.define env name v))
    (child : ∀ {w : G.World} {s : Store} {p : ScopeId}, G.Holds w s → G.ScopeOk w p → I s →
      I (s.child p))
    (stamp : ∀ {s : Store}, I s → I s.stamp) : Ghost where
  World := G.World
  Grows := G.Grows
  grows_refl := G.grows_refl
  grows_trans := G.grows_trans
  Holds w s := G.Holds w s ∧ I s
  ScopeOk := G.ScopeOk
  ValueOk := G.ValueOk
  scopeOk_mono := G.scopeOk_mono
  valueOk_mono := G.valueOk_mono
  scopeOk_closure := G.scopeOk_closure
  valueOk_plain := G.valueOk_plain
  lookup hs hl := G.lookup hs.1 hl
  define env name hs hv := ⟨G.define env name hs.1 hv, define env name _ hs.2⟩
  child {w s p} hs hp := by
    obtain ⟨w', hw, hh, hnew⟩ := G.child hs.1 hp
    exact ⟨w', hw, ⟨hh, child hs.1 hp hs.2⟩, hnew⟩
  makeClosure name params body hs henv := by
    obtain ⟨w', hw, hh, hc⟩ := G.makeClosure name params body hs.1 henv
    exact ⟨w', hw, ⟨hh, stamp hs.2⟩, hc⟩

variable (G : Ghost) {α β γ : Type}

/-- From a store that `w` describes, every run of `x` ends on a store that a grown world
describes, and a value it gives satisfies `Q` in that world. -/
def Keeps (w : G.World) (Q : G.World → α → Prop) (x : EvalM α) : Prop :=
  ∀ m : Machine, G.Holds w m.store → ∃ w', G.Grows w w' ∧ G.Holds w' (x.run.run m).2.store ∧
    ∀ a, (x.run.run m).1 = .ok a → Q w' a

/-- Nothing is asked of the value. -/
abbrev Any (α : Type) : G.World → α → Prop := fun _ _ => True

namespace Keeps

variable {G} {w : G.World} {Q : G.World → α → Prop} {R : G.World → β → Prop}

/-! ## Sequencing -/

theorem pure {a : α} (h : Q w a) : G.Keeps w Q (Pure.pure a : EvalM α) :=
  fun _ hm => ⟨w, G.grows_refl w, hm, fun _ ha => by cases ha; exact h⟩

theorem throw (e : Halt) : G.Keeps w Q (MonadExcept.throw e : EvalM α) :=
  fun _ hm => ⟨w, G.grows_refl w, hm, fun _ ha => by cases ha⟩

theorem fail (e : EvalError) : G.Keeps w Q (EvalM.fail e : EvalM α) := throw _

theorem bind {x : EvalM α} {g : α → EvalM β} (hx : G.Keeps w Q x)
    (hg : ∀ a w', G.Grows w w' → Q w' a → G.Keeps w' R (g a)) : G.Keeps w R (x >>= g) := by
  intro m hm
  obtain ⟨w₁, hw₁, hm₁, hq⟩ := hx m hm
  rw [run_bind]
  rcases hr : x.run.run m with ⟨_ | a, m₁⟩
  · rw [hr] at hm₁
    exact ⟨w₁, hw₁, hm₁, fun _ ha => by cases ha⟩
  · rw [hr] at hm₁ hq
    obtain ⟨w₂, hw₂, hm₂, hr₂⟩ := hg a w₁ hw₁ (hq a rfl) m₁ hm₁
    exact ⟨w₂, G.grows_trans hw₁ hw₂, hm₂, hr₂⟩

theorem ite {c : Prop} {_ : Decidable c} {x y : EvalM α} (hx : G.Keeps w Q x)
    (hy : G.Keeps w Q y) : G.Keeps w Q (if c then x else y) := by
  split
  · exact hx
  · exact hy

/-- An effect followed by a value the world vouched for, as a binding form returns what it
binds. -/
theorem then_pure {y : EvalM Unit} {v : Value} (hy : G.Keeps w (Any G Unit) y)
    (hv : G.ValueOk w v) : G.Keeps w G.ValueOk (y >>= fun _ => Pure.pure v) :=
  bind hy fun _ _ hw _ => pure (G.valueOk_mono hw hv)

/-! ## The primitive steps -/

theorem lookup (env : ScopeId) (name : String) : G.Keeps w G.ValueOk (EvalM.lookup env name) := by
  intro m hm
  rw [EvalM.run_lookup]
  split
  · rename_i v hv
    exact ⟨w, G.grows_refl w, hm, fun _ ha => by cases ha; exact G.lookup hm hv⟩
  · exact ⟨w, G.grows_refl w, hm, fun _ ha => by cases ha⟩

theorem define (env : ScopeId) (name : String) {v : Value} (hv : G.ValueOk w v) :
    G.Keeps w (Any G Unit) (EvalM.define env name v) := by
  intro m hm
  rw [EvalM.run_define]
  exact ⟨w, G.grows_refl w, G.define env name hm hv, fun _ _ => trivial⟩

theorem assign (env : ScopeId) (name : String) {v : Value} (hv : G.ValueOk w v) :
    G.Keeps w (Any G Unit) (EvalM.assign env name v) := by
  intro m hm
  rw [EvalM.run_assign]
  split
  · exact ⟨w, G.grows_refl w, G.define _ name hm hv, fun _ _ => trivial⟩
  · exact ⟨w, G.grows_refl w, hm, fun _ ha => by cases ha⟩

theorem newScope {p : ScopeId} (hp : G.ScopeOk w p) : G.Keeps w G.ScopeOk (EvalM.newScope p) := by
  intro m hm
  rw [EvalM.run_newScope]
  obtain ⟨w', hw, hm', hnew⟩ := G.child hm hp
  exact ⟨w', hw, hm', fun _ ha => by cases ha; exact hnew⟩

theorem makeClosure (name : Option String) (params : List String) (body : Expr) {env : ScopeId}
    (henv : G.ScopeOk w env) : G.Keeps w G.ValueOk (EvalM.makeClosure name params body env) := by
  intro m hm
  rw [EvalM.run_makeClosure]
  obtain ⟨w', hw, hm', hc⟩ := G.makeClosure name params body hm henv
  exact ⟨w', hw, hm', fun _ ha => by cases ha; exact hc⟩

theorem emit (text : String) : G.Keeps w (Any G Unit) (EvalM.emit text) := by
  intro m hm
  rw [EvalM.run_emit]
  exact ⟨w, G.grows_refl w, hm, fun _ _ => trivial⟩

theorem ofExcept {r : Except Halt Value} (hr : ∀ v, r = .ok v → ∀ c, v ≠ .closure c) :
    G.Keeps w G.ValueOk (EvalM.ofExcept r) := by
  cases r with
  | error h => exact throw h
  | ok v => exact pure (G.valueOk_plain w v (hr v rfl))

theorem ofExcept_apply (o : Operator) (args : List Value) :
    G.Keeps w G.ValueOk (EvalM.ofExcept (o.apply args)) :=
  ofExcept fun _ h => Operator.apply_ne_closure h

theorem literal (t : String) : G.Keeps w G.ValueOk (EvalM.ofExcept (literalValue t)) := by
  refine ofExcept fun v hv c hc => ?_
  obtain ⟨s, -, rfl⟩ := literalValue_eq_ok hv
  cases hc

theorem builtin (b : Builtin) (args : List Value) : G.Keeps w G.ValueOk (b.run args) := by
  cases b with
  | op o => exact ofExcept_apply o args
  | print => exact bind (emit _) fun _ w' _ _ => pure (G.valueOk_plain w' _ fun c hc => by cases hc)

/-! ## Lists of steps -/

theorem mapM {g : γ → EvalM Value} :
    ∀ (l : List γ) (w : G.World), (∀ a ∈ l, ∀ w', G.Grows w w' → G.Keeps w' G.ValueOk (g a)) →
      G.Keeps w (fun w' vs => ∀ v ∈ vs, G.ValueOk w' v) (l.mapM g)
  | [], _, _ => pure fun v hv => by cases hv
  | a :: l, w, h => by
    rw [List.mapM_cons]
    refine bind (h a List.mem_cons_self w (G.grows_refl w)) fun v w₁ hw₁ hv => ?_
    refine bind (mapM l w₁ fun b hb w' hw' => h b (List.mem_cons_of_mem _ hb) w'
      (G.grows_trans hw₁ hw')) fun vs w₂ hw₂ hvs => pure fun u hu => ?_
    rcases List.mem_cons.1 hu with rfl | hu
    · exact G.valueOk_mono hw₂ hv
    · exact hvs u hu

theorem forM {g : γ → EvalM PUnit} :
    ∀ (l : List γ) (w : G.World), (∀ a ∈ l, ∀ w', G.Grows w w' → G.Keeps w' (Any G PUnit) (g a)) →
      G.Keeps w (Any G PUnit) (l.forM g)
  | [], _, _ => pure trivial
  | a :: l, w, h => by
    rw [List.forM]
    exact bind (h a List.mem_cons_self w (G.grows_refl w)) fun _ w₁ hw₁ _ =>
      forM l w₁ fun b hb w' hw' => h b (List.mem_cons_of_mem _ hb) w' (G.grows_trans hw₁ hw')

theorem foldlM {g : Value → γ → EvalM Value} :
    ∀ (l : List γ) (w : G.World) (init : Value), G.ValueOk w init →
      (∀ b, ∀ a ∈ l, ∀ w', G.Grows w w' → G.Keeps w' G.ValueOk (g b a)) →
      G.Keeps w G.ValueOk (l.foldlM g init)
  | [], _, _, hinit, _ => pure hinit
  | a :: l, w, init, _, h => by
    rw [List.foldlM_cons]
    exact bind (h init a List.mem_cons_self w (G.grows_refl w)) fun b w₁ hw₁ hb =>
      foldlM l w₁ b hb fun b' a' ha' w' hw' => h b' a' (List.mem_cons_of_mem _ ha') w'
        (G.grows_trans hw₁ hw')

/-! ## The parts of evaluation -/

section Parts

variable {step : Expr → EvalM Value}

theorem runBlock :
    ∀ {es : List Expr} {w : G.World}, (∀ e ∈ es, ∀ w', G.Grows w w' → G.Keeps w' G.ValueOk (step e)) →
      G.Keeps w G.ValueOk (MiniLisp.runBlock step es)
  | [], w, _ => pure (G.valueOk_plain w _ fun c hc => by cases hc)
  | [e], w, h => by
    rw [MiniLisp.runBlock]
    exact h e List.mem_cons_self w (G.grows_refl w)
  | e :: e' :: es, w, h => by
    rw [MiniLisp.runBlock.eq_3 _ _ _ (List.cons_ne_nil _ _)]
    exact bind (h e List.mem_cons_self w (G.grows_refl w)) fun _ w₁ hw₁ _ =>
      runBlock fun b hb w' hw' => h b (List.mem_cons_of_mem _ hb) w' (G.grows_trans hw₁ hw')

theorem runLoop {c body : Expr} :
    ∀ {w : G.World}, (∀ w', G.Grows w w' → G.Keeps w' G.ValueOk (step c)) →
      (∀ w', G.Grows w w' → G.Keeps w' G.ValueOk (step body)) →
      ∀ rounds last, G.ValueOk w last → G.Keeps w G.ValueOk (MiniLisp.runLoop step c body rounds last)
  | _, _, _, 0, _, _ => throw _
  | w, hc, hb, rounds + 1, last, hlast => by
    rw [MiniLisp.runLoop]
    refine bind (hc w (G.grows_refl w)) fun v w₁ hw₁ _ => ite ?_ ?_
    · exact bind (hb w₁ hw₁) fun v' w₂ hw₂ hv' =>
        runLoop (fun w' hw' => hc w' (G.grows_trans hw₁ (G.grows_trans hw₂ hw')))
          (fun w' hw' => hb w' (G.grows_trans hw₁ (G.grows_trans hw₂ hw'))) rounds v' hv'
    · exact pure (G.valueOk_mono hw₁ hlast)

theorem runBody (h : ∀ e w', G.Grows w w' → G.Keeps w' G.ValueOk (step e)) (body : Expr) :
    G.Keeps w G.ValueOk (MiniLisp.runBody step body) := by
  unfold MiniLisp.runBody
  split
  · exact runBlock fun e _ => h e
  · exact h body w (G.grows_refl w)

end Parts

/-- The special forms keep the knowledge when their evaluator does in every scope it vouches
for. -/
theorem special {ev : ScopeId → Expr → EvalM Value}
    (hev : ∀ i e w, G.ScopeOk w i → G.Keeps w G.ValueOk (ev i e)) (rounds : Nat) {env : ScopeId}
    (henv : G.ScopeOk w env) (form : Expr) (kw : Keyword) (rest : List Expr) :
    G.Keeps w G.ValueOk (special ev rounds env form kw rest) := by
  have hin : ∀ w', G.Grows w w' → G.ScopeOk w' env := fun w' hw => G.scopeOk_mono hw henv
  unfold MiniLisp.special
  split
  · exact bind (newScope henv) fun b w₁ _ hb =>
      runBlock fun e _ w' hw' => hev b e w' (G.scopeOk_mono hw' hb)
  · split
    · exact bind (hev env _ w henv) fun x w₁ _ hx => then_pure (define env _ hx) hx
    · exact fail _
  · split
    · exact bind (hev env _ w henv) fun x w₁ _ hx => then_pure (assign env _ hx) hx
    · exact fail _
  · exact bind (hev env _ w henv) fun _ w₁ hw₁ _ =>
      ite (hev env _ w₁ (hin w₁ hw₁)) (hev env _ w₁ (hin w₁ hw₁))
  · exact runLoop (fun w' hw' => hev env _ w' (hin w' hw')) (fun w' hw' => hev env _ w' (hin w' hw'))
      _ _ (G.valueOk_plain w _ fun c hc => by cases hc)
  · split
    · exact bind (makeClosure _ _ _ henv) fun f w₁ _ hf => then_pure (define env _ hf) hf
    · exact fail _
  · split
    · exact makeClosure _ _ _ henv
    · exact fail _
  · exact fail _

/-- A call of a closure the world vouches for, on values it vouches for, keeps the knowledge
when the body does in every scope it vouches for. -/
theorem callClosure {L depth : Nat} {enter : ScopeId → Expr → EvalM Value}
    (henter : ∀ i e w, G.ScopeOk w i → G.Keeps w G.ValueOk (enter i e)) {c : Closure}
    {args : List Value} (hc : G.ValueOk w (.closure c)) (hargs : ∀ a ∈ args, G.ValueOk w a) :
    G.Keeps w G.ValueOk (MiniLisp.callClosure L depth enter c args) := by
  rw [callClosure_eq]
  refine ite (fail _) (bind (newScope (G.scopeOk_closure hc)) fun act w₁ hw₁ hact => ?_)
  refine bind (forM _ w₁ fun pa hpa w' hw' => ?_) fun _ w₂ hw₂ _ =>
    ite (fail _) (runBody (fun e w' hw' => henter act e w'
      (G.scopeOk_mono (G.grows_trans hw₂ hw') hact)) c.body)
  obtain ⟨p, a⟩ := pa
  exact define act p (G.valueOk_mono (G.grows_trans hw₁ hw') (hargs a (List.of_mem_zip hpa).2))

/-- **Every evaluation keeps the knowledge**, on every path, and gives values the grown world
vouches for. -/
theorem eval (L : Nat) : ∀ fuel depth (env : ScopeId) (e : Expr) (w : G.World), G.ScopeOk w env →
    G.Keeps w G.ValueOk (MiniLisp.eval L fuel depth env e)
  | 0, _, _, _, _, _ => throw _
  | fuel + 1, depth, env, e, w, henv => by
    have ih := eval L fuel
    cases e with
    | num x => exact pure (G.valueOk_plain w _ fun c hc => by cases hc)
    | str t => exact literal t
    | sym x =>
      rw [MiniLisp.eval]
      exact ite (lookup env x) (fail _)
    | list items =>
      cases items with
      | nil => exact fail _
      | cons head rest =>
        rw [MiniLisp.eval]
        have hargs : ∀ w', G.Grows w w' → G.Keeps w' (fun w'' vs => ∀ v ∈ vs, G.ValueOk w'' v)
            (rest.mapM (MiniLisp.eval L fuel depth env)) := fun w' hw' =>
          mapM rest w' fun e _ w'' hw'' =>
            ih depth env e w'' (G.scopeOk_mono (G.grows_trans hw' hw'') henv)
        split
        · exact bind (hargs w (G.grows_refl w)) fun args _ _ _ => ofExcept_apply _ args
        · split
          · exact special (ih depth) fuel henv _ _ rest
          · refine bind (ih depth env head w henv) fun v w₁ hw₁ hv => ?_
            -- a call runs a closure the world vouches for on arguments it vouches for
            split
            · exact bind (hargs w₁ hw₁) fun args _ _ _ => builtin _ args
            · exact bind (hargs w₁ hw₁) fun args w₂ hw₂ hvs =>
                callClosure (ih (depth + 1)) (G.valueOk_mono hw₂ hv) hvs
            · exact fail _

/-! ## Sessions -/

variable {s : Session}

theorem evalForm (hg : G.ScopeOk w globalScope) (e : Expr) : G.Keeps w G.ValueOk (s.evalForm e) :=
  eval _ _ _ _ e w hg

theorem run {x : EvalM Value} (hx : G.Keeps w G.ValueOk x) (hs : G.Holds w s.store) :
    ∃ w', G.Grows w w' ∧ G.Holds w' (s.run x).session.store ∧
      ∀ v, (s.run x).result = .ok v → G.ValueOk w' v :=
  hx ⟨s.store, ""⟩ hs

/-- **Every step of a session keeps the knowledge**, given that the world vouches for the
global scope. -/
theorem evaluate (hs : G.Holds w s.store) (hg : G.ScopeOk w globalScope) (e : Expr) :
    ∃ w', G.Grows w w' ∧ G.Holds w' (s.evaluate e).session.store ∧
      ∀ v, (s.evaluate e).result = .ok v → G.ValueOk w' v :=
  run (evalForm hg e) hs

theorem evaluateText (hs : G.Holds w s.store) (hg : G.ScopeOk w globalScope) (src : String) :
    ∃ w', G.Grows w w' ∧ G.Holds w' (s.evaluateText src).session.store ∧
      ∀ v, (s.evaluateText src).result = .ok v → G.ValueOk w' v := by
  unfold Session.evaluateText
  split
  · exact ⟨w, G.grows_refl w, hs, fun _ hv => by cases hv⟩
  · exact run (foldlM _ w _ (G.valueOk_plain w _ fun c hc => by cases hc)
      fun _ e _ w' hw' => evalForm (G.scopeOk_mono hw' hg) e) hs

/-- **Every step of a session keeps a property of its store** that holds of each store a world
describes while vouching for the global scope. -/
theorem session {P : Store → Prop} (hP : ∀ w s, G.Holds w s → G.ScopeOk w globalScope → P s)
    (hs : G.Holds w s.store) (hg : G.ScopeOk w globalScope) :
    (∀ e, P (s.evaluate e).session.store) ∧ ∀ src, P (s.evaluateText src).session.store := by
  refine ⟨fun e => ?_, fun src => ?_⟩
  · obtain ⟨w', hw, h, -⟩ := evaluate hs hg e
    exact hP w' _ h (G.scopeOk_mono hw hg)
  · obtain ⟨w', hw, h, -⟩ := evaluateText hs hg src
    exact hP w' _ h (G.scopeOk_mono hw hg)

end Keeps

end Ghost

end MiniLisp
