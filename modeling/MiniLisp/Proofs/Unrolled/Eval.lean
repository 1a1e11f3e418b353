import Mathlib
import MiniLisp.Proofs.Run
import MiniLisp.Proofs.Unrolled.Stores
import MiniLisp.Cli.Program

/-! # A closure body run as a block: evaluation

A closure call runs the forms of a `begin` body directly in its activation scope `A`
(`runBody`); evaluating the same body as a form in `A` would open a block `A + 1` under `A` and
run the forms there. This module shows that the two runs cannot be told apart.

* `Sim A f x y`: from machines related by `Store.Unrolled A` and the same printed text, `y` ends
  as `x` does, its value the image of `x`'s under `f` and its halt the shifted one, on related
  machines again. Each primitive step of evaluation is `Sim` of its counterpart in the other
  run, at the shifted scope, and sequencing keeps `Sim`.
* `eval_sim`: evaluating any expression in scope `i` of the unrolled run and in scope
  `shiftId A i` of the other run is `Sim`: values agree up to the scopes of closures, and so do
  the text printed and every binding.
* `Session.evaluateText_unrolled`: a step of a session from related stores ends alike.
* `unrolled_body_equivalent`: the body run directly in the activation and the body evaluated as
  a form there end alike, and so does everything the session does after.
-/

namespace MiniLisp

/-- The machines of the two runs: the same printed text, related stores. -/
structure Machine.Unrolled (A : Nat) (m m' : Machine) : Prop where
  out : m'.out = m.out
  store : Store.Unrolled A m.store m'.store

variable {α β γ δ : Type} {A : Nat}

/-- The ends of the two runs agree: the other run's outcome is the unrolled run's under `f`,
its halt shifted, and the machines are related. -/
def Ends (A : Nat) (f : α → β) (r : Except Halt α × Machine)
    (r' : Except Halt β × Machine) : Prop :=
  r'.1 = (r.1.mapError (Halt.shift A)).map f ∧ Machine.Unrolled A r.2 r'.2

/-- `x` in the unrolled run and `y` in the other run end alike from related machines. -/
def Sim (A : Nat) (f : α → β) (x : EvalM α) (y : EvalM β) : Prop :=
  ∀ m m', Machine.Unrolled A m m' → Ends A f (x.run.run m) (y.run.run m')

namespace Sim

theorem pure (f : α → β) (a : α) : Sim A f (Pure.pure a : EvalM α) (Pure.pure (f a)) :=
  fun _ _ hm => ⟨rfl, hm⟩

theorem throw (f : α → β) (h : Halt) :
    Sim A f (MonadExcept.throw h : EvalM α) (MonadExcept.throw (h.shift A)) :=
  fun _ _ hm => ⟨rfl, hm⟩

theorem fail (f : α → β) (e : EvalError) :
    Sim A f (EvalM.fail e : EvalM α) (EvalM.fail (e.shift A)) :=
  fun _ _ hm => ⟨rfl, hm⟩

theorem bind {x : EvalM α} {y : EvalM β} {g : α → EvalM γ} {g' : β → EvalM δ}
    {f : α → β} {f' : γ → δ} (hx : Sim A f x y) (hg : ∀ a, Sim A f' (g a) (g' (f a))) :
    Sim A f' (x >>= g) (y >>= g') := by
  intro m m' hm
  obtain ⟨hr, hm₁⟩ := hx m m' hm
  rw [run_bind, run_bind]
  rcases hxr : x.run.run m with ⟨r, m₁⟩
  rcases hyr : y.run.run m' with ⟨r', m₁'⟩
  rw [hxr, hyr] at hr hm₁
  dsimp only at hr hm₁
  subst hr
  cases r with
  | error h => exact ⟨rfl, hm₁⟩
  | ok a => exact hg a m₁ m₁' hm₁

theorem ite {c : Prop} {_ : Decidable c} {f : α → β} {x y : EvalM α} {x' y' : EvalM β}
    (hx : Sim A f x x') (hy : Sim A f y y') :
    Sim A f (if c then x else y) (if c then x' else y') := by
  split
  · exact hx
  · exact hy

theorem lookup (i : Nat) (x : String) :
    Sim A (Value.shift A) (EvalM.lookup i x) (EvalM.lookup (shiftId A i) x) := by
  intro m m' hm
  rw [Ends, EvalM.run_lookup, EvalM.run_lookup, ← hm.store.lookup i x]
  cases m.store.lookup i x with
  | none => exact ⟨rfl, hm⟩
  | some v => exact ⟨rfl, hm⟩

theorem define (i : Nat) (x : String) (v : Value) :
    Sim A id (EvalM.define i x v) (EvalM.define (shiftId A i) x (v.shift A)) :=
  fun _ _ hm => ⟨rfl, hm.out, hm.store.define i x v⟩

theorem assign (i : Nat) (x : String) (v : Value) :
    Sim A id (EvalM.assign i x v) (EvalM.assign (shiftId A i) x (v.shift A)) := by
  intro m m' hm
  have hr := hm.store.resolve x i
  rw [Ends, EvalM.run_assign, EvalM.run_assign]
  generalize m.store.resolve i x = u at hr
  generalize m'.store.resolve (shiftId A i) x = n at hr
  cases hr with
  | none => exact ⟨rfl, hm⟩
  | some hk => exact ⟨rfl, hm.out, hm.store.define_home hk v⟩

theorem newScope (p : Nat) :
    Sim A (shiftId A) (EvalM.newScope p) (EvalM.newScope (shiftId A p)) := by
  intro m m' hm
  rw [Ends, EvalM.run_newScope, EvalM.run_newScope]
  exact ⟨by rw [hm.store.nextId]; rfl, hm.out, hm.store.child p⟩

theorem makeClosure (name : Option String) (params : List String) (body : Expr) (i : Nat) :
    Sim A (Value.shift A) (EvalM.makeClosure name params body i)
      (EvalM.makeClosure name params body (shiftId A i)) := by
  intro m m' hm
  rw [Ends, EvalM.run_makeClosure, EvalM.run_makeClosure, hm.store.stamps]
  exact ⟨rfl, hm.out, hm.store.stamp⟩

theorem emit (text : String) : Sim A id (EvalM.emit text) (EvalM.emit text) := by
  intro m m' hm
  rw [Ends, EvalM.run_emit, EvalM.run_emit]
  exact ⟨rfl, by simp [hm.out], hm.store⟩

theorem ofExcept {f : α → β} {r : Except Halt α} {r' : Except Halt β}
    (h : r' = (r.mapError (Halt.shift A)).map f) :
    Sim A f (EvalM.ofExcept r) (EvalM.ofExcept r') := by
  intro m m' hm
  subst h
  cases r <;> exact ⟨rfl, hm⟩

/-- An operator gives the same answer in both runs, and that answer names no scope. -/
theorem ofExcept_apply (o : Operator) (args : List Value) :
    Sim A (Value.shift A) (EvalM.ofExcept (o.apply args))
      (EvalM.ofExcept (o.apply (args.map (Value.shift A)))) := by
  rw [Operator.apply_shift]
  refine ofExcept ?_
  cases h : o.apply args with
  | error e =>
    show Except.error e = .error (e.shift A)
    rw [Halt.shift_of_apply h]
  | ok v =>
    show Except.ok v = .ok (v.shift A)
    rw [Operator.shift_of_apply h]

theorem literal (t : String) :
    Sim A (Value.shift A) (EvalM.ofExcept (literalValue t)) (EvalM.ofExcept (literalValue t)) := by
  refine ofExcept ?_
  cases h : literalValue t with
  | error e =>
    obtain ⟨-, rfl⟩ := literalValue_eq_error h
    rfl
  | ok v =>
    obtain ⟨s, -, rfl⟩ := literalValue_eq_ok h
    rfl

theorem mapM {g : γ → EvalM α} {g' : γ → EvalM β} {f : α → β} :
    ∀ (l : List γ), (∀ a ∈ l, Sim A f (g a) (g' a)) →
      Sim A (List.map f) (l.mapM g) (l.mapM g')
  | [], _ => Sim.pure _ []
  | a :: l, h => by
    rw [List.mapM_cons, List.mapM_cons]
    exact bind (h a List.mem_cons_self) fun b =>
      bind (mapM l fun c hc => h c (List.mem_cons_of_mem _ hc)) fun bs => Sim.pure _ (b :: bs)

theorem forM {g : γ → EvalM PUnit} {g' : δ → EvalM PUnit} {f : γ → δ} :
    ∀ (l : List γ), (∀ a ∈ l, Sim A id (g a) (g' (f a))) →
      Sim A id (l.forM g) ((l.map f).forM g')
  | [], _ => Sim.pure id PUnit.unit
  | a :: l, h => by
    rw [List.map_cons, List.forM, List.forM]
    exact bind (h a List.mem_cons_self) fun _ => forM l fun c hc => h c (List.mem_cons_of_mem _ hc)

theorem foldlM {g : α → γ → EvalM α} {g' : β → γ → EvalM β} {f : α → β} :
    ∀ (l : List γ) (init : α), (∀ b, ∀ a ∈ l, Sim A f (g b a) (g' (f b) a)) →
      Sim A f (l.foldlM g init) (l.foldlM g' (f init))
  | [], init, _ => Sim.pure f init
  | a :: l, init, h => by
    rw [List.foldlM_cons, List.foldlM_cons]
    exact bind (h init a List.mem_cons_self) fun b =>
      foldlM l b fun b' a' ha' => h b' a' (List.mem_cons_of_mem _ ha')

/-! ## The parts of evaluation -/

section Parts

variable {step step' : Expr → EvalM Value}

theorem runBlock :
    ∀ {es : List Expr}, (∀ e ∈ es, Sim A (Value.shift A) (step e) (step' e)) →
      Sim A (Value.shift A) (MiniLisp.runBlock step es) (MiniLisp.runBlock step' es)
  | [], _ => Sim.pure _ Value.undefined
  | [e], h => by
    rw [MiniLisp.runBlock, MiniLisp.runBlock]
    exact h e List.mem_cons_self
  | e :: e' :: es, h => by
    rw [MiniLisp.runBlock.eq_3 _ _ _ (List.cons_ne_nil _ _),
      MiniLisp.runBlock.eq_3 _ _ _ (List.cons_ne_nil _ _)]
    exact bind (h e List.mem_cons_self) fun _ =>
      runBlock fun b hb => h b (List.mem_cons_of_mem _ hb)

theorem runLoop {c body : Expr} (hc : Sim A (Value.shift A) (step c) (step' c))
    (hb : Sim A (Value.shift A) (step body) (step' body)) :
    ∀ rounds last, Sim A (Value.shift A) (MiniLisp.runLoop step c body rounds last)
      (MiniLisp.runLoop step' c body rounds (last.shift A))
  | 0, _ => Sim.throw _ .exhausted
  | rounds + 1, last => by
    rw [MiniLisp.runLoop, MiniLisp.runLoop]
    refine bind hc fun v => ?_
    -- the condition reads the same in both runs
    rw [Value.truthy_shift]
    exact ite (bind hb fun v' => runLoop hc hb rounds v') (Sim.pure _ last)

theorem runBody (h : ∀ e, Sim A (Value.shift A) (step e) (step' e)) (body : Expr) :
    Sim A (Value.shift A) (MiniLisp.runBody step body) (MiniLisp.runBody step' body) := by
  unfold MiniLisp.runBody
  split
  · exact runBlock fun e _ => h e
  · exact h body

end Parts

theorem builtin (b : Builtin) (args : List Value) :
    Sim A (Value.shift A) (b.run args) (b.run (args.map (Value.shift A))) := by
  cases b with
  | op o => exact ofExcept_apply o args
  | print =>
    -- `print` writes the text of its arguments, which does not see scopes
    have hrender : (args.map (Value.shift A)).map Value.render = args.map Value.render := by
      simp [List.map_map, Function.comp_def]
    simp only [Builtin.run, hrender]
    exact bind (emit _) fun _ => Sim.pure _ Value.null

theorem special {ev ev' : Nat → Expr → EvalM Value}
    (hev : ∀ i e, Sim A (Value.shift A) (ev i e) (ev' (shiftId A i) e)) (rounds env : Nat)
    (form : Expr) (kw : Keyword) (rest : List Expr) :
    Sim A (Value.shift A) (MiniLisp.special ev rounds env form kw rest)
      (MiniLisp.special ev' rounds (shiftId A env) form kw rest) := by
  have hun : Sim A (Value.shift A) (EvalM.fail (.unimplemented form) : EvalM Value)
      (EvalM.fail (.unimplemented form)) := Sim.fail _ _
  unfold MiniLisp.special
  split
  · exact bind (newScope env) fun b => runBlock fun e _ => hev b e
  · split
    · exact bind (hev env _) fun x => bind (define _ _ _) fun _ => Sim.pure _ x
    · exact hun
  · split
    · exact bind (hev env _) fun x => bind (assign _ _ _) fun _ => Sim.pure _ x
    · exact hun
  · refine bind (hev env _) fun v => ?_
    rw [Value.truthy_shift]
    exact ite (hev env _) (hev env _)
  · exact runLoop (hev env _) (hev env _) _ _
  · split
    · exact bind (makeClosure _ _ _ _) fun f => bind (define _ _ _) fun _ => Sim.pure _ f
    · exact hun
  · split
    · exact makeClosure _ _ _ _
    · exact hun
  · exact hun

/-- A closure of the unrolled run is called as its shifted copy in the other run: the
activation scopes correspond, and so do the runs of the body. -/
theorem callClosure {L depth : Nat} {enter enter' : Nat → Expr → EvalM Value}
    (henter : ∀ i e, Sim A (Value.shift A) (enter i e) (enter' (shiftId A i) e)) (c : Closure)
    (args : List Value) :
    Sim A (Value.shift A) (MiniLisp.callClosure L depth enter c args)
      (MiniLisp.callClosure L depth enter' { c with scope := shiftId A c.scope }
        (args.map (Value.shift A))) := by
  rw [callClosure_eq, callClosure_eq, List.length_map, List.zip_map_right]
  refine ite (Sim.fail _ _) (bind (newScope c.scope) fun act => ?_)
  refine bind (forM _ fun pa _ => ?_) fun _ => ite (Sim.fail _ _) (runBody (henter act) c.body)
  obtain ⟨p, a⟩ := pa
  exact define act p a

end Sim

/-! ## Evaluation -/

/-- **Evaluation cannot tell the two runs apart**: from related machines, evaluation in related
scopes ends alike. -/
theorem eval_sim (L : Nat) : ∀ fuel depth (i : Nat) (e : Expr),
    Sim A (Value.shift A) (eval L fuel depth i e) (eval L fuel depth (shiftId A i) e)
  | 0, _, _, _ => Sim.throw _ .exhausted
  | fuel + 1, depth, i, e => by
    have ih := eval_sim L fuel
    cases e with
    | num x => exact Sim.pure _ (Value.num x)
    | str t => exact Sim.literal t
    | sym n =>
      rw [eval, eval]
      exact Sim.ite (Sim.lookup i n) (Sim.fail _ _)
    | list items =>
    cases items with
    | nil => exact Sim.fail _ _
    | cons head rest =>
      rw [eval, eval]
      have hargs := Sim.mapM rest fun e _ => ih depth i e
      split
      · exact Sim.bind hargs fun args => Sim.ofExcept_apply _ args
      · split
        · exact Sim.special (ih depth) fuel i _ _ rest
        · refine Sim.bind (ih depth i head) fun v => ?_
          -- the head's value decides the call in both runs alike
          cases v with
          | builtin b => exact Sim.bind hargs fun args => Sim.builtin b args
          | closure c => exact Sim.bind hargs fun args => Sim.callClosure (ih (depth + 1)) c args
          | null => exact Sim.fail _ _
          | undefined => exact Sim.fail _ _
          | bool b => exact Sim.fail _ _
          | num x => exact Sim.fail _ _
          | str s => exact Sim.fail _ _

/-! ## Sessions -/

/-- Sessions of the two runs: related stores and the same depth limit, with the global scope
below the unrolled activation. -/
structure Session.Unrolled (A : Nat) (s s' : Session) : Prop where
  global : 0 < A
  store : Store.Unrolled A s.store s'.store
  maxDepth : s'.maxDepth = s.maxDepth

/-- The outcomes of a session step in the two runs: the result up to the scopes of closures,
the same printed text, and related sessions after. -/
structure Outcome.Unrolled (A : Nat) (o o' : Outcome Value) : Prop where
  result : o'.result = (o.result.mapError (Halt.shift A)).map (Value.shift A)
  out : o'.out = o.out
  session : Session.Unrolled A o.session o'.session

namespace Session.Unrolled

variable {s s' : Session}

theorem run (hs : Session.Unrolled A s s') {x y : EvalM Value}
    (hxy : Sim A (Value.shift A) x y) : Outcome.Unrolled A (s.run x) (s'.run y) := by
  obtain ⟨hr, hm⟩ := hxy ⟨s.store, ""⟩ ⟨s'.store, ""⟩ ⟨rfl, hs.store⟩
  exact ⟨hr, hm.out, hs.global, hm.store, hs.maxDepth⟩

theorem evalForm (hs : Session.Unrolled A s s') (e : Expr) :
    Sim A (Value.shift A) (s.evalForm e) (s'.evalForm e) := by
  rw [Session.evalForm, Session.evalForm, hs.maxDepth, globalScope]
  have hsim := eval_sim (A := A) s.maxDepth ample 0 0 e
  rwa [shiftId_of_lt hs.global] at hsim

theorem evaluate (hs : Session.Unrolled A s s') (e : Expr) :
    Outcome.Unrolled A (s.evaluate e) (s'.evaluate e) :=
  hs.run (hs.evalForm e)

theorem evaluateText (hs : Session.Unrolled A s s') (src : String) :
    Outcome.Unrolled A (s.evaluateText src) (s'.evaluateText src) := by
  unfold Session.evaluateText
  split
  · exact ⟨rfl, rfl, hs⟩
  · exact hs.run (Sim.foldlM _ Value.undefined fun _ e _ => hs.evalForm e)

end Session.Unrolled

/-! ## What the command shows -/

@[simp] theorem Halt.report_shift (h : Halt) : (h.shift A).report = h.report := by
  cases h <;> simp [Halt.shift, Halt.report]

namespace Session.Unrolled

variable {s s' : Session}

/-- A line of the prompt answers the same text in both runs and leaves related sessions. -/
theorem promptStep (hs : Session.Unrolled A s s') (line : String) :
    (Cli.promptStep s' line).1 = (Cli.promptStep s line).1 ∧
      Session.Unrolled A (Cli.promptStep s line).2 (Cli.promptStep s' line).2 := by
  unfold Cli.promptStep
  split
  · exact ⟨rfl, hs⟩
  · have ho := hs.evaluateText line
    refine ⟨?_, ho.session⟩
    dsimp only
    rw [ho.out, ho.result]
    cases (s.evaluateText line).result <;> simp [Except.map, Except.mapError]

/-- Whatever lines come after, the prompt answers them with the same text in both runs. -/
theorem promptLines (hs : Session.Unrolled A s s') (out : String) (lines : List String) :
    (lines.foldl Cli.promptLine (out, s')).1 = (lines.foldl Cli.promptLine (out, s)).1 := by
  induction lines generalizing out s s' with
  | nil => rfl
  | cons line lines ih =>
    obtain ⟨htext, hs₁⟩ := hs.promptStep line
    simp only [List.foldl_cons, Cli.promptLine, htext]
    exact ih hs₁ _

end Session.Unrolled

/-! ## A call and its body -/

/-- Binding the parameters of a call keeps every reference of the store below `n`, when the
arguments refer to nothing from `n` on. -/
theorem run_forM_define (act : Nat) {n : Nat} :
    ∀ (l : List (String × Value)) (m : Machine), m.store.RefsBelow n →
      (∀ pa ∈ l, pa.2.Below n) →
      ∃ m', (l.forM fun pa => EvalM.define act pa.1 pa.2).run.run m = (.ok ⟨⟩, m') ∧
        m'.store.scopes.size = m.store.scopes.size ∧ m'.store.RefsBelow n
  | [], m, h, _ => ⟨m, rfl, rfl, h⟩
  | (p, a) :: l, m, h, hl => by
    rw [List.forM, run_bind, EvalM.run_define]
    obtain ⟨m', hrun, hsize, hr⟩ :=
      run_forM_define act l { m with store := m.store.define act p a }
      (h.define act p (hl (p, a) List.mem_cons_self))
      (fun pa hpa => hl pa (List.mem_cons_of_mem _ hpa))
    exact ⟨m', hrun, by simpa using hsize, hr⟩

/-- A call that passes its checks runs its body from a machine whose newest scope is the
activation, which nothing refers to. -/
theorem callClosure_runs_body {L depth : Nat} (enter : Nat → Expr → EvalM Value) {c : Closure}
    {args : List Value} {m : Machine} (hlen : args.length = c.params.length) (hdepth : depth < L)
    (hclosed : m.store.Closed) (hscope : c.scope < m.store.scopes.size)
    (hargs : ∀ a ∈ args, a.Below m.store.scopes.size) :
    ∃ m₁, (callClosure L depth enter c args).run.run m =
        (runBody (enter m.store.scopes.size) c.body).run.run m₁ ∧
      m₁.store.scopes.size = m.store.scopes.size + 1 ∧
      m₁.store.RefsBelow m.store.scopes.size := by
  rw [callClosure_eq, if_neg (not_not.2 hlen), run_bind, EvalM.run_newScope]
  obtain ⟨m₁, hrun, hsize, hr⟩ := run_forM_define m.store.nextId (c.params.zip args)
    { m with store := m.store.child c.scope } (Store.RefsBelow.child hclosed hscope)
    (fun pa hpa => hargs pa.2 (List.of_mem_zip hpa).2)
  refine ⟨m₁, ?_, by simpa using hsize, hr⟩
  dsimp only
  -- the parameters are bound by a function that takes each pair apart, as `hrun` does
  rw [run_bind]
  erw [hrun]
  dsimp only
  rw [if_neg (Nat.not_le.2 hdepth)]
  rfl

theorem runBody_begin (step : Expr → EvalM Value) (e : Expr) (es : List Expr) :
    runBody step (.list (.sym "begin" :: e :: es)) = runBlock step (e :: es) := by
  simp [runBody, Expr.bodyForms?]

/-- Evaluated as a form, a `begin` body opens a block under the scope it is evaluated in and
runs its forms there. -/
theorem eval_begin (L fuel depth env : Nat) (e : Expr) (es : List Expr) :
    eval L (fuel + 1) depth env (.list (.sym "begin" :: e :: es)) =
      EvalM.newScope env >>= fun block => runBlock (eval L fuel depth block) (e :: es) := by
  have hop : (Expr.sym "begin").operator? = none := by decide
  have hkw : (Expr.sym "begin").keyword? = some .begin := by decide
  rw [eval, hop, hkw]
  rfl

/-- From a machine whose newest scope `A` nothing refers to, the forms of a `begin` body run
directly in `A` and the body evaluated as a form in `A` end alike. -/
theorem runBody_begin_ends (L fuel depth A : Nat) (m : Machine) (e : Expr) (es : List Expr)
    (hsize : m.store.scopes.size = A + 1) (hrefs : m.store.RefsBelow A) :
    Ends A (Value.shift A)
      ((runBody (eval L fuel depth A) (.list (.sym "begin" :: e :: es))).run.run m)
      ((eval L (fuel + 1) depth A (.list (.sym "begin" :: e :: es))).run.run m) := by
  rw [runBody_begin, eval_begin, run_bind, EvalM.run_newScope]
  have hB : m.store.nextId = shiftId A A := by rw [shiftId_self, Store.nextId, hsize]
  rw [hB]
  exact Sim.runBlock (fun e' _ => eval_sim L fuel depth A e') m _
    ⟨rfl, Store.Unrolled.open_block hsize hrefs⟩

/-- **Unrolling a `begin` body does not change what a program does**: the call and the unrolled
body end alike, and so does everything after them. -/
theorem unrolled_body_equivalent (L fuel depth : Nat) (c : Closure) (args : List Value)
    (m : Machine) (e : Expr) (es : List Expr) (hbody : c.body = .list (.sym "begin" :: e :: es))
    (hlen : args.length = c.params.length) (hdepth : depth < L)
    (hclosed : m.store.Closed) (hscope : c.scope < m.store.scopes.size)
    (hargs : ∀ a ∈ args, a.Below m.store.scopes.size) :
    let A := m.store.scopes.size
    ∃ m₁,
      let r := (runBody (eval L fuel (depth + 1) A) c.body).run.run m₁
      let r' := (eval L (fuel + 1) (depth + 1) A c.body).run.run m₁
      (callClosure L depth (eval L fuel (depth + 1)) c args).run.run m = r ∧
      Ends A (Value.shift A) r r' ∧
      (∀ i < A, ∀ x, (r.2.store.scopes[i]?.bind (·.get? x)).map (Value.shift A) =
        r'.2.store.scopes[i]?.bind (·.get? x)) ∧
      (∀ L' fuel' depth' i e', Sim A (Value.shift A) (eval L' fuel' depth' i e')
        (eval L' fuel' depth' (shiftId A i) e')) ∧
      ∀ s s', Session.Unrolled A s s' →
        (∀ e', Outcome.Unrolled A (s.evaluate e') (s'.evaluate e')) ∧
        (∀ src, Outcome.Unrolled A (s.evaluateText src) (s'.evaluateText src)) ∧
        ∀ (out : String) (lines : List String),
          (lines.foldl Cli.promptLine (out, s')).1 = (lines.foldl Cli.promptLine (out, s)).1 := by
  intro A
  obtain ⟨m₁, hrun, hsize, hr⟩ := callClosure_runs_body (eval L fuel (depth + 1))
    hlen hdepth hclosed hscope hargs
  have hends := runBody_begin_ends L fuel (depth + 1) A m₁ e es hsize hr
  rw [← hbody] at hends
  exact ⟨m₁, hrun, hends, fun i hi x => hends.2.store.get_below hi x,
    fun L' fuel' depth' i e' => eval_sim L' fuel' depth' i e',
    fun s s' hs => ⟨hs.evaluate, hs.evaluateText, hs.promptLines⟩⟩

/-- A call of `(lambda (x) (begin (var x 2) x))` on `1` in a new session: the `var` of the body
rebinds the parameter in the unrolled run and shadows it in the block. -/
theorem unrolled_body_equivalent_shadowed_param :
    let c : Closure :=
      { stamp := 0, name := none, params := ["x"], scope := 0,
        body := .list [.sym "begin", .list [.sym "var", .sym "x", .num 2], .sym "x"] }
    let args := [Value.num 1]
    let m : Machine := { store := Store.initial, out := "" }
    (c.body = .list (.sym "begin" :: .list [.sym "var", .sym "x", .num 2] :: [.sym "x"]) ∧
      args.length = c.params.length ∧ 0 < 8 ∧ m.store.Closed ∧ c.scope < m.store.scopes.size ∧
      ∀ a ∈ args, a.Below m.store.scopes.size) ∧
    let A := m.store.scopes.size
    ∃ m₁,
      let r := (runBody (eval 8 8 (0 + 1) A) c.body).run.run m₁
      let r' := (eval 8 (8 + 1) (0 + 1) A c.body).run.run m₁
      (callClosure 8 0 (eval 8 8 (0 + 1)) c args).run.run m = r ∧
      Ends A (Value.shift A) r r' ∧
      (∀ i < A, ∀ x, (r.2.store.scopes[i]?.bind (·.get? x)).map (Value.shift A) =
        r'.2.store.scopes[i]?.bind (·.get? x)) ∧
      (∀ L' fuel' depth' i e', Sim A (Value.shift A) (eval L' fuel' depth' i e')
        (eval L' fuel' depth' (shiftId A i) e')) ∧
      ∀ s s', Session.Unrolled A s s' →
        (∀ e', Outcome.Unrolled A (s.evaluate e') (s'.evaluate e')) ∧
        (∀ src, Outcome.Unrolled A (s.evaluateText src) (s'.evaluateText src)) ∧
        ∀ (out : String) (lines : List String),
          (lines.foldl Cli.promptLine (out, s')).1 = (lines.foldl Cli.promptLine (out, s)).1 := by
  intro c args m
  have hargs : ∀ a ∈ args, a.Below m.store.scopes.size := by
    simp [args, Value.Below]
  exact ⟨⟨rfl, rfl, by decide, Store.initial_closed, by decide, hargs⟩,
    unrolled_body_equivalent 8 8 0 c args m _ _ rfl rfl (by decide) Store.initial_closed
      (by decide) hargs⟩

end MiniLisp
