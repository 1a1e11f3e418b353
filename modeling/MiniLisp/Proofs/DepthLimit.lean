import MiniLisp.Proofs.CallTrace
import MiniLisp.Proofs.Lockstep
import MiniLisp.Session

/-! # The depth limit only cuts runs short

`eval L` stops with `recursionLimit L` at a closure call that has passed its arity check and bound
its parameters while `L` calls are active: the call that would be the `L + 1`-th. Builtins,
operators and the nesting of expressions are not calls. Nothing else differs between two limits,
so the run under `L` is the run under any larger limit cut at that call, on the machine that run
has there. The calls are counted on the events of the traced evaluation (`callTrace`).

* `Avoids depth k tr`: no call among the events `tr` is made while `k` calls are active.
* `Cut`, `CutAt L depth depth' x y`: every run of `x` under `L`, from `depth` active calls, is the
  run of `y` under a larger limit cut at `L`: where `x` does not stop at `L` the two runs are one,
  no call of it is made at `L` active calls and, given a value, it leaves `depth'` calls active;
  where it stops so, its last event is a call made at `L` active calls, on the machine it stops
  with, and the log of `y` goes on from its log. It is kept by every step of evaluation; the
  closure call is the one step where the limits differ (`CutAt.callClosure`).
* `eval_cutAt`, `depth_limit_only_cuts_short`: evaluation under `L ≤ L'`.
-/

namespace MiniLisp

variable {α β : Type}

/-! ## Counting active calls -/

/-- No call among the events `tr` is made while `k` calls are active, `depth` being active
before them. -/
def Avoids (depth k : Nat) (tr : List Event) : Prop :=
  ∀ pre m post, tr = pre ++ .call m :: post → ¬ Active depth pre k

namespace Active

variable {depth depth' k : Nat}

theorem nil : Active depth [] depth := rfl

theorem nil_iff : Active depth [] k ↔ depth = k := by simp [Active]

theorem call (m : Machine) : Active depth [.call m] (depth + 1) := by
  simp [Active, Event.isCall, Event.isDone]

theorem done : Active (depth + 1) [.done] depth := by
  simp [Active, Event.isCall, Event.isDone]

/-- After events that go from `depth` to `depth'` active calls, the count goes on from `depth'`. -/
theorem append_iff {tr pre : List Event} (h : Active depth tr depth') :
    Active depth (tr ++ pre) k ↔ Active depth' pre k := by
  unfold Active at *
  rw [List.countP_append, List.countP_append]
  omega

end Active

namespace Avoids

variable {depth depth' k : Nat}

theorem nil : Avoids depth k [] := fun pre _ _ h => by cases pre <;> cases h

theorem call (m : Machine) (hne : depth ≠ k) : Avoids depth k [.call m] := by
  intro pre m' post h
  cases pre with
  | nil => rwa [Active.nil_iff]
  | cons x pre => cases pre <;> simp at h

theorem done : Avoids depth k [.done] := by
  intro pre m post h
  cases pre with
  | nil => cases h
  | cons x pre => cases pre <;> simp at h

/-- Events that go from `depth` to `depth'` active calls, then others: a call among the later
ones is made at their count from `depth'`. -/
theorem append {tr tr' : List Event} (h : Avoids depth k tr) (ha : Active depth tr depth')
    (h' : Avoids depth' k tr') : Avoids depth k (tr ++ tr') := by
  intro pre m post heq
  rcases List.append_eq_append_iff.1 heq with ⟨mid, rfl, htr'⟩ | ⟨mid, htr, hmid⟩
  · rw [Active.append_iff ha]
    exact h' mid m post htr'
  · rcases List.append_eq_cons_iff.1 hmid.symm with ⟨rfl, htr'⟩ | ⟨mid', rfl, rfl⟩
    · -- the call opens the later events, right after the earlier ones
      rw [List.append_nil] at htr
      subst htr
      rw [← List.append_nil tr, Active.append_iff ha]
      exact h' [] m post htr'
    · exact h pre m mid' htr

end Avoids

/-- The steps of evaluation other than the closure call never stop at a depth limit. -/
theorem noLimit (L : Nat) :
    Lockstep (fun x _ => StopsWithin (· ≠ .error (.recursionLimit L)) x) :=
  StopsWithin.lockstep nofun fun _ he h => he _ (Halt.error.inj h)

/-! ## Runs cut at a depth limit -/

/-- The run `a` of some steps under the limit `L`, from `depth` active calls, against the run `b`
of the same steps under a larger limit, `tr` being the events `a` adds to its log. -/
structure Cut (L depth depth' : Nat) (tr : List Event)
    (a b : Except Halt α × Machine × List Event) : Prop where
  same : a.1 ≠ .error (.error (.recursionLimit L)) → b = a
  avoids : a.1 ≠ .error (.error (.recursionLimit L)) → Avoids depth L tr
  closes : ∀ v, a.1 = .ok v → Active depth tr depth'
  stops : a.1 = .error (.error (.recursionLimit L)) →
    ∃ pre, tr = pre ++ [.call a.2.1] ∧ Active depth pre L ∧ ∃ post, b.2.2 = a.2.2 ++ post

/-- Every run of `x` under the limit `L` from `depth` active calls, after any log, is the run of
`y` cut at `L`. -/
def CutAt (L depth depth' : Nat) (x y : TraceM α) : Prop :=
  ∀ m log, ∃ tr, (x.run.run (m, log)).2.2 = log ++ tr ∧
    Cut L depth depth' tr (x.run.run (m, log)) (y.run.run (m, log))

/-- Every run of `x` adds to its log. -/
def Appends (x : TraceM α) : Prop := ∀ m log, ∃ post, (x.run.run (m, log)).2.2 = log ++ post

theorem Traced.Agrees.appends {x : TraceM α} {y : EvalM α} (h : Traced.Agrees x y) :
    Appends x := fun m log => by
  obtain ⟨tr, htr⟩ := h m
  exact ⟨tr, by rw [htr]⟩

namespace CutAt

variable {L depth depth' depth'' : Nat}

theorem appends {x y : TraceM α} (h : CutAt L depth depth' x y) : Appends y := fun m log => by
  obtain ⟨tr, hlog, hc⟩ := h m log
  by_cases hs : (x.run.run (m, log)).1 = .error (.error (.recursionLimit L))
  · obtain ⟨-, -, -, post, hpost⟩ := hc.stops hs
    exact ⟨tr ++ post, by rw [hpost, hlog, List.append_assoc]⟩
  · exact ⟨tr, by rw [hc.same hs, hlog]⟩

/-- A step that notes nothing and never stops at `L` is its own cut. -/
theorem silent {x : TraceM α} (hlog : ∀ m log, (x.run.run (m, log)).2.2 = log)
    (hs : ∀ m log, (x.run.run (m, log)).1 ≠ .error (.error (.recursionLimit L))) :
    CutAt L depth depth x x :=
  fun m log => ⟨[], by rw [hlog, List.append_nil], ⟨fun _ => rfl, fun _ => Avoids.nil,
    fun _ _ => Active.nil, fun h => absurd h (hs m log)⟩⟩

theorem pure (a : α) : CutAt L depth depth (Pure.pure a : TraceM α) (Pure.pure a) :=
  silent (fun _ _ => rfl) fun _ _ => nofun

/-- A step of evaluation that never stops at `L` runs alike under every limit. -/
theorem lift {y : EvalM α} (hy : StopsWithin (· ≠ .error (.recursionLimit L)) y) :
    CutAt L depth depth (Traced.lift y) (Traced.lift y) :=
  silent (fun _ _ => rfl) fun m _ h => hy m _ h rfl

theorem throw {h : Halt} (hh : h ≠ .error (.recursionLimit L)) :
    CutAt L depth depth (throw h : TraceM α) (throw h) :=
  silent (fun _ _ => rfl) fun _ _ h' => hh (Except.error.inj h')

theorem bind {x y : TraceM α} {f g : α → TraceM β} (hx : CutAt L depth depth' x y)
    (hf : ∀ a, CutAt L depth' depth'' (f a) (g a)) :
    CutAt L depth depth'' (x >>= f) (y >>= g) := by
  intro m log
  obtain ⟨tr, hlog, hc⟩ := hx m log
  rw [Traced.run_bind, Traced.run_bind]
  rcases hr : x.run.run (m, log) with ⟨_ | a, m₁, log₁⟩
  · rename_i h
    rw [hr] at hlog hc
    dsimp only at hlog
    by_cases ht : h = .error (.recursionLimit L)
    · -- `x` stops at the limit: `y` and what follows it go on from there
      subst ht
      obtain ⟨pre, htr, hact, post, hpost⟩ := hc.stops rfl
      refine ⟨tr, hlog, ⟨fun h => absurd rfl h, fun h => absurd rfl h, nofun,
        fun _ => ⟨pre, htr, hact, ?_⟩⟩⟩
      rcases hy : y.run.run (m, log) with ⟨_ | b, m₂, log₂⟩
      · rw [hy] at hpost
        exact ⟨post, hpost⟩
      · rw [hy] at hpost
        obtain ⟨post', hpost'⟩ := (hf b).appends m₂ log₂
        dsimp only at hpost
        exact ⟨post ++ post', by
          dsimp only
          rw [hpost', hpost, List.append_assoc]⟩
    · -- any other stop is the same stop for `y`
      have hy := hc.same (by simpa using ht)
      rw [hy]
      exact ⟨tr, hlog, ⟨fun _ => rfl, fun _ => hc.avoids (by simpa using ht), nofun,
        fun h' => absurd (Except.error.inj h') ht⟩⟩
  · -- `x` gives a value, and so does `y`, on the same machine after the same events
    rw [hr] at hlog hc
    rw [hc.same nofun]
    dsimp only at hlog ⊢
    obtain ⟨tr', hlog', hc'⟩ := hf a m₁ log₁
    have hact := hc.closes a rfl
    refine ⟨tr ++ tr', by rw [hlog', hlog, List.append_assoc], ⟨hc'.same,
      fun hs => (hc.avoids nofun).append hact (hc'.avoids hs),
      fun v hv => (Active.append_iff hact).2 (hc'.closes v hv), fun hs => ?_⟩⟩
    obtain ⟨pre, htr, hact', post, hpost⟩ := hc'.stops hs
    exact ⟨tr ++ pre, by rw [htr, List.append_assoc], (Active.append_iff hact).2 hact', post,
      hpost⟩

theorem ite {c : Prop} [Decidable c] {x x' y y' : TraceM α}
    (hx : CutAt L depth depth' x x') (hy : CutAt L depth depth' y y') :
    CutAt L depth depth' (if c then x else y) (if c then x' else y') := by
  split
  · exact hx
  · exact hy

theorem mapM {γ : Type} {f g : γ → TraceM α} :
    ∀ l : List γ, (∀ a ∈ l, CutAt L depth depth (f a) (g a)) →
      CutAt L depth depth (l.mapM f) (l.mapM g)
  | [], _ => pure _
  | a :: l, h => by
    rw [List.mapM_cons, List.mapM_cons]
    exact bind (h a List.mem_cons_self) fun _ =>
      bind (mapM l fun b hb => h b (List.mem_cons_of_mem _ hb)) fun _ => pure _

theorem forM {γ : Type} {f g : γ → TraceM PUnit} :
    ∀ l : List γ, (∀ a ∈ l, CutAt L depth depth (f a) (g a)) →
      CutAt L depth depth (l.forM f) (l.forM g)
  | [], _ => pure _
  | a :: l, h => by
    rw [List.forM, List.forM]
    exact bind (h a List.mem_cons_self) fun _ =>
      forM l fun b hb => h b (List.mem_cons_of_mem _ hb)

variable {step step' : Expr → TraceM Value}

theorem runBlock : ∀ {es : List Expr}, (∀ e ∈ es, CutAt L depth depth (step e) (step' e)) →
    CutAt L depth depth (Traced.runBlock step es) (Traced.runBlock step' es)
  | [], _ => pure _
  | [e], h => by
    rw [Traced.runBlock, Traced.runBlock]
    exact h e List.mem_cons_self
  | e :: e' :: es, h => by
    rw [Traced.runBlock.eq_3 _ _ _ (List.cons_ne_nil _ _),
      Traced.runBlock.eq_3 _ _ _ (List.cons_ne_nil _ _)]
    exact bind (h e List.mem_cons_self) fun _ =>
      runBlock fun b hb => h b (List.mem_cons_of_mem _ hb)

theorem runLoop {c body : Expr} (hc : CutAt L depth depth (step c) (step' c))
    (hb : CutAt L depth depth (step body) (step' body)) :
    ∀ rounds last, CutAt L depth depth (Traced.runLoop step c body rounds last)
      (Traced.runLoop step' c body rounds last)
  | 0, _ => throw nofun
  | rounds + 1, last => by
    rw [Traced.runLoop, Traced.runLoop]
    exact bind hc fun v => ite (bind hb fun v' => runLoop hc hb rounds v') (pure _)

theorem runBody (h : ∀ e, CutAt L depth depth (step e) (step' e)) (body : Expr) :
    CutAt L depth depth (Traced.runBody step body) (Traced.runBody step' body) := by
  unfold Traced.runBody
  split
  · exact runBlock fun e _ => h e
  · exact h body

theorem special {ev ev' : ScopeId → Expr → TraceM Value}
    (hev : ∀ env e, CutAt L depth depth (ev env e) (ev' env e)) (rounds : Nat) (env : ScopeId)
    (form : Expr) (kw : Keyword) (rest : List Expr) :
    CutAt L depth depth (Traced.special ev rounds env form kw rest)
      (Traced.special ev' rounds env form kw rest) := by
  have hun : ∀ {α : Type}, CutAt L depth depth
      (Traced.lift (EvalM.fail (.unimplemented form)) : TraceM α)
      (Traced.lift (EvalM.fail (.unimplemented form))) :=
    lift ((noLimit L).fail fun k hk => by cases hk)
  unfold Traced.special
  split
  · exact bind (lift ((noLimit L).newScope _)) fun b => runBlock fun e _ => hev b e
  · split
    · exact bind (hev env _) fun x => bind (lift ((noLimit L).define _ _ _)) fun _ => pure _
    · exact hun
  · split
    · exact bind (hev env _) fun x => bind (lift ((noLimit L).assign _ _ _)) fun _ => pure _
    · exact hun
  · exact bind (hev env _) fun x => ite (hev env _) (hev env _)
  · exact runLoop (hev env _) (hev env _) _ _
  · split
    · exact bind (lift ((noLimit L).makeClosure _ _ _ _)) fun f =>
        bind (lift ((noLimit L).define _ _ _)) fun _ => pure _
    · exact hun
  · split
    · exact lift ((noLimit L).makeClosure _ _ _ _)
    · exact hun
  · exact hun

/-! ### The closure call -/

/-- The moment of a call made at other than `L` active calls: one call more is active. -/
theorem noteCall (hne : depth ≠ L) :
    CutAt L depth (depth + 1) (Traced.note .call) (Traced.note .call) :=
  fun m _ => ⟨[.call m], rfl, ⟨fun _ => rfl, fun _ => Avoids.call m hne,
    fun _ _ => Active.call m, nofun⟩⟩

theorem noteDone :
    CutAt L (depth + 1) depth (Traced.note fun _ => .done) (Traced.note fun _ => .done) :=
  fun _ _ => ⟨[.done], rfl, ⟨fun _ => rfl, fun _ => Avoids.done, fun _ _ => Active.done, nofun⟩⟩

/-- A call made at `L` active calls stops the run under `L` right after its moment, on the
machine it has there; the run under a larger limit goes on from that moment. -/
theorem refused (hd : depth = L) {y : TraceM α} (hy : Appends y) :
    CutAt L depth depth'
      (Traced.note .call >>= fun _ => Traced.lift (EvalM.fail (.recursionLimit L)))
      (Traced.note .call >>= fun _ => y) := by
  intro m log
  obtain ⟨post, hpost⟩ := hy m (log ++ [.call m])
  refine ⟨[.call m], rfl, ⟨fun h => absurd rfl h, fun h => absurd rfl h, nofun,
    fun _ => ⟨[], rfl, Active.nil_iff.2 hd, post, ?_⟩⟩⟩
  rw [Traced.run_bind, Traced.run_note]
  exact hpost

/-- **The step of the counter**: a closure call under `L` is the same call under `L' ≥ L` cut at
`L`; the two differ only at the depth check, right after the call's moment. -/
theorem callClosure {L' : Nat} (hL : L ≤ L') (hd : depth ≤ L)
    {enter enter' : ScopeId → Expr → TraceM Value} {enterE : ScopeId → Expr → EvalM Value}
    (h : depth < L → ∀ act e, CutAt L (depth + 1) (depth + 1) (enter act e) (enter' act e))
    (hE : ∀ act e, Traced.Agrees (enter' act e) (enterE act e)) (c : Closure)
    (args : List Value) :
    CutAt L depth depth (Traced.callClosure L depth enter c args)
      (Traced.callClosure L' depth enter' c args) := by
  unfold Traced.callClosure
  refine ite (lift ((noLimit L).fail fun k hk => by cases hk))
    (bind (lift ((noLimit L).newScope _)) fun act =>
      bind (forM _ fun pa _ => ?_) fun _ => ?_)
  · obtain ⟨p, a⟩ := pa
    exact lift ((noLimit L).define _ _ _)
  by_cases hLd : L ≤ depth
  · -- `L` calls are active: the run under `L` stops at this call
    rw [if_pos hLd]
    exact refused (by omega) (Traced.Agrees.ite (Traced.Agrees.lift _)
      (Traced.Agrees.bind_note (Traced.Agrees.runBody (hE act) c.body) _)).appends
  · rw [if_neg hLd, if_neg (by omega)]
    exact bind (noteCall (by omega)) fun _ =>
      bind (runBody (h (by omega) act) c.body) fun v => bind noteDone fun _ => pure v

end CutAt

/-! ## Evaluation under two limits -/

/-- **Every evaluation under a limit is the evaluation under a larger limit, cut there**, from
any count of active calls up to the limit. -/
theorem eval_cutAt {L L' : Nat} (hL : L ≤ L') : ∀ fuel depth, depth ≤ L → ∀ env e,
    CutAt L depth depth (Traced.eval L fuel depth env e) (Traced.eval L' fuel depth env e)
  | 0, _, _, _, _ => CutAt.throw fun h => by cases h
  | fuel + 1, depth, hd, env, e => by
    have ih := eval_cutAt hL fuel
    have hfail : ∀ {α : Type} {e : EvalError}, (∀ k, e ≠ .recursionLimit k) →
        CutAt L depth depth (Traced.lift (EvalM.fail e) : TraceM α)
          (Traced.lift (EvalM.fail e)) :=
      fun he => CutAt.lift ((noLimit L).fail he)
    cases e with
    | num x => exact CutAt.pure _
    | str t => exact CutAt.lift ((noLimit L).literal_rel t)
    | sym n => exact CutAt.ite (CutAt.lift ((noLimit L).lookup _ _)) (hfail fun k hk => by cases hk)
    | list items =>
    cases items with
    | nil => exact hfail fun k hk => by cases hk
    | cons head rest =>
      rw [Traced.eval, Traced.eval]
      have hargs := CutAt.mapM rest fun e _ => ih depth hd env e
      split
      · exact CutAt.bind hargs fun args => CutAt.lift ((noLimit L).apply_rel _ args)
      · split
        · exact CutAt.special (ih depth hd) fuel env _ _ rest
        · refine CutAt.bind (ih depth hd env head) fun v => ?_
          split
          · exact CutAt.bind hargs fun args => CutAt.lift ((noLimit L).builtin_rel _ args)
          · exact CutAt.bind hargs fun args => CutAt.callClosure hL hd
              (fun h => ih (depth + 1) h) (Traced.Agrees.eval L' fuel (depth + 1)) _ _
          · exact hfail fun k hk => by cases hk

/-! ## The depth limit only cuts runs short -/

/-- **The depth limit only cuts runs short**: the run under `L` is the run under `L' ≥ L` cut at
the first call made at `L` active calls. -/
theorem depth_limit_only_cuts_short {L L' : Nat} (hL : L ≤ L') (fuel depth : Nat)
    (hd : depth ≤ L) (env : ScopeId) (e : Expr) (m : Machine) :
    let small := (eval L fuel depth env e).run.run m
    let large := (eval L' fuel depth env e).run.run m
    (Traced.eval L fuel depth env e).run.run (m, []) =
      (small.1, small.2, callTrace L fuel depth env e m) ∧
    (small.1 ≠ .error (.error (.recursionLimit L)) → large = small) ∧
    (small.1 = .error (.error (.recursionLimit L)) ↔ ∃ pre m₁ post,
      callTrace L fuel depth env e m = pre ++ .call m₁ :: post ∧ Active depth pre L) ∧
    (small.1 = .error (.error (.recursionLimit L)) → ∃ pre post,
      callTrace L fuel depth env e m = pre ++ [.call small.2] ∧ Active depth pre L ∧
        callTrace L' fuel depth env e m = pre ++ .call small.2 :: post) := by
  intro small large
  have hsmall : (Traced.eval L fuel depth env e).run.run (m, []) =
      (small.1, small.2, callTrace L fuel depth env e m) :=
    Traced.run_eval L fuel depth env e m []
  have hlarge : (Traced.eval L' fuel depth env e).run.run (m, []) =
      (large.1, large.2, callTrace L' fuel depth env e m) :=
    Traced.run_eval L' fuel depth env e m []
  obtain ⟨tr, hlog, hc⟩ := eval_cutAt hL fuel depth hd env e m []
  rw [hsmall, List.nil_append] at hlog
  rw [hsmall, hlarge] at hc
  dsimp only at hlog hc
  subst hlog
  refine ⟨hsmall, fun hs => ?_, ⟨fun hs => ?_, fun hcall => ?_⟩, fun hs => ?_⟩
  · have h := Prod.mk.inj (hc.same hs)
    exact Prod.ext h.1 (Prod.mk.inj h.2).1
  · obtain ⟨pre, htr, hact, -⟩ := hc.stops hs
    exact ⟨pre, small.2, [], htr, hact⟩
  · -- a call at `L` active calls in a run that does not stop at `L` is one it avoids
    obtain ⟨pre, m₁, post, htr, hact⟩ := hcall
    by_contra hs
    exact hc.avoids hs pre m₁ post htr hact
  · obtain ⟨pre, htr, hact, post, hpost⟩ := hc.stops hs
    dsimp only at hpost
    exact ⟨pre, post, htr, hact, by rw [hpost, htr, List.append_assoc, List.singleton_append]⟩

/-- A closure applied in a new session under the limit `0` is refused at its call, made at no
active calls, which the limit `1` lets through. -/
theorem depth_limit_only_cuts_short_identity :
    0 ≤ 1 ∧ 0 ≤ 0 ∧
    let m : Machine := { store := Store.initial, out := "" }
    let e := Expr.list [.list [.sym "lambda", .list [.sym "x"], .sym "x"], .num 1]
    let small := (eval 0 ample 0 globalScope e).run.run m
    let large := (eval 1 ample 0 globalScope e).run.run m
    (Traced.eval 0 ample 0 globalScope e).run.run (m, []) =
      (small.1, small.2, callTrace 0 ample 0 globalScope e m) ∧
    (small.1 ≠ .error (.error (.recursionLimit 0)) → large = small) ∧
    (small.1 = .error (.error (.recursionLimit 0)) ↔ ∃ pre m₁ post,
      callTrace 0 ample 0 globalScope e m = pre ++ .call m₁ :: post ∧ Active 0 pre 0) ∧
    (small.1 = .error (.error (.recursionLimit 0)) → ∃ pre post,
      callTrace 0 ample 0 globalScope e m = pre ++ [.call small.2] ∧ Active 0 pre 0 ∧
        callTrace 1 ample 0 globalScope e m = pre ++ .call small.2 :: post) :=
  ⟨by decide, by decide, depth_limit_only_cuts_short (by decide) _ _ (by decide) _ _ _⟩

end MiniLisp
