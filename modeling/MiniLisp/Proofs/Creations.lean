import MiniLisp.Proofs.Closed

/-! # Closures compare by the evaluation that made them

Each evaluation of a `def` or `lambda` form makes a closure with the store's next stamp and
counts that stamp as used. The closures made so far, in the order they were made, form the
creation history: the `k`-th was made with stamp `k`. Every closure a run holds, bound in any
scope or given as a value, is the entry of the history at its stamp, however it got there
(looked up, bound by `var`, `set` or a call, returned by a call). So `==`, which compares
closures by stamp, is true of two closures exactly when they are one entry of the history: the
same creation.

* `Value.Recorded h v`, `Store.Records h s`: the history `h` accounts for a value, for a store.
* `creationGhost`: what a run knows, the history so far; `eval_records`: evaluation extends the
  history and accounts for what it gives.
* `Value.same_closure_iff_of_recorded`: two closures the history accounts for are `==` exactly
  when they are equal.
* `eval_lambda`, `eval_def`: such a form makes the next entry, which is `==` to no closure made
  before it.
* `closures_compare_by_creation`: all of it, for the steps of a session.
-/

namespace MiniLisp

/-! ## Creation histories -/

/-- A closure value is the entry of the history `h` at its stamp. -/
def Value.Recorded (h : List Closure) (v : Value) : Prop :=
  ∀ c, v = .closure c → h[c.stamp]? = some c

/-- `h` is the creation history of the store: it has one closure per stamp used, the `k`-th made
with stamp `k`, and each closure the store binds is the entry at its stamp. -/
structure Store.Records (h : List Closure) (s : Store) : Prop where
  length : s.stamps = h.length
  stamped : ∀ (k : Nat) (c : Closure), h[k]? = some c → c.stamp = k
  bound : ∀ (i : Nat) (sc : Scope) (x : String) (v : Value), s.scopes[i]? = some sc →
    sc.get? x = some v → v.Recorded h

namespace Value

theorem Recorded.mono {h h' : List Closure} {v : Value} (hv : v.Recorded h) (hh : h <+: h') :
    v.Recorded h' := by
  intro c hc
  obtain ⟨hlt, hget⟩ := List.getElem?_eq_some_iff.1 (hv c hc)
  rw [List.prefix_iff_getElem?.1 hh _ hlt, hget]

theorem recorded_of_ne_closure (h : List Closure) {v : Value} (hv : ∀ c, v ≠ .closure c) :
    v.Recorded h :=
  fun c hc => absurd hc (hv c)

/-- Two closures the history accounts for are `==` exactly when they are equal: equal stamps
name one entry of the history. -/
theorem same_closure_iff_of_recorded {h : List Closure} {a b : Closure}
    (ha : (closure a).Recorded h) (hb : (closure b).Recorded h) :
    (closure a).same (closure b) = true ↔ a = b := by
  simp only [same, beq_iff_eq]
  constructor
  · intro hs
    have hget := ha a rfl
    rw [hs, hb b rfl] at hget
    exact (Option.some_inj.1 hget).symm
  · rintro rfl
    rfl

end Value

namespace Store.Records

variable {h : List Closure} {s : Store}

theorem stamp_lt (hs : s.Records h) {b : Closure} (hb : (Value.closure b).Recorded h) :
    b.stamp < s.stamps := by
  rw [hs.length]
  exact (List.getElem?_eq_some_iff.1 (hb b rfl)).1

theorem define (hs : s.Records h) (i : Nat) (x : String) {v : Value} (hv : v.Recorded h) :
    (s.define i x v).Records h := by
  refine ⟨hs.length, hs.stamped, fun j sc y w hsc hy => ?_⟩
  rw [getElem?_define] at hsc
  split at hsc
  · obtain ⟨sc₀, hsc₀, rfl⟩ := Option.map_eq_some_iff.1 hsc
    rw [Scope.get?_put] at hy
    split at hy
    · rw [← Option.some_inj.1 hy]
      exact hv
    · exact hs.bound j sc₀ y w hsc₀ hy
  · exact hs.bound j sc y w hsc hy

theorem child (hs : s.Records h) (p : Nat) : (s.child p).Records h := by
  refine ⟨hs.length, hs.stamped, fun j sc y w hsc hy => ?_⟩
  rw [getElem?_child] at hsc
  split at hsc
  · cases hsc
    cases hy
  · exact hs.bound j sc y w hsc hy

theorem stamp (hs : s.Records h) {c : Closure} (hc : c.stamp = s.stamps) :
    s.stamp.Records (h ++ [c]) := by
  refine ⟨by simp [Store.stamp, hs.length], fun k c' hk => ?_, fun j sc y w hsc hy =>
    (hs.bound j sc y w hsc hy).mono (List.prefix_append _ _)⟩
  rcases Nat.lt_or_ge k h.length with hlt | hge
  · rw [List.getElem?_append_left hlt] at hk
    exact hs.stamped k c' hk
  · rw [List.getElem?_append_right hge] at hk
    obtain ⟨hlt, hget⟩ := List.getElem?_eq_some_iff.1 hk
    simp only [List.length_singleton] at hlt
    have hk' : k = h.length := by omega
    subst hk'
    simp only [Nat.sub_self, List.getElem_singleton] at hget
    rw [← hget, hc, hs.length]

theorem recorded_stamp (hs : s.Records h) {c : Closure} (hc : c.stamp = s.stamps) :
    (Value.closure c).Recorded (h ++ [c]) := by
  intro c' hc'
  cases hc'
  rw [hc, hs.length, List.getElem?_concat_length]

theorem lookup (hs : s.Records h) {i : Nat} {x : String} {v : Value}
    (hl : s.lookup i x = some v) : v.Recorded h := by
  obtain ⟨home, sc, hsc, hget⟩ := Store.lookup_eq_some hl
  exact hs.bound home sc x v hsc hget

end Store.Records

/-! ## Evaluation extends the history -/

/-- What a run knows of the closures: the history of those made so far. It vouches for every
scope, and for the values it accounts for. -/
def creationGhost : Ghost where
  World := List Closure
  Grows := List.IsPrefix
  grows_refl := List.prefix_refl
  grows_trans := List.IsPrefix.trans
  Holds h s := s.Records h
  ScopeOk _ _ := True
  ValueOk h v := v.Recorded h
  scopeOk_mono _ _ := trivial
  valueOk_mono hw hv := hv.mono hw
  scopeOk_closure _ := trivial
  valueOk_plain h _ hv := Value.recorded_of_ne_closure h hv
  lookup hs hl := hs.lookup hl
  define env name hs hv := hs.define env name hv
  child {_ _ p} hs _ := ⟨_, List.prefix_refl _, hs.child p, trivial⟩
  makeClosure _ _ _ hs _ := ⟨_, List.prefix_append _ _, hs.stamp rfl, hs.recorded_stamp rfl⟩

/-- **Evaluation extends the creation history**, on every path, and gives values it accounts
for. -/
theorem eval_records (L fuel depth : Nat) (env : ScopeId) (e : Expr) {m : Machine}
    {h : List Closure} (hm : m.store.Records h) :
    let r := (eval L fuel depth env e).run.run m
    ∃ h', h <+: h' ∧ r.2.store.Records h' ∧ ∀ v, r.1 = .ok v → v.Recorded h' :=
  Ghost.Keeps.eval (G := creationGhost) L fuel depth env e h trivial m hm

theorem Store.initial_records : Store.initial.Records [] := by
  refine ⟨rfl, fun k c hk => by simp at hk, fun i sc x v hsc hx c hc => ?_⟩
  obtain ⟨b, hb, rfl⟩ := Store.exists_of_get?_ofRoot hsc hx
  exact absurd hc (globals_ne_closure b hb c)

/-! ## Making closures -/

theorem Operator.ofSymbol?_symbol (o : Operator) : Operator.ofSymbol? o.symbol = some o := by
  cases o <;> decide

theorem Builtin.name_eq_iff {a b : Builtin} : a.name = b.name ↔ a = b := by
  refine ⟨fun h => ?_, fun h => h ▸ rfl⟩
  have hprint : Operator.ofSymbol? "print" = none := by decide
  -- an operator's symbol spells that operator and no other, and it is not `print`
  cases a with
  | op o =>
    have ho := Operator.ofSymbol?_symbol o
    cases b with
    | op o' =>
      rw [show o.symbol = o'.symbol from h, Operator.ofSymbol?_symbol] at ho
      rw [Option.some_inj.1 ho]
    | print =>
      rw [show o.symbol = "print" from h, hprint] at ho
      cases ho
  | print =>
    cases b with
    | op o' =>
      have ho := Operator.ofSymbol?_symbol o'
      rw [show o'.symbol = "print" from h.symm, hprint] at ho
      cases ho
    | print => rfl

theorem Operator.apply_eq_pair (a b : Value) :
    Operator.eq.apply [a, b] = .ok (.bool (a.same b)) := rfl

theorem eval_lambda (L fuel depth : Nat) (env : ScopeId) (ps body : Expr) {params : List String}
    (hps : ps.paramNames? = some params) (m : Machine) :
    (eval L (fuel + 1) depth env (.list [.sym "lambda", ps, body])).run.run m =
      (.ok (.closure { stamp := m.store.stamps, name := none, params, body, scope := env }),
        { m with store := m.store.stamp }) := by
  have hop : (Expr.sym "lambda").operator? = none := by decide
  have hkw : (Expr.sym "lambda").keyword? = some .lambda := by decide
  rw [eval, hop, hkw]
  simp only [special, hps]
  rfl

theorem eval_def (L fuel depth : Nat) (env : ScopeId) (n ps body : Expr) {name : String}
    {params : List String} (hn : n.varName? = some name) (hps : ps.paramNames? = some params)
    (m : Machine) :
    let c : Closure := { stamp := m.store.stamps, name := some name, params, body, scope := env }
    (eval L (fuel + 1) depth env (.list [.sym "def", n, ps, body])).run.run m =
      (.ok (.closure c), { m with store := m.store.stamp.define env name (.closure c) }) := by
  have hop : (Expr.sym "def").operator? = none := by decide
  have hkw : (Expr.sym "def").keyword? = some .define := by decide
  rw [eval, hop, hkw]
  simp only [special, hn, hps]
  rfl

/-- The closure made with the next stamp is `==` to no closure the history accounts for. -/
theorem Store.Records.apply_eq_new {h : List Closure} {s : Store} (hs : s.Records h)
    {b c : Closure} (hb : (Value.closure b).Recorded h) (hc : c.stamp = s.stamps) :
    Operator.eq.apply [.closure b, .closure c] = .ok (.bool false) := by
  have hlt := hs.stamp_lt hb
  rw [Operator.apply_eq_pair]
  simp only [Value.same, beq_eq_false_iff_ne.2 (by omega : b.stamp ≠ c.stamp)]

/-! ## Closures compare by the evaluation that made them -/

/-- **Closures compare by the evaluation that made them**, builtins by their names. -/
theorem closures_compare_by_creation :
    (∀ maxDepth, (Session.new maxDepth).store.Records []) ∧
    (∀ (s : Session) (h : List Closure), s.store.Records h → ∀ e,
      ∃ h', h <+: h' ∧ (s.evaluate e).session.store.Records h' ∧
        ∀ v, (s.evaluate e).result = .ok v → v.Recorded h') ∧
    (∀ (s : Session) (h : List Closure), s.store.Records h → ∀ src,
      ∃ h', h <+: h' ∧ (s.evaluateText src).session.store.Records h' ∧
        ∀ v, (s.evaluateText src).result = .ok v → v.Recorded h') ∧
    (∀ (L fuel depth : Nat) (env : ScopeId) (e : Expr) (m : Machine) (h : List Closure),
      m.store.Records h →
      let r := (eval L fuel depth env e).run.run m
      ∃ h', h <+: h' ∧ r.2.store.Records h' ∧ ∀ v, r.1 = .ok v → v.Recorded h') ∧
    (∀ (h : List Closure) (a b : Closure), (Value.closure a).Recorded h →
      (Value.closure b).Recorded h →
      (Operator.eq.apply [.closure a, .closure b] = .ok (.bool true) ↔ a = b)) ∧
    (∀ (L fuel depth : Nat) (env : ScopeId) (ps body : Expr) (params : List String) (m : Machine)
      (h : List Closure), m.store.Records h → ps.paramNames? = some params →
      let r := (eval L (fuel + 1) depth env (.list [.sym "lambda", ps, body])).run.run m
      ∃ c, r.1 = .ok (.closure c) ∧ r.2.store.Records (h ++ [c]) ∧
        ∀ b, (Value.closure b).Recorded h →
          Operator.eq.apply [.closure b, .closure c] = .ok (.bool false)) ∧
    (∀ (L fuel depth : Nat) (env : ScopeId) (n ps body : Expr) (name : String)
      (params : List String) (m : Machine) (h : List Closure), m.store.Records h →
      n.varName? = some name → ps.paramNames? = some params →
      let r := (eval L (fuel + 1) depth env (.list [.sym "def", n, ps, body])).run.run m
      ∃ c, r.1 = .ok (.closure c) ∧ r.2.store.Records (h ++ [c]) ∧
        ∀ b, (Value.closure b).Recorded h →
          Operator.eq.apply [.closure b, .closure c] = .ok (.bool false)) ∧
    (∀ a b : Builtin, (Operator.eq.apply [.builtin a, .builtin b] = .ok (.bool true) ↔
      a.name = b.name) ∧ (a.name = b.name ↔ a = b)) := by
  refine ⟨fun _ => Store.initial_records, fun s h hs e => ?_, fun s h hs src => ?_,
    fun L fuel depth env e m h hm => eval_records L fuel depth env e hm,
    fun h a b ha hb => ?_, fun L fuel depth env ps body params m h hm hps => ?_,
    fun L fuel depth env n ps body name params m h hm hn hps => ?_, fun a b => ?_⟩
  · exact Ghost.Keeps.evaluate (G := creationGhost) hs trivial e
  · exact Ghost.Keeps.evaluateText (G := creationGhost) hs trivial src
  · rw [Operator.apply_eq_pair, Except.ok.injEq, Value.bool.injEq]
    exact Value.same_closure_iff_of_recorded ha hb
  · rw [eval_lambda L fuel depth env ps body hps m]
    exact ⟨_, rfl, hm.stamp rfl, fun b hb => hm.apply_eq_new hb rfl⟩
  · rw [eval_def L fuel depth env n ps body hn hps m]
    exact ⟨_, rfl, (hm.stamp rfl).define env name (hm.recorded_stamp rfl),
      fun b hb => hm.apply_eq_new hb rfl⟩
  · rw [Operator.apply_eq_pair]
    exact ⟨by simp [Value.same], Builtin.name_eq_iff⟩

/-- `(lambda (x) x)` evaluated in a new session makes the first closure of the session, which is
`==` to no closure made before it. -/
theorem closures_compare_by_creation_lambda :
    Store.initial.Records [] ∧ (Expr.list [.sym "x"]).paramNames? = some ["x"] ∧
      let r := (eval 8 (0 + 1) 0 globalScope
        (.list [.sym "lambda", .list [.sym "x"], .sym "x"])).run.run ⟨Store.initial, ""⟩
      ∃ c, r.1 = .ok (.closure c) ∧ r.2.store.Records ([] ++ [c]) ∧
        ∀ b, (Value.closure b).Recorded [] →
          Operator.eq.apply [.closure b, .closure c] = .ok (.bool false) := by
  have hps : (Expr.list [.sym "x"]).paramNames? = some ["x"] := by decide
  exact ⟨Store.initial_records, hps, closures_compare_by_creation.2.2.2.2.2.1 8 0 0 globalScope _
    (.sym "x") ["x"] ⟨Store.initial, ""⟩ [] Store.initial_records hps⟩

end MiniLisp
