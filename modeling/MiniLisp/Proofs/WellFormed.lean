import MiniLisp.Proofs.Closed
import MiniLisp.Proofs.ChainedMap

/-! # Every store a session reaches is well-formed

A store is well-formed when every reference it holds is to a scope it has (the parent of each
scope, and the scope each closure it binds was made in) and each scope's parent was made before
it. Scopes and closures refer to each other in cycles (the global scope binds closures made in
it), but a parent only points back in time, so every chain of parents is finite and repeats no
scope, and the walks along a chain (`resolve`, `lookup`, `describe`) follow every parent link:
the check that stops a walk at a link that does not point back never fires.

* `Store.WellFormed`; `Store.WellFormed.ofRoot`, `child`, `define`, `assign`: the operations of
  the store keep it.
* `wellFormedGhost`: what a run knows of a well-formed store, the number of its scopes;
  `eval_keeps_wellFormed`: every evaluation keeps the store well-formed, and gives a value that
  refers only to scopes of it.
* `Store.WellFormed.chain`: each scope heads a chain of parents that repeats no scope;
  `Store.WellFormed.resolve_eq`, `lookup_eq`, `describe_eq`: the walks follow each parent.
* `stores_stay_well_formed`: all of it together, for the stores a session reaches.
-/

namespace MiniLisp

/-! ## Well-formed stores -/

/-- Each scope's parent was made before it. -/
def Store.ParentsOlder (s : Store) : Prop :=
  ∀ (i : Nat) (sc : Scope) (p : Nat), s.scopes[i]? = some sc → sc.parent = some p → p < i

/-- Every reference the store holds is to a scope it has, and every parent is older than its
child. -/
structure Store.WellFormed (s : Store) : Prop where
  closed : s.Closed
  parentsOlder : s.ParentsOlder

namespace Store

variable {s : Store}

theorem ParentsOlder.define (h : s.ParentsOlder) (i : Nat) (x : String) (v : Value) :
    (s.define i x v).ParentsOlder := by
  intro j sc p hsc hp
  rw [getElem?_define] at hsc
  split at hsc
  · obtain ⟨sc₀, hsc₀, rfl⟩ := Option.map_eq_some_iff.1 hsc
    exact h j sc₀ p hsc₀ (by simpa using hp)
  · exact h j sc p hsc hp

theorem ParentsOlder.child (h : s.ParentsOlder) {p : Nat} (hp : p < s.scopes.size) :
    (s.child p).ParentsOlder := by
  intro j sc q hsc hq
  rw [getElem?_child] at hsc
  split at hsc
  · rename_i hj
    cases hsc
    cases hq
    rw [hj]
    exact hp
  · exact h j sc q hsc hq

namespace WellFormed

theorem ofRoot {vars : List (String × Value)} (hvars : ∀ b ∈ vars, b.2.Below 1) :
    (Store.ofRoot vars).WellFormed := by
  refine ⟨Closed.ofRoot hvars, fun i sc p hi hp => ?_⟩
  rw [eq_of_getElem?_ofRoot hi] at hp
  cases hp

theorem child (h : s.WellFormed) {p : Nat} (hp : p < s.scopes.size) : (s.child p).WellFormed :=
  ⟨h.closed.child hp, h.parentsOlder.child hp⟩

theorem define (h : s.WellFormed) (i : Nat) (x : String) {v : Value}
    (hv : v.Below s.scopes.size) : (s.define i x v).WellFormed :=
  ⟨h.closed.define i x hv, h.parentsOlder.define i x v⟩

theorem assign (h : s.WellFormed) {i : Nat} {x : String} {v : Value} {s' : Store}
    (hv : v.Below s.scopes.size) (ha : s.assign i x v = some s') : s'.WellFormed := by
  obtain ⟨home, -, rfl⟩ := Option.map_eq_some_iff.1 ha
  exact h.define home x hv

theorem stamp (h : s.WellFormed) : s.stamp.WellFormed := ⟨h.closed.stamp, h.parentsOlder⟩

end WellFormed

end Store

/-! ## Evaluation keeps stores well-formed -/

/-- What a run knows of a well-formed store: what it knows of a closed one, the number of its
scopes, where every parent is also older than its child. -/
def wellFormedGhost : Ghost :=
  closedGhost.strengthen Store.ParentsOlder (fun env name v h => h.define env name v)
    (fun hs hp h => h.child (hs.2 ▸ hp)) id

/-- **Evaluation keeps stores well-formed**, on every path, and gives values that refer to
scopes of the store. -/
theorem eval_keeps_wellFormed (L fuel depth : Nat) (env : ScopeId) (e : Expr) {m : Machine}
    (hm : m.store.WellFormed) (henv : env < m.store.scopes.size) :
    let r := (eval L fuel depth env e).run.run m
    r.2.store.WellFormed ∧ ∀ v, r.1 = .ok v → v.Below r.2.store.scopes.size := by
  obtain ⟨n, -, ⟨⟨hclosed, hsize⟩, holder⟩, hv⟩ := Ghost.Keeps.eval (G := wellFormedGhost)
    L fuel depth env e _ henv m ⟨⟨hm.closed, rfl⟩, hm.parentsOlder⟩
  exact ⟨⟨hclosed, holder⟩, fun v h => hsize ▸ hv v h⟩

/-- A session's store is well-formed and has its global scope. -/
def Session.WellFormed (s : Session) : Prop := s.store.WellFormed ∧ 0 < s.store.scopes.size

theorem Store.initial_wellFormed : Store.initial.WellFormed :=
  Store.WellFormed.ofRoot fun b hb c hc => absurd hc (globals_ne_closure b hb c)

/-- **Every step of a session keeps its store well-formed.** -/
theorem Session.WellFormed.steps {s : Session} (hs : s.WellFormed) :
    (∀ e, (s.evaluate e).session.WellFormed) ∧ ∀ src, (s.evaluateText src).session.WellFormed :=
  -- the world is the number of scopes, and vouches for the global scope while it is positive
  Ghost.Keeps.session (G := wellFormedGhost) (P := fun st => st.WellFormed ∧ 0 < st.scopes.size)
    (fun _ _ h hg => ⟨⟨h.1.1, h.2⟩, h.1.2 ▸ hg⟩) ⟨⟨hs.1.closed, rfl⟩, hs.1.parentsOlder⟩ hs.2

/-! ## Chains are finite and the walks follow them -/

/-- The description of one scope: the names it binds, sorted. -/
def Scope.header (sc : Scope) : String :=
  "Environment \x7b " ++ ", ".intercalate sc.names ++ " \x7d"

namespace Store

variable {s : Store}

/-- Along a chain the scopes get older at each step. -/
theorem Chain.pairwise_gt {i : ScopeId} {l : List ScopeId} (hc : s.Chain i l) :
    (i :: l).Pairwise (· > ·) := by
  induction hc with
  | root => exact List.pairwise_singleton _ _
  | @cons i p sc l _ _ hlt _ ih =>
    refine List.Pairwise.cons (fun j hj => ?_) ih
    rcases List.mem_cons.1 hj with rfl | hj
    · exact hlt
    · exact Nat.lt_trans (List.rel_of_pairwise_cons ih hj) hlt

theorem Chain.nodup {i : ScopeId} {l : List ScopeId} (hc : s.Chain i l) : (i :: l).Nodup :=
  hc.pairwise_gt.imp fun h => Nat.ne_of_gt h

/-- **Every scope of a store whose parents are older heads a chain** of parents up to a root,
and the chain repeats no scope. -/
theorem ParentsOlder.chain (h : s.ParentsOlder) :
    ∀ i, i < s.scopes.size → ∃ l, s.Chain i l ∧ (i :: l).Nodup := by
  intro i
  induction i using Nat.strongRecOn with
  | _ i ih =>
    intro hi
    obtain ⟨sc, hsc⟩ : ∃ sc, s.scopes[i]? = some sc := ⟨_, Array.getElem?_eq_getElem hi⟩
    cases hp : sc.parent with
    | none => exact ⟨[], .root hsc hp, List.nodup_singleton i⟩
    | some p =>
      -- the parent is older, so it heads a chain of its own
      have hlt := h i sc p hsc hp
      obtain ⟨l, hc, -⟩ := ih p hlt (Nat.lt_trans hlt hi)
      have hc' : s.Chain i (p :: l) := .cons hsc hp hlt hc
      exact ⟨p :: l, hc', hc'.nodup⟩

/-- `resolve` looks in the scope, then in its parent: the check on the parent link never stops
it. -/
theorem ParentsOlder.resolve_eq (h : s.ParentsOlder) {i : ScopeId} {sc : Scope}
    (hsc : s.scopes[i]? = some sc) (x : String) :
    s.resolve i x = if sc.binds x then some i else sc.parent.bind fun p => s.resolve p x := by
  rw [resolve, hsc]
  simp only
  split
  · rfl
  · cases hp : sc.parent with
    | none => rfl
    | some p => simp [h i sc p hsc hp]

theorem ParentsOlder.lookup_eq (h : s.ParentsOlder) {i : ScopeId} {sc : Scope}
    (hsc : s.scopes[i]? = some sc) (x : String) :
    s.lookup i x = if sc.binds x then sc.get? x else sc.parent.bind fun p => s.lookup p x := by
  unfold lookup
  rw [h.resolve_eq hsc x]
  split
  · simp [hsc]
  · cases sc.parent <;> rfl

/-- `describe` writes the scope, then its parent's description: the check on the parent link
never stops it. -/
theorem ParentsOlder.describe_eq (h : s.ParentsOlder) {i : ScopeId} {sc : Scope}
    (hsc : s.scopes[i]? = some sc) :
    s.describe i = sc.header ++ sc.parent.elim "" fun p => " -> " ++ s.describe p := by
  rw [describe, hsc]
  simp only
  cases hp : sc.parent with
  | none => simp [Scope.header]
  | some p =>
    simp only [if_pos (h i sc p hsc hp), Option.elim, Scope.header, String.append_assoc]

end Store

/-! ## Every store a session reaches is well-formed -/

/-- **Every store a session reaches is well-formed**, and in such a store every scope heads a
chain of parents up to a root. -/
theorem stores_stay_well_formed :
    (∀ vars : List (String × Value), (∀ b ∈ vars, b.2.Below 1) → (Store.ofRoot vars).WellFormed) ∧
    (∀ (s : Store) (p : ScopeId), s.WellFormed → p < s.scopes.size → (s.child p).WellFormed) ∧
    (∀ (s : Store) (i : ScopeId) (x : String) (v : Value), s.WellFormed →
      v.Below s.scopes.size → (s.define i x v).WellFormed) ∧
    (∀ (s s' : Store) (i : ScopeId) (x : String) (v : Value), s.WellFormed →
      v.Below s.scopes.size → s.assign i x v = some s' → s'.WellFormed) ∧
    (∀ (L fuel depth : Nat) (env : ScopeId) (e : Expr) (m : Machine), m.store.WellFormed →
      env < m.store.scopes.size →
      let r := (eval L fuel depth env e).run.run m
      r.2.store.WellFormed ∧ ∀ v, r.1 = .ok v → v.Below r.2.store.scopes.size) ∧
    (∀ maxDepth, (Session.new maxDepth).WellFormed) ∧
    (∀ s : Session, s.WellFormed →
      (∀ e, (s.evaluate e).session.WellFormed) ∧ ∀ src, (s.evaluateText src).session.WellFormed) ∧
    (∀ s : Store, s.WellFormed → ∀ (i : ScopeId) (sc : Scope), s.scopes[i]? = some sc →
      (∃ l, s.Chain i l ∧ (i :: l).Nodup) ∧
      (∀ x, s.resolve i x = if sc.binds x then some i else sc.parent.bind fun p => s.resolve p x) ∧
      (∀ x, s.lookup i x = if sc.binds x then sc.get? x else sc.parent.bind fun p => s.lookup p x) ∧
      s.describe i = sc.header ++ sc.parent.elim "" fun p => " -> " ++ s.describe p) := by
  refine ⟨fun _ => Store.WellFormed.ofRoot, fun _ _ h hp => h.child hp,
    fun _ i x _ h hv => h.define i x hv, fun _ _ _ _ _ h hv ha => h.assign hv ha,
    fun L fuel depth env e _ hm henv => eval_keeps_wellFormed L fuel depth env e hm henv,
    fun _ => ⟨Store.initial_wellFormed, Nat.zero_lt_one⟩, fun _ hs => hs.steps,
    fun s h i sc hsc => ?_⟩
  have hi : i < s.scopes.size := (Array.getElem?_eq_some_iff.1 hsc).1
  exact ⟨h.parentsOlder.chain i hi, h.parentsOlder.resolve_eq hsc, h.parentsOlder.lookup_eq hsc,
    h.parentsOlder.describe_eq hsc⟩

/-- A block opened under the global scope of a new session leaves the store well-formed, and a
name the block does not bind is resolved from the global scope. -/
theorem stores_stay_well_formed_block :
    (Store.initial.child globalScope).WellFormed ∧
      (Store.initial.child globalScope).resolve 1 "print" =
        (Store.initial.child globalScope).resolve globalScope "print" := by
  have hwf := stores_stay_well_formed.2.1 Store.initial globalScope Store.initial_wellFormed
    (by decide)
  have hsc : (Store.initial.child globalScope).scopes[1]? =
      some { vars := [], parent := some globalScope } := by
    simp [Store.initial, Store.ofRoot, Store.child]
  refine ⟨hwf, ?_⟩
  rw [(stores_stay_well_formed.2.2.2.2.2.2.2 _ hwf 1 _ hsc).2.1 "print"]
  simp [Scope.binds]

end MiniLisp
