import Mathlib
import MiniLisp.Proofs.Ghost
import MiniLisp.Proofs.Store

/-! # References to scopes stay inside the store

A closure names the scope it was made in, and a scope names its parent, by the scope's index in
the store. A store is closed when all these references are to its own scopes. Each primitive
step of evaluation keeps a store closed when what it adds refers to existing scopes; the walk of
the evaluator then keeps it closed on every path (`eval_keeps_wellFormed`, with the order of
parents besides).

* `Value.Below n v`: `v` is no closure made in a scope from `n` on. `Store.RefsBelow n s`: every
  parent and every bound value of `s` refers below `n`; `Store.Closed s`: below the size of `s`.
* `closedGhost`: what a run knows of a closed store, the number of its scopes; each primitive
  step keeps closed stores under its own condition, and the walk of `Ghost.Keeps.eval` composes
  them.
* `Store.initial_closed`: a new session's store is closed.
-/

namespace MiniLisp

/-! ## Values and stores that refer below a bound -/

/-- The value refers to no scope from `n` on: it is no closure made in such a scope. -/
def Value.Below (n : Nat) (v : Value) : Prop := ∀ c, v = .closure c → c.scope < n

theorem Value.Below.mono {n k : Nat} {v : Value} (h : v.Below n) (hk : n ≤ k) : v.Below k :=
  fun c hc => Nat.lt_of_lt_of_le (h c hc) hk

/-- Operators give numbers, strings and booleans, which refer to no scope. -/
theorem Operator.below_of_apply {o : Operator} {args : List Value} {v : Value}
    (h : o.apply args = .ok v) (n : Nat) : v.Below n :=
  fun c hc => absurd hc (Operator.apply_ne_closure h c)

/-- Every reference the store holds is to a scope below `n`: the parent of each scope, and each
value a scope binds. -/
structure Store.RefsBelow (n : Nat) (s : Store) : Prop where
  parent : ∀ (i : Nat) (sc : Scope) (p : Nat), s.scopes[i]? = some sc →
    sc.parent = some p → p < n
  value : ∀ (i : Nat) (sc : Scope) (x : String) (v : Value), s.scopes[i]? = some sc →
    sc.get? x = some v → v.Below n

/-- The store refers only to scopes it has. -/
def Store.Closed (s : Store) : Prop := s.RefsBelow s.scopes.size

namespace Store.RefsBelow

variable {n : Nat} {s : Store}

theorem mono (h : s.RefsBelow n) {k : Nat} (hk : n ≤ k) : s.RefsBelow k :=
  ⟨fun i sc p hsc hp => Nat.lt_of_lt_of_le (h.parent i sc p hsc hp) hk,
    fun i sc x v hsc hv => (h.value i sc x v hsc hv).mono hk⟩

theorem lookup (h : s.RefsBelow n) {i : Nat} {x : String} {v : Value}
    (hl : s.lookup i x = some v) : v.Below n := by
  obtain ⟨home, sc, hsc, hget⟩ := Store.lookup_eq_some hl
  exact h.value home sc x v hsc hget

theorem define (h : s.RefsBelow n) (i : Nat) (x : String) {v : Value} (hv : v.Below n) :
    (s.define i x v).RefsBelow n := by
  refine ⟨fun j sc p hsc hp => ?_, fun j sc y w hsc hy => ?_⟩
  · rw [Store.getElem?_define] at hsc
    split at hsc
    · obtain ⟨sc0, hsc0, rfl⟩ := Option.map_eq_some_iff.1 hsc
      exact h.parent j sc0 p hsc0 (by simpa using hp)
    · exact h.parent j sc p hsc hp
  · rw [Store.getElem?_define] at hsc
    split at hsc
    · obtain ⟨sc0, hsc0, rfl⟩ := Option.map_eq_some_iff.1 hsc
      rw [Scope.get?_put] at hy
      split at hy
      · rw [← Option.some_inj.1 hy]
        exact hv
      · exact h.value j sc0 y w hsc0 hy
    · exact h.value j sc y w hsc hy

theorem child (h : s.RefsBelow n) {p : Nat} (hp : p < n) : (s.child p).RefsBelow n := by
  refine ⟨fun j sc q hsc hq => ?_, fun j sc y w hsc hy => ?_⟩
  · rw [Store.getElem?_child] at hsc
    split at hsc
    · cases hsc
      cases hq
      exact hp
    · exact h.parent j sc q hsc hq
  · rw [Store.getElem?_child] at hsc
    split at hsc
    · cases hsc
      cases hy
    · exact h.value j sc y w hsc hy

end Store.RefsBelow

namespace Store.Closed

variable {s : Store}

theorem define (h : s.Closed) (i : Nat) (x : String) {v : Value} (hv : v.Below s.scopes.size) :
    (s.define i x v).Closed := by
  rw [Store.Closed, Store.size_define]
  exact Store.RefsBelow.define h i x hv

theorem child (h : s.Closed) {p : Nat} (hp : p < s.scopes.size) : (s.child p).Closed := by
  rw [Store.Closed, Store.size_child]
  exact (Store.RefsBelow.mono h (Nat.le_succ _)).child (Nat.lt_succ_of_lt hp)

theorem stamp (h : s.Closed) : s.stamp.Closed := ⟨h.parent, h.value⟩

theorem ofRoot {vars : List (String × Value)} (hvars : ∀ b ∈ vars, b.2.Below 1) :
    (Store.ofRoot vars).Closed := by
  refine ⟨fun i sc p hi hp => ?_, fun i sc x v hi hx => ?_⟩
  · rw [Store.eq_of_getElem?_ofRoot hi] at hp
    cases hp
  · obtain ⟨b, hb, rfl⟩ := Store.exists_of_get?_ofRoot hi hx
    exact hvars b hb

end Store.Closed

/-! ## Evaluation keeps closed stores -/

/-- What a run knows of a closed store: how many scopes it has. It vouches for the scopes below
that number and for the values that refer only to them. -/
def closedGhost : Ghost where
  World := Nat
  Grows := (· ≤ ·)
  grows_refl := Nat.le_refl
  grows_trans := Nat.le_trans
  Holds n s := s.Closed ∧ s.scopes.size = n
  ScopeOk n i := i < n
  ValueOk n v := v.Below n
  scopeOk_mono hw hi := Nat.lt_of_lt_of_le hi hw
  valueOk_mono hw hv := hv.mono hw
  scopeOk_closure hv := hv _ rfl
  valueOk_plain _ _ hv := fun c hc => absurd hc (hv c)
  lookup hs hl := hs.2 ▸ hs.1.lookup hl
  define env name hs hv := ⟨hs.1.define env name (hs.2 ▸ hv), by simp [hs.2]⟩
  child hs hp := ⟨_, Nat.le_succ _, ⟨hs.1.child (hs.2 ▸ hp), by simp [hs.2]⟩,
    by simp [Store.nextId, hs.2]⟩
  makeClosure _ _ _ hs henv := ⟨_, Nat.le_refl _, ⟨hs.1.stamp, hs.2⟩,
    fun _ hc => by cases hc; exact henv⟩

/-! ## The store of a new session -/

theorem globals_ne_closure : ∀ b ∈ globals, ∀ c, b.2 ≠ .closure c := by
  have hglobals : ∀ b ∈ globals, b.2.kind ≠ .function := by decide
  intro b hb c hc
  exact hglobals b hb (by rw [hc]; rfl)

theorem Store.initial_closed : Store.initial.Closed :=
  Store.Closed.ofRoot fun b hb c hc => absurd hc (globals_ne_closure b hb c)

end MiniLisp
