import Mathlib
import MiniLisp.Proofs.Store
import MiniLisp.Proofs.Lockstep
import MiniLisp.Proofs.Closed

/-! # A closure body run as a block: the two stores

A closure call runs the forms of a `begin` body directly in its activation scope `A`. Had it
evaluated the body as a `begin` form, the forms would have run in a block `B = A + 1` opened
under `A`. This module relates the stores of the two runs: the one where the body ran in `A`
(the unrolled run) and the one with the block.

* `shiftId A`: where a scope of the unrolled run sits in the other. Scopes below `A` stay, the
  rest move up by one, and `A` itself goes to the block.
* `Value.shift A`: a value of the unrolled run as the other run has it: a closure's scope
  moves, nothing else.
* `Store.Unrolled A s s'`: the two stores agree up to `shiftId`, except that the unrolled
  activation `A` binds what the block binds laid over what `A` binds in the other store.
* `Store.Unrolled.lookup`, `.resolve`, `.define`, `.child`, `.stamp`: every operation of the
  store keeps the relation, and a name reads alike from related scopes.
-/

namespace MiniLisp

/-! ## Renumbering scopes -/

/-- Where scope `i` of the unrolled run sits in the run with the block opened at `A + 1`. -/
def shiftId (A i : Nat) : Nat := if i < A then i else i + 1

section ShiftId

variable {A i j : Nat}

theorem shiftId_of_lt (h : i < A) : shiftId A i = i := if_pos h

theorem shiftId_of_le (h : A ≤ i) : shiftId A i = i + 1 := if_neg (Nat.not_lt.2 h)

theorem shiftId_self (A : Nat) : shiftId A A = A + 1 := shiftId_of_le (Nat.le_refl A)

theorem shiftId_lt_shiftId : shiftId A i < shiftId A j ↔ i < j := by
  unfold shiftId
  split <;> split <;> omega

theorem shiftId_lt_self : shiftId A i < A ↔ i < A := by
  unfold shiftId
  split <;> omega

theorem shiftId_ne_self (A i : Nat) : shiftId A i ≠ A := by
  unfold shiftId
  split <;> omega

theorem shiftId_eq_succ : shiftId A i = A + 1 ↔ i = A := by
  unfold shiftId
  split <;> omega

theorem shiftId_inj : shiftId A i = shiftId A j ↔ i = j := by
  unfold shiftId
  split <;> split <;> omega

end ShiftId

/-! ## Values and errors of the unrolled run in the other -/

/-- A value of the unrolled run as the run with the block has it. -/
def Value.shift (A : Nat) : Value → Value
  | .closure c => .closure { c with scope := shiftId A c.scope }
  | v => v

/-- An error of the unrolled run as the run with the block has it. -/
def EvalError.shift (A : Nat) : EvalError → EvalError
  | .notCallable v => .notCallable (v.shift A)
  | e => e

/-- How a run of the unrolled evaluation stops, as the run with the block stops. -/
def Halt.shift (A : Nat) : Halt → Halt
  | .error e => .error (e.shift A)
  | .exhausted => .exhausted
  | .fault f => .fault f

namespace Value

variable {A : Nat}

@[simp] theorem render_shift (v : Value) : (v.shift A).render = v.render := by
  cases v <;> rfl

@[simp] theorem truthy_shift (v : Value) : (v.shift A).truthy = v.truthy := by
  cases v <;> rfl

@[simp] theorem kind_shift (v : Value) : (v.shift A).kind = v.kind := by
  cases v <;> rfl

@[simp] theorem same_shift (v w : Value) : (v.shift A).same (w.shift A) = v.same w := by
  cases v <;> cases w <;> rfl

@[simp] theorem debug_shift (v : Value) : (v.shift A).debug = v.debug := by
  cases v <;> rfl

/-- A value that names no scope from the activation on is the same in both runs. -/
theorem shift_of_lt {v : Value} (h : v.Below A) : v.shift A = v := by
  cases v with
  | closure c => simp [shift, shiftId_of_lt (h c rfl)]
  | _ => rfl

end Value

@[simp] theorem EvalError.kindName_shift (A : Nat) (e : EvalError) :
    (e.shift A).kindName = e.kindName := by
  cases e <;> rfl

@[simp] theorem EvalError.message_shift (A : Nat) (e : EvalError) :
    (e.shift A).message = e.message := by
  cases e with
  | notCallable v =>
    show (v.shift A).render ++ " is not callable" = v.render ++ " is not callable"
    rw [Value.render_shift]
  | _ => rfl

/-- Operators look at numbers, strings and the language's equality only, so they give the same
answer on the values of both runs; that answer is never a closure. -/
theorem Operator.apply_shift (A : Nat) (o : Operator) (args : List Value) :
    o.apply (args.map (Value.shift A)) = o.apply args := by
  have hnum : ∀ (o' : Operator) (v : Value), o'.number (v.shift A) = o'.number v := by
    intro o' v
    cases v <;> rfl
  -- by the number of operands, as `apply` dispatches on it
  rcases args with _ | ⟨a, _ | ⟨b, _ | ⟨c, rest⟩⟩⟩
  · rfl
  · cases o <;> simp [Operator.apply, hnum]
  · simp only [List.map_cons, List.map_nil, Operator.apply]
    -- only `+` looks at what its operands are beyond their numbers, and `==` compares them
    cases o
    case eq => simp [Operator.applyBinary]
    case add =>
      cases a <;> cases b <;> simp [Operator.applyBinary, Value.shift, Operator.number, Value.kind]
    all_goals simp [Operator.applyBinary, hnum]
  · cases o <;> simp [Operator.apply]

theorem Operator.shift_of_apply {A : Nat} {o : Operator} {args : List Value} {v : Value}
    (h : o.apply args = .ok v) : v.shift A = v :=
  Value.shift_of_lt (Operator.below_of_apply h A)

theorem Halt.shift_of_apply {A : Nat} {o : Operator} {args : List Value}
    {h : Halt} (hh : o.apply args = .error h) : h.shift A = h := by
  rcases Operator.apply_error_cases hh with ⟨o', k, rfl⟩ | ⟨n, m, rfl⟩ <;> rfl


/-- Two scopes that bind the same names, to the values of the two runs, and hang off scopes
that correspond. -/
structure ScopeShift (A : Nat) (sc sc' : Scope) : Prop where
  parent : sc'.parent = sc.parent.map (shiftId A)
  get : ∀ x, (sc.get? x).map (Value.shift A) = sc'.get? x

/-- The unrolled activation `sc` is the block `scB` laid over the activation `scA` of the other
run: a name reads from the block if the block binds it, else from the activation. -/
structure Overlay (A : Nat) (sc scA scB : Scope) : Prop where
  parentA : scA.parent = sc.parent.map (shiftId A)
  parentB : scB.parent = some A
  get : ∀ x, (sc.get? x).map (Value.shift A) = (scB.get? x).or (scA.get? x)

theorem ScopeShift.put {A : Nat} {sc sc' : Scope} (h : ScopeShift A sc sc') (x : String)
    (v : Value) : ScopeShift A (sc.put x v) (sc'.put x (v.shift A)) := by
  refine ⟨by simpa using h.parent, fun y => ?_⟩
  rw [Scope.get?_put, Scope.get?_put]
  split
  · rfl
  · exact h.get y

/-! ## The two stores -/

/-- The store of the unrolled run and the store of the run with the block at `A + 1`: alike up
to `shiftId A`, but for the unrolled activation, which is the block laid over the other run's
activation. -/
structure Store.Unrolled (A : Nat) (s s' : Store) : Prop where
  stamps : s'.stamps = s.stamps
  size : s'.scopes.size = s.scopes.size + 1
  active : A < s.scopes.size
  scope : ∀ i sc, i ≠ A → s.scopes[i]? = some sc →
    ∃ sc', s'.scopes[shiftId A i]? = some sc' ∧ ScopeShift A sc sc'
  block : ∃ sc scA scB, s.scopes[A]? = some sc ∧ s'.scopes[A]? = some scA ∧
    s'.scopes[A + 1]? = some scB ∧ Overlay A sc scA scB

namespace Overlay

variable {A : Nat} {sc scA scB : Scope}

theorem put_block (h : Overlay A sc scA scB) (x : String) (v : Value) :
    Overlay A (sc.put x v) scA (scB.put x (v.shift A)) := by
  refine ⟨by simpa using h.parentA, by simpa using h.parentB, fun y => ?_⟩
  rw [Scope.get?_put, Scope.get?_put]
  split
  · rfl
  · exact h.get y

/-- A write to a name of the unrolled activation that the block does not bind is a write to the
other run's activation. -/
theorem put_activation (h : Overlay A sc scA scB) {x : String} (hx : scB.binds x = false)
    (v : Value) : Overlay A (sc.put x v) (scA.put x (v.shift A)) scB := by
  refine ⟨by simpa using h.parentA, h.parentB, fun y => ?_⟩
  rw [Scope.get?_put, Scope.get?_put]
  split
  · rename_i hy
    subst hy
    simp [Scope.get?_eq_none hx]
  · exact h.get y

end Overlay


/-- Where a name's home scope in the unrolled run sits in the other run: at the shifted scope,
or, for a name of the unrolled activation that the block does not bind, at the other run's
activation. -/
def HomeShift (A : Nat) (s' : Store) (x : String) (h h' : Nat) : Prop :=
  h' = shiftId A h ∨ (h = A ∧ h' = A ∧ ¬ s'.Binds (A + 1) x)

namespace Store.Unrolled

variable {A : Nat} {s s' : Store}

theorem nextId (h : Unrolled A s s') : s'.nextId = shiftId A s.nextId := by
  rw [Store.nextId, Store.nextId, h.size, shiftId_of_le (Nat.le_of_lt h.active)]

/-- The step of `resolve` to a parent: a parent checked against bounds that agree on it leads to
related homes. -/
theorem resolve_parent (x : String) {i j : Nat} {R : Nat → Nat → Prop}
    (ih : ∀ p < i, Option.Rel R (s.resolve p x) (s'.resolve (shiftId A p) x))
    (hj : ∀ p, shiftId A p < j ↔ p < i) (p : Nat) :
    Option.Rel R (if p < i then s.resolve p x else none)
      (if shiftId A p < j then s'.resolve (shiftId A p) x else none) := by
  by_cases hp : p < i
  · rw [if_pos hp, if_pos ((hj p).2 hp)]
    exact ih p hp
  · rw [if_neg hp, if_neg (fun h' => hp ((hj p).1 h'))]
    exact .none

theorem resolve (h : Unrolled A s s') (x : String) (i : Nat) :
    Option.Rel (HomeShift A s' x) (s.resolve i x) (s'.resolve (shiftId A i) x) := by
  induction i using Nat.strongRecOn with
  | _ i ih =>
  by_cases hi : i = A
  · -- the unrolled activation: the block first, then the other run's activation
    subst hi
    obtain ⟨sc, scA, scB, hsc, hscA, hscB, hov⟩ := h.block
    have hget := hov.get x
    rw [Store.resolve, Store.resolve, shiftId_self, hsc, hscB]
    simp only
    by_cases hB : scB.binds x = true
    · have hU : sc.binds x = true := by
        rw [Scope.binds_eq_isSome, ← Option.isSome_map, hget]
        rw [Scope.binds_eq_isSome] at hB
        simp [Option.isSome_or, hB]
      rw [if_pos hU, if_pos hB]
      exact .some (.inl (shiftId_self i).symm)
    · rw [if_neg hB, hov.parentB]
      dsimp only
      rw [if_pos (Nat.lt_succ_self i), Store.resolve, hscA]
      dsimp only
      have hUA : sc.binds x = scA.binds x := by
        rw [Scope.binds_eq_isSome, Scope.binds_eq_isSome, ← Option.isSome_map, hget,
          Scope.get?_eq_none (Bool.eq_false_iff.2 hB)]
        rfl
      by_cases hA : scA.binds x = true
      · rw [if_pos (hUA.trans hA), if_pos hA]
        exact .some (.inr ⟨rfl, rfl, (Store.binds_iff hscB x).not.2 hB⟩)
      · rw [if_neg (hUA ▸ hA), if_neg hA, hov.parentA]
        cases sc.parent with
        | none => exact .none
        | some p => exact resolve_parent x ih (fun p => shiftId_lt_self) p
  · cases hsc : s.scopes[i]? with
    | none =>
      -- past the end of the store in both runs
      have hle : s.scopes.size ≤ i := Array.getElem?_eq_none_iff.1 hsc
      have hle' : s'.scopes.size ≤ shiftId A i := by
        rw [h.size, shiftId_of_le (Nat.le_trans (Nat.le_of_lt h.active) hle)]
        omega
      rw [Store.resolve, Store.resolve, hsc, Store.getElem?_eq_none_of_le hle']
      exact .none
    | some sc =>
      obtain ⟨sc', hsc', hshift⟩ := h.scope i sc hi hsc
      have hbinds : sc'.binds x = sc.binds x := by
        rw [Scope.binds_eq_isSome, Scope.binds_eq_isSome, ← hshift.get x, Option.isSome_map]
      rw [Store.resolve, Store.resolve, hsc, hsc']
      simp only
      rw [hbinds]
      split
      · exact .some (.inl rfl)
      · rw [hshift.parent]
        cases sc.parent with
        | none => exact .none
        | some p => exact resolve_parent x ih (fun p => shiftId_lt_shiftId) p

theorem lookup (h : Unrolled A s s') (i : Nat) (x : String) :
    (s.lookup i x).map (Value.shift A) = s'.lookup (shiftId A i) x := by
  have hr := h.resolve x i
  unfold Store.lookup
  generalize hu : s.resolve i x = u at hr
  generalize hn : s'.resolve (shiftId A i) x = n at hr
  cases hr with
  | none => rfl
  | some hh =>
    rename_i k k'
    obtain ⟨sc, scA, scB, hsc, hscA, hscB, hov⟩ := h.block
    simp only [Option.bind_eq_bind, Option.bind_some]
    rcases hh with rfl | ⟨rfl, rfl, hnB⟩
    · by_cases hk : k = A
      · -- the home is the unrolled activation, and the block binds the name
        subst hk
        obtain ⟨scB', hscB', hbB⟩ := Store.binds_of_resolve hn
        rw [shiftId_self, hscB] at hscB'
        cases hscB'
        obtain ⟨w, hw⟩ := Option.isSome_iff_exists.1 (Scope.binds_eq_isSome scB x ▸ hbB)
        rw [hsc, shiftId_self, hscB]
        simp [hov.get x, hw]
      · obtain ⟨sck, hsck, -⟩ := Store.binds_of_resolve hu
        obtain ⟨sck', hsck', hsh⟩ := h.scope k sck hk hsck
        rw [hsck, hsck']
        exact hsh.get x
    · -- the block does not bind the name: it is the other run's activation that binds it
      have hBnone := Scope.get?_eq_none (Bool.eq_false_iff.2 ((Store.binds_iff hscB x).not.1 hnB))
      rw [hsc, hscA]
      simp [hov.get x, hBnone]

/-- Binding a name in related scopes keeps the stores related; in the unrolled activation it
is the block that takes the binding. -/
theorem define (h : Unrolled A s s') (i : Nat) (x : String) (v : Value) :
    Unrolled A (s.define i x v) (s'.define (shiftId A i) x (v.shift A)) := by
  obtain ⟨sc, scA, scB, hsc, hscA, hscB, hov⟩ := h.block
  by_cases hi : i = A
  · subst hi
    refine ⟨h.stamps, by simp [h.size], by simpa using h.active, ?_,
      ⟨sc.put x v, scA, scB.put x (v.shift i), ?_, ?_, ?_, hov.put_block x v⟩⟩
    · intro j scj hj hscj
      rw [Store.getElem?_define, if_neg (Ne.symm hj)] at hscj
      rw [Store.getElem?_define, shiftId_self,
        if_neg (fun h' => hj (shiftId_eq_succ.1 h'.symm)), ]
      exact h.scope j scj hj hscj
    · simp [hsc]
    · rw [shiftId_self, Store.getElem?_define, if_neg (Nat.succ_ne_self i), hscA]
    · simp [shiftId_self, hscB]
  · refine ⟨h.stamps, by simp [h.size], by simpa using h.active, ?_,
      ⟨sc, scA, scB, ?_, ?_, ?_, hov⟩⟩
    · intro j scj hj hscj
      rw [Store.getElem?_define] at hscj ⊢
      by_cases hij : i = j
      · subst hij
        rw [if_pos rfl] at hscj
        rw [if_pos rfl]
        obtain ⟨sc0, hsc0, rfl⟩ := Option.map_eq_some_iff.1 hscj
        obtain ⟨sc0', hsc0', hsh⟩ := h.scope i sc0 hj hsc0
        exact ⟨_, by rw [hsc0']; rfl, hsh.put x v⟩
      · rw [if_neg hij] at hscj
        rw [if_neg (fun h' => hij (shiftId_inj.1 h'))]
        exact h.scope j scj hj hscj
    · rw [Store.getElem?_define, if_neg hi, hsc]
    · rw [Store.getElem?_define, if_neg (shiftId_ne_self A i), hscA]
    · rw [Store.getElem?_define, if_neg (fun h' => hi (shiftId_eq_succ.1 h')), hscB]

/-- Binding a name of the unrolled activation that the block does not bind, in the other run's
activation, keeps the stores related. -/
theorem define_activation (h : Unrolled A s s') {x : String} (hx : ¬ s'.Binds (A + 1) x)
    (v : Value) : Unrolled A (s.define A x v) (s'.define A x (v.shift A)) := by
  obtain ⟨sc, scA, scB, hsc, hscA, hscB, hov⟩ := h.block
  have hBx : scB.binds x = false := Bool.eq_false_iff.2 ((Store.binds_iff hscB x).not.1 hx)
  refine ⟨h.stamps, by simp [h.size], by simpa using h.active, ?_,
    ⟨sc.put x v, scA.put x (v.shift A), scB, ?_, ?_, ?_, hov.put_activation hBx v⟩⟩
  · intro j scj hj hscj
    rw [Store.getElem?_define, if_neg (Ne.symm hj)] at hscj
    rw [Store.getElem?_define, if_neg (Ne.symm (shiftId_ne_self A j))]
    exact h.scope j scj hj hscj
  · simp [hsc]
  · simp [hscA]
  · rw [Store.getElem?_define, if_neg (Nat.succ_ne_self A).symm, hscB]

theorem define_home (h : Unrolled A s s') {x : String} {k k' : Nat}
    (hk : HomeShift A s' x k k') (v : Value) :
    Unrolled A (s.define k x v) (s'.define k' x (v.shift A)) := by
  rcases hk with rfl | ⟨rfl, rfl, hx⟩
  · exact h.define k x v
  · exact h.define_activation hx v

theorem child (h : Unrolled A s s') (p : Nat) :
    Unrolled A (s.child p) (s'.child (shiftId A p)) := by
  obtain ⟨sc, scA, scB, hsc, hscA, hscB, hov⟩ := h.block
  have hlt := h.active
  have hsz := h.size
  have hnew : shiftId A s.scopes.size = s'.scopes.size := by
    rw [shiftId_of_le (Nat.le_of_lt hlt), hsz]
  have hA : A ≠ s.scopes.size := Nat.ne_of_lt hlt
  have hA' : A ≠ s'.scopes.size := by omega
  have hB' : A + 1 ≠ s'.scopes.size := by omega
  refine ⟨h.stamps, by simp [hsz], by simp; omega, ?_, ⟨sc, scA, scB, ?_, ?_, ?_, hov⟩⟩
  · intro j scj hj hscj
    rw [Store.getElem?_child] at hscj ⊢
    by_cases hjn : j = s.scopes.size
    · subst hjn
      rw [if_pos rfl] at hscj
      cases hscj
      refine ⟨_, by rw [if_pos hnew], ⟨rfl, fun y => rfl⟩⟩
    · rw [if_neg hjn] at hscj
      rw [if_neg (fun h' => hjn (shiftId_inj.1 (h'.trans hnew.symm)))]
      exact h.scope j scj hj hscj
  · rw [Store.getElem?_child, if_neg hA, hsc]
  · rw [Store.getElem?_child, if_neg hA', hscA]
  · rw [Store.getElem?_child, if_neg hB', hscB]

theorem stamp (h : Unrolled A s s') : Unrolled A s.stamp s'.stamp :=
  ⟨congrArg (· + 1) h.stamps, h.size, h.active, h.scope, h.block⟩

/-- A scope below the unrolled activation binds the same names in both runs, to related
values. -/
theorem get_below (h : Unrolled A s s') {i : Nat} (hi : i < A) (x : String) :
    (s.scopes[i]?.bind (·.get? x)).map (Value.shift A) = s'.scopes[i]?.bind (·.get? x) := by
  have hlt : i < s.scopes.size := Nat.lt_trans hi h.active
  obtain ⟨sc', hsc', hsh⟩ := h.scope i _ (Nat.ne_of_lt hi) (Array.getElem?_eq_getElem hlt)
  rw [shiftId_of_lt hi] at hsc'
  rw [Array.getElem?_eq_getElem hlt, hsc', Option.bind_some, Option.bind_some]
  exact hsh.get x

end Store.Unrolled

/-! ## Where the relation starts -/


/-- The bindings of a scope that refers to no scope from `A` on are the same in both runs. -/
theorem Scope.get?_shift_of_below {A : Nat} {sc : Scope}
    (h : ∀ x v, sc.get? x = some v → v.Below A) (x : String) :
    (sc.get? x).map (Value.shift A) = sc.get? x := by
  cases hx : sc.get? x with
  | none => rfl
  | some v => rw [Option.map_some, Value.shift_of_lt (h x v hx)]

theorem Option.map_shiftId_of_below {A : Nat} {o : Option Nat} (h : ∀ p, o = some p → p < A) :
    o.map (shiftId A) = o := by
  cases o with
  | none => rfl
  | some p => rw [Option.map_some, shiftId_of_lt (h p rfl)]

/-- Opening the block under the newest scope `A` of a store that refers to nothing from `A`
on: the store before and the store after are related. -/
theorem Store.Unrolled.open_block {A : Nat} {s : Store} (hsize : s.scopes.size = A + 1)
    (hrefs : s.RefsBelow A) : Store.Unrolled A s (s.child A) := by
  have hA : A < s.scopes.size := by omega
  have hsc : s.scopes[A]? = some s.scopes[A] := Array.getElem?_eq_getElem hA
  refine ⟨rfl, by simp, hA, ?_,
    ⟨s.scopes[A], s.scopes[A], { vars := [], parent := some A }, hsc, ?_, ?_, ?_⟩⟩
  · intro j sc hj hscj
    have hjA : j < A := by
      have := (Array.getElem?_eq_some_iff.1 hscj).1
      omega
    rw [shiftId_of_lt hjA, Store.getElem?_child, if_neg (by omega)]
    exact ⟨sc, hscj, (Option.map_shiftId_of_below (hrefs.parent j sc · hscj)).symm,
      fun x => Scope.get?_shift_of_below (fun y v => hrefs.value j sc y v hscj) x⟩
  · rw [Store.getElem?_child, if_neg (by omega), hsc]
  · rw [Store.getElem?_child, if_pos hsize.symm]
  · refine ⟨(Option.map_shiftId_of_below (hrefs.parent A _ · hsc)).symm, rfl, fun x => ?_⟩
    rw [Scope.get?_shift_of_below (fun y v => hrefs.value A _ y v hsc) x]
    rfl

end MiniLisp
