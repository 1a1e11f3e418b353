import MiniLisp.Proofs.Store
import MiniLisp.Proofs.Run
import MiniLisp.Session

/-! # Scopes form a chained map

A scope and the scopes above it, up to a root, form a chain. The store keeps every scope at the
index it was made at, and a scope is made under one that exists, so along a chain each parent has
a smaller index than its child. Seen through its chains, the store is a chained map:

* `Store.get? s j x`: the value scope `j` binds to `x` itself; `Store.firstBinder s ids x`: the
  first scope of `ids` that binds `x`.
* `Store.Chain s i ancestors`: the scopes above `i`, in order, up to a root.
* `Store.resolve_of_chain`, `Store.lookup_of_chain`: a name is found in the first scope of the
  chain that binds it.
* `Store.get?_define`, `Store.chain_define`: `define` writes one binding of one scope and keeps
  every chain; `Store.lookup_define_of_firstBinder`: rebinding a name where it is first bound
  is seen from every scope whose chain meets that scope first.
* `scopes_form_chained_map`: `lookup`, `define` and `assign` are the operations of a chained map.
-/

namespace MiniLisp

namespace Store

/-- The value scope `j` binds to `x` itself. -/
def get? (s : Store) (j : ScopeId) (x : String) : Option Value :=
  s.scopes[j]?.bind (·.get? x)

/-- The first scope of `ids` that binds `x` itself. -/
def firstBinder (s : Store) (ids : List ScopeId) (x : String) : Option ScopeId :=
  ids.find? fun j => (s.get? j x).isSome

/-- `Chain s i ancestors`: the scopes above `i`, from its parent up to a root, are `ancestors`.
A parent was made before its child, so it has the smaller index. -/
inductive Chain (s : Store) : ScopeId → List ScopeId → Prop
  | root {i : ScopeId} {sc : Scope} :
      s.scopes[i]? = some sc → sc.parent = none → Chain s i []
  | cons {i p : ScopeId} {sc : Scope} {ancestors : List ScopeId} :
      s.scopes[i]? = some sc → sc.parent = some p → p < i → Chain s p ancestors →
      Chain s i (p :: ancestors)

variable {s : Store}

theorem get?_of_getElem? {j : ScopeId} {sc : Scope} (hsc : s.scopes[j]? = some sc) (x : String) :
    s.get? j x = sc.get? x := by
  simp [get?, hsc]

theorem lt_size_of_get? {j : ScopeId} {x : String} (h : (s.get? j x).isSome) :
    j < s.scopes.size := by
  cases hsc : s.scopes[j]? with
  | none => simp [get?, hsc] at h
  | some sc => exact (Array.getElem?_eq_some_iff.1 hsc).1

theorem get?_of_firstBinder {ids : List ScopeId} {x : String} {h : ScopeId}
    (hf : s.firstBinder ids x = some h) : (s.get? h x).isSome := by
  rw [firstBinder] at hf
  exact List.find?_some (p := fun j => (s.get? j x).isSome) hf

theorem Chain.lt_size {i : ScopeId} {l : List ScopeId} (hc : s.Chain i l) : i < s.scopes.size := by
  cases hc with
  | root hsc _ => exact (Array.getElem?_eq_some_iff.1 hsc).1
  | cons hsc _ _ _ => exact (Array.getElem?_eq_some_iff.1 hsc).1

/-! ## Reading along a chain -/

/-- `resolve` walks the chain: it finds the first scope of the chain that binds the name. -/
theorem resolve_of_chain {i : ScopeId} {ancestors : List ScopeId} (hc : s.Chain i ancestors)
    (x : String) : s.resolve i x = s.firstBinder (i :: ancestors) x := by
  induction hc with
  | @root i sc hsc hp =>
    rw [resolve, hsc]
    simp only [hp, firstBinder, List.find?_cons, get?_of_getElem? hsc, ← Scope.binds_eq_isSome]
    cases sc.binds x <;> simp
  | @cons i p sc _ hsc hp hlt _ ih =>
    -- the parent is older, so the walk goes on from it, which is the rest of the chain
    rw [resolve, hsc]
    simp only [hp, if_pos hlt, ih, firstBinder, List.find?_cons, get?_of_getElem? hsc,
      ← Scope.binds_eq_isSome]
    cases sc.binds x <;> simp

/-- A name's value seen from a scope is the value the first scope of its chain that binds the
name binds it to. -/
theorem lookup_of_chain {i : ScopeId} {ancestors : List ScopeId} (hc : s.Chain i ancestors)
    (x : String) : s.lookup i x = (s.firstBinder (i :: ancestors) x).bind (s.get? · x) := by
  rw [← resolve_of_chain hc x]
  rfl

/-! ## Writing one binding -/

theorem get?_define {k : ScopeId} (hk : k < s.scopes.size) (x : String) (v : Value)
    (j : ScopeId) (y : String) :
    (s.define k x v).get? j y = if j = k ∧ y = x then some v else s.get? j y := by
  simp only [get?, getElem?_define]
  by_cases hj : k = j
  · subst hj
    simp [Array.getElem?_eq_getElem hk, Scope.get?_put]
  · simp [hj, Ne.symm hj]

theorem Chain.of_parents {s' : Store}
    (h : ∀ (j : ScopeId) (sc : Scope), s.scopes[j]? = some sc →
      ∃ sc' : Scope, s'.scopes[j]? = some sc' ∧ sc'.parent = sc.parent)
    {i : ScopeId} {l : List ScopeId} (hc : s.Chain i l) : s'.Chain i l := by
  induction hc with
  | root hsc hp =>
    obtain ⟨sc', hsc', hpar⟩ := h _ _ hsc
    exact .root hsc' (hpar ▸ hp)
  | cons hsc hp hlt _ ih =>
    obtain ⟨sc', hsc', hpar⟩ := h _ _ hsc
    exact .cons hsc' (hpar ▸ hp) hlt ih

theorem chain_define {k : ScopeId} {x : String} {v : Value} {i : ScopeId} {l : List ScopeId} :
    (s.define k x v).Chain i l ↔ s.Chain i l := by
  constructor <;> refine Chain.of_parents fun j sc hsc => ?_
  · rw [getElem?_define] at hsc
    split at hsc
    · obtain ⟨sc₀, hsc₀, rfl⟩ := Option.map_eq_some_iff.1 hsc
      exact ⟨sc₀, hsc₀, (Scope.parent_put _ _ _).symm⟩
    · exact ⟨sc, hsc, rfl⟩
  · rw [getElem?_define]
    split
    · exact ⟨sc.put x v, by rw [hsc]; rfl, Scope.parent_put _ _ _⟩
    · exact ⟨sc, hsc, rfl⟩

/-- Rebinding a name in a scope that binds it changes no scope's first binder of the name. -/
theorem firstBinder_define_of_binds {h : ScopeId} {x : String} (hb : (s.get? h x).isSome)
    (v : Value) (ids : List ScopeId) :
    (s.define h x v).firstBinder ids x = s.firstBinder ids x := by
  have hh := lt_size_of_get? hb
  have hsame : (fun j => ((s.define h x v).get? j x).isSome) = fun j => (s.get? j x).isSome := by
    funext j
    rw [get?_define hh]
    by_cases hj : j = h
    · subst hj
      simp [hb]
    · simp [hj]
  simp only [firstBinder, hsame]

/-- After rebinding a name where a chain first binds it, the chain reads the new value. -/
theorem lookup_define_of_firstBinder {j h : ScopeId} {l : List ScopeId} {x : String}
    (hc : s.Chain j l) (hfirst : s.firstBinder (j :: l) x = some h) (v : Value) :
    (s.define h x v).lookup j x = some v := by
  have hb := get?_of_firstBinder hfirst
  rw [lookup_of_chain (chain_define.2 hc), firstBinder_define_of_binds hb, hfirst,
    Option.bind_some, get?_define (lt_size_of_get? hb)]
  simp

end Store

/-! ## Looking up and assigning in a run -/

namespace EvalM

variable {m : Machine} {i : ScopeId} {ancestors : List ScopeId}

theorem run_lookup_of_chain (hc : m.store.Chain i ancestors) (x : String) :
    (lookup i x).run.run m =
      (((m.store.firstBinder (i :: ancestors) x).bind (m.store.get? · x)).elim
        (.error (.error (.undefinedVariable x))) .ok, m) := by
  rw [run_lookup, Store.lookup_of_chain hc]
  cases (m.store.firstBinder (i :: ancestors) x).bind (m.store.get? · x) <;> rfl

theorem run_assign_of_firstBinder_none (hc : m.store.Chain i ancestors) {x : String}
    (hnone : m.store.firstBinder (i :: ancestors) x = none) (v : Value) :
    (assign i x v).run.run m = (.error (.error (.undefinedVariable x)), m) := by
  rw [run_assign, Store.resolve_of_chain hc, hnone]

theorem run_assign_of_firstBinder_some (hc : m.store.Chain i ancestors) {x : String} {h : ScopeId}
    (hsome : m.store.firstBinder (i :: ancestors) x = some h) (v : Value) :
    (assign i x v).run.run m = (.ok (), { m with store := m.store.define h x v }) := by
  rw [run_assign, Store.resolve_of_chain hc, hsome]

theorem assign_ok_iff_lookup_ok (hc : m.store.Chain i ancestors) (x : String) (v : Value) :
    (∃ m', (assign i x v).run.run m = (.ok (), m')) ↔ ∃ w, (lookup i x).run.run m = (.ok w, m) := by
  rw [run_lookup_of_chain hc]
  cases hf : m.store.firstBinder (i :: ancestors) x with
  | none =>
    rw [run_assign_of_firstBinder_none hc hf]
    constructor <;> rintro ⟨_, h⟩ <;> cases h
  | some h =>
    -- the first binder binds the name, so both succeed
    obtain ⟨w, hw⟩ := Option.isSome_iff_exists.1 (Store.get?_of_firstBinder hf)
    rw [run_assign_of_firstBinder_some hc hf]
    exact ⟨fun _ => ⟨w, by simp [hw]⟩, fun _ => ⟨_, rfl⟩⟩

end EvalM

/-- **Scopes form a chained map**: reads go to the first scope of the chain that binds the name,
and writes change that one binding. -/
theorem scopes_form_chained_map {m : Machine} {i : ScopeId} {ancestors : List ScopeId}
    (hc : m.store.Chain i ancestors) (x : String) (v : Value) :
    let s := m.store
    let first := s.firstBinder (i :: ancestors) x
    (EvalM.lookup i x).run.run m =
      ((first.bind (s.get? · x)).elim (.error (.error (.undefinedVariable x))) .ok, m) ∧
    (∀ j y, (s.define i x v).get? j y = if j = i ∧ y = x then some v else s.get? j y) ∧
    (∀ j l, (s.define i x v).Chain j l ↔ s.Chain j l) ∧
    ((∃ m', (EvalM.assign i x v).run.run m = (.ok (), m')) ↔
      ∃ w, (EvalM.lookup i x).run.run m = (.ok w, m)) ∧
    (first = none → (EvalM.assign i x v).run.run m = (.error (.error (.undefinedVariable x)), m)) ∧
    ∀ h, first = some h →
      (EvalM.assign i x v).run.run m = (.ok (), { m with store := s.define h x v }) ∧
      (∀ j y, (s.define h x v).get? j y = if j = h ∧ y = x then some v else s.get? j y) ∧
      (∀ j l, (s.define h x v).Chain j l ↔ s.Chain j l) ∧
      ∀ j l, s.Chain j l → s.firstBinder (j :: l) x = some h → (s.define h x v).lookup j x = some v := by
  intro s first
  refine ⟨EvalM.run_lookup_of_chain hc x, Store.get?_define hc.lt_size x v,
    fun _ _ => Store.chain_define, EvalM.assign_ok_iff_lookup_ok hc x v,
    fun hnone => EvalM.run_assign_of_firstBinder_none hc hnone v, fun h hsome => ?_⟩
  have hh := Store.lt_size_of_get? (Store.get?_of_firstBinder hsome)
  exact ⟨EvalM.run_assign_of_firstBinder_some hc hsome v, Store.get?_define hh x v,
    fun _ _ => Store.chain_define, fun _ _ hc' hfirst => Store.lookup_define_of_firstBinder hc' hfirst v⟩

/-- In a block of a new session, `true` is first bound in the global scope: assigning it from the
block rebinds it there, and the block then reads the new value. -/
theorem scopes_form_chained_map_block :
    let m : Machine := { store := Store.initial.child globalScope, out := "" }
    m.store.Chain 1 [globalScope] ∧
    (EvalM.assign 1 "true" (.bool false)).run.run m =
      (.ok (), { m with store := m.store.define globalScope "true" (.bool false) }) ∧
    (m.store.define globalScope "true" (.bool false)).lookup 1 "true" = some (.bool false) := by
  intro m
  have hc : m.store.Chain 1 [globalScope] := .cons rfl rfl (by decide) (.root rfl rfl)
  have hfirst : m.store.firstBinder [1, globalScope] "true" = some globalScope := by decide
  have hassign := (scopes_form_chained_map hc "true" (.bool false)).2.2.2.2.2 globalScope hfirst
  exact ⟨hc, hassign.1, hassign.2.2.2 1 [globalScope] hc hfirst⟩

end MiniLisp
