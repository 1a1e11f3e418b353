import MiniLisp.Eval.Store

/-! # Which names the scopes of a store bind

`Store.Binds s i n`: scope `i` of the store binds the name `n` itself. The operations of the
store change this view in three ways only:

* `binds_define`: `define` adds one name to one existing scope;
* `binds_child`: `child` adds a scope that binds nothing;
* `binds_define_of_binds`: `define` of a name the scope already binds, as `assign` does at the
  scope `resolve` finds (`binds_of_resolve`), changes no scope's names.

It also gives the values: `Scope.get?_put`, a write of one name in a scope, and
`Store.getElem?_define`, `Store.getElem?_child`, the scopes of a store after each update.
-/

namespace MiniLisp

namespace Scope

theorem binds_put (sc : Scope) (name n : String) (v : Value) :
    (sc.put name v).binds n = (sc.binds n || n == name) := by
  unfold put
  split
  · rename_i h
    -- replacing the binding keeps the list of names
    have hfst : ∀ b : String × Value,
        (if (b.1 == name) = true then (name, v) else b).1 = b.1 := by
      intro b
      split <;> simp_all
    simp only [binds, List.any_map, Function.comp_def, hfst]
    by_cases hn : n = name
    · subst hn
      simp only [binds] at h
      simp [h]
    · simp [hn]
  · simp only [binds, List.any_append, List.any_cons, List.any_nil, Bool.or_false]
    rw [Bool.beq_comm]

theorem binds_eq_isSome (sc : Scope) (x : String) : sc.binds x = (sc.get? x).isSome := by
  rw [binds, get?, Option.isSome_map, Bool.eq_iff_iff, List.any_eq_true, List.find?_isSome]

theorem get?_eq_none {sc : Scope} {x : String} (h : sc.binds x = false) : sc.get? x = none := by
  rw [binds_eq_isSome, Option.isSome_eq_false_iff, Option.isNone_iff_eq_none] at h
  exact h

@[simp] theorem parent_put (sc : Scope) (x : String) (v : Value) :
    (sc.put x v).parent = sc.parent := by
  unfold put
  split <;> rfl

/-- Replacing the bindings of `x` in a list of bindings: a read of `x` finds the new value if
there was a binding, and a read of another name is unchanged. -/
theorem find?_replace (l : List (String × Value)) (x y : String) (v : Value) :
    ((l.map fun b => if b.1 == x then (x, v) else b).find? (·.1 == y)).map (·.2) =
      if y = x then (if l.any (·.1 == x) then some v else none)
      else (l.find? (·.1 == y)).map (·.2) := by
  induction l with
  | nil => simp
  | cons b l ih =>
    obtain ⟨bx, bv⟩ := b
    by_cases hb : bx = x
    · subst hb
      rw [List.map_cons, if_pos (by simp)]
      by_cases hy : y = bx
      · subst hy
        rw [List.find?_cons_of_pos (by simp)]
        simp
      · rw [List.find?_cons_of_neg (by simpa using Ne.symm hy),
          List.find?_cons_of_neg (by simpa using Ne.symm hy), ih, if_neg hy, if_neg hy]
    · rw [List.map_cons, if_neg (by simpa using hb), List.any_cons]
      by_cases hy : y = bx
      · subst hy
        rw [List.find?_cons_of_pos (by simp), List.find?_cons_of_pos (by simp), if_neg hb]
      · rw [List.find?_cons_of_neg (by simpa using Ne.symm hy),
          List.find?_cons_of_neg (by simpa using Ne.symm hy), ih]
        have hb' : (bx == x) = false := by simpa using hb
        rw [hb', Bool.false_or]

/-- `put` is a write of one name: a read of that name gives the new value, any other read is
unchanged. -/
theorem get?_put (sc : Scope) (x y : String) (v : Value) :
    (sc.put x v).get? y = if y = x then some v else sc.get? y := by
  unfold put get?
  split
  · rename_i hx
    rw [find?_replace]
    simp only [binds] at hx
    simp [hx]
  · rename_i hx
    simp only [binds, Bool.not_eq_true, List.any_eq_false, beq_iff_eq] at hx
    by_cases hy : y = x
    · subst hy
      have hnone : sc.vars.find? (fun b => b.1 == y) = none := by
        simpa [List.find?_eq_none] using hx
      simp [List.find?_append, hnone]
    · cases h : sc.vars.find? (fun b => b.1 == y) <;> simp [List.find?_append, h, hy, Ne.symm hy]

end Scope

namespace Store

/-- Scope `i` binds `name` itself. -/
def Binds (s : Store) (i : ScopeId) (name : String) : Prop :=
  ∃ sc, s.scopes[i]? = some sc ∧ sc.binds name = true

theorem binds_lt {s : Store} {i : ScopeId} {n : String} (h : s.Binds i n) : i < s.scopes.size := by
  obtain ⟨sc, hsc, -⟩ := h
  exact (Array.getElem?_eq_some_iff.1 hsc).1

@[simp] theorem size_define (s : Store) (id : ScopeId) (name : String) (v : Value) :
    (s.define id name v).scopes.size = s.scopes.size := by
  simp [define]

@[simp] theorem size_child (s : Store) (p : ScopeId) :
    (s.child p).scopes.size = s.scopes.size + 1 := by
  simp [child]

@[simp] theorem scopes_stamp (s : Store) : s.stamp.scopes = s.scopes := rfl

theorem binds_define {s : Store} {id i : ScopeId} {name n : String} {v : Value} :
    (s.define id name v).Binds i n ↔ s.Binds i n ∨ (i = id ∧ i < s.scopes.size ∧ n = name) := by
  simp only [Binds, define, Array.getElem?_modify]
  by_cases hi : id = i
  · subst hi
    rw [if_pos rfl]
    cases hsc : s.scopes[id]? with
    | none =>
      have : ¬ id < s.scopes.size := fun hlt => by simp [Array.getElem?_eq_getElem hlt] at hsc
      simp [this]
    | some sc =>
      have hlt : id < s.scopes.size := (Array.getElem?_eq_some_iff.1 hsc).1
      simp [Scope.binds_put, hlt]
  · rw [if_neg hi]
    constructor
    · exact Or.inl
    · rintro (h | ⟨rfl, -⟩)
      · exact h
      · exact absurd rfl hi

theorem binds_child {s : Store} {p i : ScopeId} {n : String} :
    (s.child p).Binds i n ↔ s.Binds i n := by
  simp only [Binds, child, Array.getElem?_push]
  split
  · rename_i hi
    subst hi
    simp [Scope.binds]
  · rfl

theorem binds_define_of_binds {s : Store} {id i : ScopeId} {name n : String} {v : Value}
    (h : s.Binds id name) : (s.define id name v).Binds i n ↔ s.Binds i n := by
  rw [binds_define]
  constructor
  · rintro (h' | ⟨rfl, -, rfl⟩)
    · exact h'
    · exact h
  · exact Or.inl

theorem binds_of_resolve {s : Store} {id home : ScopeId} {name : String}
    (h : s.resolve id name = some home) : s.Binds home name := by
  induction id using Nat.strongRecOn with
  | _ id ih =>
    rw [resolve] at h
    split at h
    · cases h
    · rename_i sc hsc
      split at h
      · rename_i hb
        cases h
        exact ⟨sc, hsc, hb⟩
      · split at h
        · split at h
          · exact ih _ ‹_› h
          · cases h
        · cases h

@[simp] theorem getElem?_define (s : Store) (i j : Nat) (x : String) (v : Value) :
    (s.define i x v).scopes[j]? =
      if i = j then s.scopes[j]?.map (·.put x v) else s.scopes[j]? := by
  simp [define, Array.getElem?_modify]

@[simp] theorem getElem?_child (s : Store) (p j : Nat) :
    (s.child p).scopes[j]? =
      if j = s.scopes.size then some { vars := [], parent := some p } else s.scopes[j]? := by
  simp [child, Array.getElem?_push]

theorem getElem?_eq_none_of_le {s : Store} {i : Nat} (h : s.scopes.size ≤ i) :
    s.scopes[i]? = none := Array.getElem?_eq_none h

theorem eq_of_getElem?_ofRoot {vars : List (String × Value)} {i : Nat} {sc : Scope}
    (h : (ofRoot vars).scopes[i]? = some sc) : sc = { vars, parent := none } := by
  rcases i with _ | i
  · simpa [ofRoot] using h.symm
  · simp [ofRoot] at h

theorem exists_of_get?_ofRoot {vars : List (String × Value)} {i : Nat} {sc : Scope}
    {x : String} {v : Value} (h : (ofRoot vars).scopes[i]? = some sc) (hx : sc.get? x = some v) :
    ∃ b ∈ vars, b.2 = v := by
  rw [eq_of_getElem?_ofRoot h] at hx
  obtain ⟨b, hb, hbv⟩ := Option.map_eq_some_iff.1 hx
  exact ⟨b, List.mem_of_find?_eq_some hb, hbv⟩

theorem lookup_eq_some {s : Store} {i : ScopeId} {x : String} {v : Value}
    (h : s.lookup i x = some v) :
    ∃ (home : Nat) (sc : Scope), s.scopes[home]? = some sc ∧ sc.get? x = some v := by
  unfold lookup at h
  simp only [Option.bind_eq_bind, Option.bind_eq_some_iff] at h
  obtain ⟨home, -, sc, hsc, hget⟩ := h
  exact ⟨home, sc, hsc, hget⟩

theorem binds_iff {s : Store} {i : Nat} {sc : Scope} (hsc : s.scopes[i]? = some sc)
    (x : String) : s.Binds i x ↔ sc.binds x = true := by
  constructor
  · rintro ⟨sc', h', hb⟩
    rw [hsc] at h'
    cases h'
    exact hb
  · exact fun hb => ⟨sc, hsc, hb⟩


end Store

end MiniLisp
