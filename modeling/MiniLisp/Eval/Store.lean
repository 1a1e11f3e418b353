import MiniLisp.Eval.Value

/-! # Scopes and the store

Variables live in scopes; a scope names its parent, and a name is looked up along the chain
from a scope to the root. The store holds every scope ever made, each at the index it was
made at, so a parent always has a smaller index than its child and every chain ends. Closures
refer to the scope they were made in by its index, which keeps the cycle between a scope and
the closures bound in it out of the data.

* `Store.resolve`: the nearest scope of a chain that binds a name.
* `Store.lookup`, `Store.define`, `Store.assign`: the chained map.
* `Store.describe`: the names of each scope of a chain, sorted, scope by scope.
-/

namespace MiniLisp

/-- The bindings of one scope and the scope it hangs off. -/
structure Scope where
  vars : List (String × Value)
  parent : Option ScopeId
  deriving Repr, Inhabited

namespace Scope

/-- The value a scope binds to a name itself. -/
def get? (sc : Scope) (name : String) : Option Value :=
  (sc.vars.find? (·.1 == name)).map (·.2)

/-- The scope binds the name itself. -/
def binds (sc : Scope) (name : String) : Bool :=
  sc.vars.any (·.1 == name)

/-- Binds a name in this scope, replacing its binding here if it has one. -/
def put (sc : Scope) (name : String) (v : Value) : Scope :=
  if sc.binds name then
    { sc with vars := sc.vars.map fun b => if b.1 == name then (name, v) else b }
  else
    { sc with vars := sc.vars ++ [(name, v)] }

/-- The names the scope binds, in byte order. -/
def names (sc : Scope) : List String :=
  (sc.vars.map (·.1)).mergeSort fun a b => decide (a ≤ b)

end Scope

/-- Every scope made so far, and how many closures have been made. -/
structure Store where
  scopes : Array Scope
  stamps : Nat
  deriving Repr, Inhabited

namespace Store

/-- A store with one root scope holding the given bindings. -/
def ofRoot (vars : List (String × Value)) : Store :=
  { scopes := #[{ vars, parent := none }], stamps := 0 }

/-- The index the next new scope gets. -/
def nextId (s : Store) : ScopeId := s.scopes.size

/-- Adds a new empty scope under `parent`, at index `s.nextId`. -/
def child (s : Store) (parent : ScopeId) : Store :=
  { s with scopes := s.scopes.push { vars := [], parent := some parent } }

/-- Counts the next closure stamp, `s.stamps`, as used. -/
def stamp (s : Store) : Store := { s with stamps := s.stamps + 1 }

/-- The nearest scope from `id` up the chain that binds `name`. A parent link that does not
point to an older scope ends the chain. -/
def resolve (s : Store) (id : ScopeId) (name : String) : Option ScopeId :=
  match s.scopes[id]? with
  | none => none
  | some sc =>
    if sc.binds name then some id
    else
      match sc.parent with
      | some p => if p < id then s.resolve p name else none
      | none => none
termination_by id

/-- The value of a name as seen from a scope. -/
def lookup (s : Store) (id : ScopeId) (name : String) : Option Value := do
  let home ← s.resolve id name
  let sc ← s.scopes[home]?
  sc.get? name

/-- Binds a name in the scope `id` itself. -/
def define (s : Store) (id : ScopeId) (name : String) (v : Value) : Store :=
  { s with scopes := s.scopes.modify id (·.put name v) }

/-- Rebinds a name in the nearest scope that binds it; `none` if no scope of the chain does. -/
def assign (s : Store) (id : ScopeId) (name : String) (v : Value) : Option Store :=
  (s.resolve id name).map fun home => s.define home name v

/-- The names of each scope from `id` to the root: `Environment { a, b } -> Environment { … }`. -/
def describe (s : Store) (id : ScopeId) : String :=
  match s.scopes[id]? with
  | none => ""
  | some sc =>
    let here := "Environment \x7b " ++ ", ".intercalate sc.names ++ " \x7d"
    match sc.parent with
    | some p => if p < id then here ++ " -> " ++ s.describe p else here
    | none => here
termination_by id

end Store

end MiniLisp
