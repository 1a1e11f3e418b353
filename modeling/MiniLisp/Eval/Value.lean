import MiniLisp.Syntax.Expr
import MiniLisp.Text.Quoted

/-! # Values

What evaluation produces: `null`, `undefined` (a loop whose body never ran), booleans, numbers,
strings and functions. A function is a builtin (an operator or `print`) or a closure: a
lambda together with the scope it was made in and a stamp that tells it apart from every
other closure.

* `Value.render`: the text `print` writes; `Value.debug`: the diagnostic form.
* `Value.truthy`: only `false`, `null` and `undefined` are false.
* `Value.same`: the equality of the language.
-/

namespace MiniLisp

/-- The arithmetic and comparison operators. -/
inductive Operator where
  | add | sub | mul | div | rem | lt | le | gt | ge | eq
  deriving Repr, DecidableEq, Inhabited

namespace Operator

/-- The symbol that spells the operator. -/
def symbol : Operator → String
  | .add => "+"
  | .sub => "-"
  | .mul => "*"
  | .div => "/"
  | .rem => "%"
  | .lt => "<"
  | .le => "<="
  | .gt => ">"
  | .ge => ">="
  | .eq => "=="

/-- All operators. -/
def all : List Operator := [.add, .sub, .mul, .div, .rem, .lt, .le, .gt, .ge, .eq]

/-- The operator a symbol spells, if any. -/
def ofSymbol? (s : String) : Option Operator := all.find? (·.symbol == s)

end Operator

/-- A function that the language provides. -/
inductive Builtin where
  | op (o : Operator)
  | print
  deriving Repr, DecidableEq, Inhabited

/-- The name a builtin is bound to. -/
def Builtin.name : Builtin → String
  | .op o => o.symbol
  | .print => "print"

/-- Index of a scope in the store. -/
abbrev ScopeId := Nat

/-- A function written in the language, with the scope it was made in. -/
structure Closure where
  /-- Tells this closure apart from every other one made in the same store. -/
  stamp : Nat
  name : Option String
  params : List String
  body : Expr
  scope : ScopeId
  deriving Repr, Inhabited

/-- A value of the language. -/
inductive Value where
  | null
  | undefined
  | bool (b : Bool)
  | num (x : Float)
  | str (s : String)
  | builtin (b : Builtin)
  | closure (c : Closure)
  deriving Repr, Inhabited

namespace Value

/-- The kinds of values, as diagnostics name them. -/
inductive Kind where
  | null | undefined | boolean | number | string | builtin | function
  deriving Repr, DecidableEq, Inhabited

/-- The name of a kind. -/
def Kind.name : Kind → String
  | .null => "null"
  | .undefined => "undefined"
  | .boolean => "boolean"
  | .number => "number"
  | .string => "string"
  | .builtin => "builtin"
  | .function => "function"

/-- The kind of a value. -/
def kind : Value → Kind
  | .null => .null
  | .undefined => .undefined
  | .bool _ => .boolean
  | .num _ => .number
  | .str _ => .string
  | .builtin _ => .builtin
  | .closure _ => .function

/-- Only `false`, `null` and `undefined` are false. -/
def truthy : Value → Bool
  | .null | .undefined | .bool false => false
  | _ => true

/-- A builtin or a closure. -/
def callable : Value → Bool
  | .builtin _ | .closure _ => true
  | _ => false

/-- The equality of the language: numbers as doubles (so `NaN` differs from itself and the two
zeros agree), strings by text, builtins by name, closures by stamp. -/
def same : Value → Value → Bool
  | .null, .null => true
  | .undefined, .undefined => true
  | .bool a, .bool b => a == b
  | .num a, .num b => a == b
  | .str a, .str b => a == b
  | .builtin a, .builtin b => a.name == b.name
  | .closure a, .closure b => a.stamp == b.stamp
  | _, _ => false

/-- The text of a value, as `print` writes it. -/
def render : Value → String
  | .null => "null"
  | .undefined => "undefined"
  | .bool b => if b then "true" else "false"
  | .num x => showNumber x
  | .str s => s
  | .builtin b => "<builtin " ++ b.name ++ ">"
  | .closure c =>
    match c.name with
    | some n => "<function " ++ n ++ ">"
    | none => "<lambda>"

/-- The diagnostic form of a value: strings quoted, functions with their parts. -/
def debug : Value → String
  | .str s => Text.quote s
  | .builtin b => "Builtin(" ++ b.name ++ ")"
  | .closure c =>
    let name := match c.name with
      | some n => "Some(" ++ Text.quote n ++ ")"
      | none => "None"
    let params := "[" ++ ", ".intercalate (c.params.map Text.quote) ++ "]"
    "Closure \x7b name: " ++ name ++ ", parameters: " ++ params ++ ", body: " ++
      Text.quote c.body.render ++ " \x7d"
  | v => v.render

end Value

end MiniLisp
