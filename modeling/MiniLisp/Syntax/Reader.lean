import MiniLisp.Syntax.Expr
import MiniLisp.Syntax.Token
import MiniLisp.Decimal.Literal

/-! # Reading expressions from tokens

A form is an atom or a parenthesised list of forms. A string literal keeps its quotes. A word
is a number when it looks like one (a digit first, or `-` or `.` followed by a digit or a
point), and then it must be a finite decimal literal; any other word is a symbol. A list reads
forms until one fails, then wants its closing parenthesis: the failure inside is not reported,
the missing `)` is.

* `readForm`: one form at the front of a token list, with the rest, which is shorter.
* `Expr.read`: exactly one form; `Expr.readMany`: all forms of a program.
-/

namespace MiniLisp

/-- The word starts the way a number does. -/
def looksNumeric (w : String) : Bool :=
  match w.toList with
  | c :: rest =>
    if c.isDigit then true
    else if c = '-' || c = '.' then
      match rest with
      | d :: _ => d.isDigit || d = '.'
      | [] => false
    else false
  | [] => false

/-- The finite double a numeric word spells. -/
def readNumber? (w : String) : Option Float :=
  match Decimal.Literal.parse? w with
  | some l =>
    let x := l.toFloat
    if x.isFinite then some x else none
  | none => none

/-- A token the atom reader takes: a string literal or a word. -/
def Token.isAtom : Token → Bool
  | .text _ | .word _ => true
  | _ => false

/-- The atom a token stands for, once the atom reader has taken it: a string literal with its
quotes, a number, or a symbol; `none` for a numeric word that is no finite number. The reader
takes no other token, and one here is a fault. -/
def Token.readAtom : Token → Except Fault (Option Expr)
  | .text s => .ok (some (.str ("\"" ++ s ++ "\"")))
  | .word w => .ok (if looksNumeric w then (readNumber? w).map .num else some (.sym w))
  | _ => .error .notAnAtom

/-- The atom a token stands for, where the atom reader takes it: a parenthesis and a numeric
word that is no finite number are no atom. -/
def Token.atom? (t : Token) : Except Fault (Option Expr) :=
  if t.isAtom then t.readAtom else .ok none

/-- A strictly shorter rest of the token list `ts`. -/
abbrev Rest (ts : List Token) := { r : List Token // r.length < ts.length }

/-- A rest of the token list `ts` that is no longer. -/
abbrev Tail (ts : List Token) := { r : List Token // r.length ≤ ts.length }

mutual
/-- One form at the front of the tokens: an atom, or `(` forms `)`. -/
def readForm (ts : List Token) : Except SyntaxError (Expr × Rest ts) :=
  match ts with
  | [] => .error (.expectedOpen none)
  | t :: rest =>
    match t.atom? with
    | .ok (some e) => .ok (e, ⟨rest, by simp⟩)
    | .error f => .error (.fault f)
    | .ok none =>
      match t with
      | .openParen =>
        match readItems rest with
        | (items, ⟨after, h⟩) =>
          match after, h with
          | .closeParen :: r, h => .ok (.list items, ⟨r, by simp at h ⊢; omega⟩)
          | t' :: _, _ => .error (.expectedClose (some t'))
          | [], _ => .error (.expectedClose none)
      | t => .error (.expectedOpen (some t))
termination_by (ts.length, 0)

/-- Forms at the front of the tokens, as many as read; the rest starts where one failed. -/
def readItems (ts : List Token) : List Expr × Tail ts :=
  match h : readForm ts with
  | .ok (e, ⟨r, hr⟩) =>
    match readItems r with
    | (es, ⟨r', hr'⟩) => (e :: es, ⟨r', by omega⟩)
  | .error _ => ([], ⟨ts, Nat.le_refl _⟩)
termination_by (ts.length, 1)
end

namespace Expr

/-- Reads exactly one form from program text. -/
def read (src : String) : Except SyntaxError Expr := do
  let ts ← tokenize src
  let (e, ⟨rest, _⟩) ← readForm ts
  match rest with
  | [] => pure e
  | t :: _ => throw (.trailing t)

/-- Reads all forms of a program text. Where a form fails before the end, the failure is
reported by reading a form there. -/
def readMany (src : String) : Except SyntaxError (List Expr) := do
  let ts ← tokenize src
  let (es, ⟨rest, _⟩) := readItems ts
  match rest with
  | [] => pure es
  | _ =>
    match readForm rest with
    | .error e => throw e
    | .ok _ => pure es

end Expr

end MiniLisp
