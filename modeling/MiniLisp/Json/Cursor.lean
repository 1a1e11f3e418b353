import MiniLisp.Json.Error

/-! # The JSON reader's place in the text

A cursor holds the characters not yet read and the place of the first of them. Errors about
the next character point one byte past the cursor (`peekPos`), errors about what was just
read point at the cursor itself.

* `Cursor.skipBlanks`: skips space, tab, line feed and carriage return.
* `length_skipBlanks_le`: skipping never lengthens what is left.
-/

namespace MiniLisp.Json

/-- What is left of the text, and where it starts. -/
structure Cursor where
  rest : List Char
  pos : Pos
  deriving Repr, DecidableEq, Inhabited

/-- A blank between JSON tokens. -/
def isBlank (c : Char) : Bool := c = ' ' || c = '\n' || c = '\t' || c = '\r'

/-- Skips blanks from a place on. -/
def skipBlanksFrom : List Char → Pos → Cursor
  | c :: r, p => if isBlank c then skipBlanksFrom r (p.next c) else ⟨c :: r, p⟩
  | [], p => ⟨[], p⟩

theorem length_skipBlanksFrom_le (cs : List Char) (p : Pos) :
    (skipBlanksFrom cs p).rest.length ≤ cs.length := by
  induction cs generalizing p with
  | nil => simp [skipBlanksFrom]
  | cons c r ih =>
    simp only [skipBlanksFrom]
    split
    · exact Nat.le_succ_of_le (ih _)
    · exact Nat.le_refl _

namespace Cursor

/-- The start of a text. -/
def ofString (s : String) : Cursor := ⟨s.toList, Pos.start⟩

/-- Where an error about the next character points: one byte on, or here at the end. -/
def peekPos (c : Cursor) : Pos :=
  match c.rest with
  | [] => c.pos
  | d :: _ => c.pos.nextByte d

/-- The place at the end of the text. -/
def endPos (c : Cursor) : Pos := c.pos.skip c.rest

/-- Skips blanks. -/
def skipBlanks (c : Cursor) : Cursor := skipBlanksFrom c.rest c.pos

theorem length_skipBlanks_le (c : Cursor) : c.skipBlanks.rest.length ≤ c.rest.length :=
  length_skipBlanksFrom_le c.rest c.pos

end Cursor

/-- Fails with a fault at a place. -/
def failAt {α : Type} (f : Fault) (p : Pos) : Except Error α := .error ⟨f, p⟩

end MiniLisp.Json
