import MiniLisp.Json.Text
import MiniLisp.Json.Number
import MiniLisp.Syntax.Expr

/-! # Expressions from JSON

The JSON form of an expression: a number is a number, a string is a string literal when it
starts and ends with a double quote (two characters at least) and a symbol otherwise, and an
array is a list. `true`, `false`, `null` and objects are JSON of the wrong shape. Arrays and
objects may nest at most 127 deep.

* `readValue`: one value, and a strictly shorter rest of the text.
* `Expr.ofJson?`: a text that holds one value; `Expr.ofJsonStream?`: a text of values one
  after the other, where a number must be followed by a blank, a bracket, a brace, a quote, a
  comma, a colon or the end.
-/

namespace MiniLisp.Json

/-- The expression a JSON string stands for: a string literal, as written, when it has both
quotes, and a symbol otherwise. -/
def exprOfString (s : String) : Expr :=
  if Expr.isQuotedText s then .str s else .sym s

/-- How deep arrays and objects may nest, plus one. -/
def depthBudget : Nat := 128

/-- A cursor strictly behind `c`. -/
abbrev Ahead (c : Cursor) := { d : Cursor // d.rest.length < c.rest.length }

/-- A cursor no further back than `c`. -/
abbrev NotBehind (c : Cursor) := { d : Cursor // d.rest.length ≤ c.rest.length }

/-- Reads the letters of a keyword after its first. -/
def readWord : List Char → Cursor → Except Error Cursor
  | [], c => .ok c
  | w :: ws, c =>
    match c.rest with
    | [] => failAt .eofWhileValue c.pos
    | x :: r => if x = w then readWord ws ⟨r, c.pos.next x⟩ else failAt .expectedIdent (c.pos.nextByte x)

/-- Where the reader stands after the brace of an object, having looked for its closing brace. -/
def afterBrace (c : Cursor) : Cursor :=
  let c := c.skipBlanks
  match c.rest with
  | '}' :: r => ⟨r, c.pos.next '}'⟩
  | _ => c

/-- Closes an array after its last item. -/
def endList (c0 : Cursor) : Except Error Cursor :=
  let c := c0.skipBlanks
  match c.rest with
  | ']' :: r => .ok ⟨r, c.pos.next ']'⟩
  | ',' :: r =>
    let c' := Cursor.skipBlanks ⟨r, c.pos.next ','⟩
    match c'.rest with
    | ']' :: _ => failAt .trailingComma c'.peekPos
    | _ => failAt .trailingCharacters c'.peekPos
  | [] => failAt .eofWhileList c.pos
  | _ :: _ => failAt .trailingCharacters c.peekPos

theorem length_rest_lt_of_endList {c d : Cursor} (h : endList c = .ok d) :
    d.rest.length < c.rest.length := by
  unfold endList at h
  have hc := c.length_skipBlanks_le
  dsimp only at h
  split at h
  · rename_i r hr
    cases h
    simp only [hr, List.length_cons] at hc ⊢
    omega
  · split at h <;> simp [failAt] at h
  · simp [failAt] at h
  · simp [failAt] at h

mutual
/-- Reads one value from `c0` with `budget` levels of nesting left to open. -/
def readValue (budget : Nat) (c0 : Cursor) : Except Error (Expr × Ahead c0) :=
  match hcs : c0.skipBlanks with
  | c =>
  have hc : c.rest.length ≤ c0.rest.length := hcs ▸ c0.length_skipBlanks_le
  match hr : c.rest with
  | [] => failAt .eofWhileValue c.pos
  | x :: r =>
    have hx : r.length < c0.rest.length := by rw [hr] at hc; simp at hc; omega
    let c1 : Cursor := ⟨r, c.pos.next x⟩
    if x = 'n' then
      match readWord ['u', 'l', 'l'] c1 with
      | .ok d => failAt (.invalidType .unit) d.pos
      | .error e => .error e
    else if x = 't' then
      match readWord ['r', 'u', 'e'] c1 with
      | .ok d => failAt (.invalidType (.bool true)) d.pos
      | .error e => .error e
    else if x = 'f' then
      match readWord ['a', 'l', 's', 'e'] c1 with
      | .ok d => failAt (.invalidType (.bool false)) d.pos
      | .error e => .error e
    else if x = '-' then
      match h : readNumber true c1 with
      | .ok (v, d) => .ok (.num v, ⟨d, Nat.lt_trans (length_rest_lt_of_readNumber h) hx⟩)
      | .error e => .error e
    else if x.isDigit then
      match h : readNumber false c with
      | .ok (v, d) => .ok (.num v, ⟨d, Nat.lt_of_lt_of_le (length_rest_lt_of_readNumber h) hc⟩)
      | .error e => .error e
    else if x = '"' then
      match h : readChars r c1.pos .plain [] with
      | .ok (s, d) => .ok (exprOfString s, ⟨d, Nat.lt_trans (length_rest_lt_of_readChars h) hx⟩)
      | .error e => .error e
    else if x = '[' then
      if hb : budget ≤ 1 then failAt .recursionLimit c.peekPos
      else
        match readItems (budget - 1) true c1 #[] with
        | .error e => .error e
        | .ok (items, ⟨d, hd⟩) =>
          match h : endList d with
          | .ok e =>
            .ok (.list items.toList, ⟨e, by
              have := length_rest_lt_of_endList h
              simp only [c1] at hd
              omega⟩)
          | .error err => .error err
    else if x = '{' then
      if budget ≤ 1 then failAt .recursionLimit c.peekPos
      else failAt (.invalidType .map) (afterBrace c1).pos
    else failAt .expectedValue c.peekPos
termination_by (budget, 2 * c0.rest.length)
decreasing_by
  apply Prod.Lex.left
  omega

/-- Reads the items of an array from `c0` on, after `acc`; `first` until one is read. Stops
before the closing bracket. -/
def readItems (budget : Nat) (first : Bool) (c0 : Cursor) (acc : Array Expr) :
    Except Error (Array Expr × NotBehind c0) :=
  match hcs : c0.skipBlanks with
  | c =>
  have hc : c.rest.length ≤ c0.rest.length := hcs ▸ c0.length_skipBlanks_le
  match hr : c.rest with
  | [] => failAt .eofWhileList c.pos
  | x :: r =>
    if x = ']' then .ok (acc, ⟨c, hc⟩)
    else if x = ',' && !first then
      match hq : Cursor.skipBlanks ⟨r, c.pos.next x⟩ with
      | c' =>
      have hc' : c'.rest.length < c0.rest.length := by
        have := Cursor.length_skipBlanks_le ⟨r, c.pos.next x⟩
        rw [hq] at this
        rw [hr] at hc
        simp at hc this
        omega
      match c'.rest with
      | ']' :: _ => failAt .trailingComma c'.peekPos
      | [] => failAt .eofWhileValue c'.peekPos
      | _ :: _ =>
        match readValue budget c' with
        | .ok (e, ⟨d, hd⟩) =>
          match readItems budget false d (acc.push e) with
          | .ok (es, ⟨d', hd'⟩) => .ok (es, ⟨d', by omega⟩)
          | .error err => .error err
        | .error err => .error err
    else if first then
      match readValue budget c with
      | .ok (e, ⟨d, hd⟩) =>
        match readItems budget false d (acc.push e) with
        | .ok (es, ⟨d', hd'⟩) => .ok (es, ⟨d', by omega⟩)
        | .error err => .error err
      | .error err => .error err
    else failAt .expectedCommaOrEnd c.peekPos
termination_by (budget, 2 * c0.rest.length + 1)
decreasing_by
  all_goals
    apply Prod.Lex.right
    omega
end

/-- A character that may follow a number in a stream of values. -/
def endsValue (c : Char) : Bool := isBlank c || "\"[]{},:".contains c

/-- Reads the values of a stream from `c0` on, after `acc`. -/
def readStream (c0 : Cursor) (acc : Array Expr) : Except Error (Array Expr) :=
  let c := c0.skipBlanks
  match c.rest with
  | [] => .ok acc
  | x :: _ =>
    match readValue depthBudget c with
    | .error e => .error e
    | .ok (e, ⟨d, _⟩) =>
      let delimited := x = '[' || x = '"' || x = '{'
      match d.rest with
      | y :: _ =>
        if delimited || endsValue y then readStream d (acc.push e)
        else failAt .trailingCharacters d.peekPos
      | [] => readStream d (acc.push e)
termination_by c0.rest.length
decreasing_by all_goals exact Nat.lt_of_lt_of_le ‹_› c0.length_skipBlanks_le

end MiniLisp.Json

namespace MiniLisp.Expr

open Json

/-- The expression of a JSON text that holds one value, blanks around it allowed. -/
def ofJson? (text : String) : Except Json.Error Expr := do
  let (e, ⟨d, _⟩) ← readValue depthBudget (Cursor.ofString text)
  let d := d.skipBlanks
  match d.rest with
  | [] => pure e
  | _ :: _ => failAt .trailingCharacters d.peekPos

/-- The expressions of a JSON text of values one after the other. -/
def ofJsonStream? (text : String) : Except Json.Error (List Expr) :=
  (readStream (Cursor.ofString text) #[]).map Array.toList

end MiniLisp.Expr
