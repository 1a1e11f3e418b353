import MiniLisp.Json.Cursor

/-! # JSON strings

The characters of a JSON string up to its closing quote. A backslash starts an escape: one of
`" \ / b f n r t`, or `u` and four hexadecimal digits. A code unit of a leading surrogate must
be followed at once by an escaped trailing one, and the pair stands for one character. A
control character may not stand in a string unescaped. Before four hex digits are read, four
bytes must be left in the text; the four are passed over first, so a bad digit is reported
after all four bytes.

* `readChars`: the string after its opening quote, and the cursor after its closing one.
* `length_rest_lt_of_readChars`: a string that is read uses up its closing quote at least.
-/

namespace MiniLisp.Json

/-- What the string reader is in the middle of. -/
inductive EscapeState where
  | plain
  /-- Just after a backslash. -/
  | backslash
  /-- Reading hex digits: how many are left, their value so far, the leading surrogate that
  came before, if any, and where an invalid digit is reported: four bytes after the `u`. -/
  | hex (left value : Nat) (lead : Option Nat) (bad : Pos)
  /-- After a leading surrogate, before the backslash of its partner. -/
  | wantBackslash (lead : Nat)
  /-- After a leading surrogate and a backslash, before the `u`. -/
  | wantU (lead : Nat)
  deriving Repr, DecidableEq, Inhabited

/-- The character a one-letter escape stands for. -/
def simpleEscape? (c : Char) : Option Char :=
  if c = '"' then some '"'
  else if c = '\\' then some '\\'
  else if c = '/' then some '/'
  else if c = 'b' then some '\x08'
  else if c = 'f' then some '\x0c'
  else if c = 'n' then some '\n'
  else if c = 'r' then some '\r'
  else if c = 't' then some '\t'
  else none

/-- The value of a hexadecimal digit. -/
def hexValue? (c : Char) : Option Nat :=
  if '0' ≤ c ∧ c ≤ '9' then some (c.toNat - '0'.toNat)
  else if 'a' ≤ c ∧ c ≤ 'f' then some (c.toNat - 'a'.toNat + 10)
  else if 'A' ≤ c ∧ c ≤ 'F' then some (c.toNat - 'A'.toNat + 10)
  else none

/-- At least four bytes are left. -/
def fourBytesLeft (cs : List Char) : Bool := 4 ≤ (cs.take 4).foldl (fun n c => n + c.utf8Size) 0

/-- A code unit of a leading surrogate. -/
def isLeading (v : Nat) : Bool := 0xD800 ≤ v && v ≤ 0xDBFF

/-- A code unit of a trailing surrogate. -/
def isTrailing (v : Nat) : Bool := 0xDC00 ≤ v && v ≤ 0xDFFF

/-- The character a surrogate pair stands for. -/
def ofSurrogates (hi lo : Nat) : Char := Char.ofNat (0x10000 + (hi - 0xD800) * 0x400 + (lo - 0xDC00))

/-- Reads a string from after its opening quote: the characters so far are `acc`, reversed. -/
def readChars : List Char → Pos → EscapeState → List Char → Except Error (String × Cursor)
  | [], p, _, _ => failAt .eofWhileString p
  | c :: r, p, .plain, acc =>
    if c = '"' then .ok (String.ofList acc.reverse, ⟨r, p.next c⟩)
    else if c = '\\' then readChars r (p.next c) .backslash acc
    else if c.toNat < 0x20 then failAt .controlCharacter (p.next c)
    else readChars r (p.next c) .plain (c :: acc)
  | c :: r, p, .backslash, acc =>
    match simpleEscape? c with
    | some e => readChars r (p.next c) .plain (e :: acc)
    | none =>
      if c = 'u' then
        if fourBytesLeft r then readChars r (p.next c) (.hex 4 0 none ((p.next c).skipBytes r 4)) acc
        else failAt .eofWhileString ((p.next c).skip r)
      else failAt .invalidEscape (p.nextByte c)
  | c :: r, p, .hex left value lead bad, acc =>
    match hexValue? c with
    | none => failAt .invalidEscape bad
    | some d =>
      let v := 16 * value + d
      if left ≤ 1 then
        match lead with
        | none =>
          if isTrailing v then failAt .loneLeadingSurrogate (p.next c)
          else if isLeading v then readChars r (p.next c) (.wantBackslash v) acc
          else readChars r (p.next c) .plain (Char.ofNat v :: acc)
        | some hi =>
          if isTrailing v then readChars r (p.next c) .plain (ofSurrogates hi v :: acc)
          else failAt .loneLeadingSurrogate (p.next c)
      else readChars r (p.next c) (.hex (left - 1) v lead bad) acc
  | c :: r, p, .wantBackslash hi, acc =>
    if c = '\\' then readChars r (p.next c) (.wantU hi) acc
    else failAt .unexpectedEndOfEscape (p.nextByte c)
  | c :: r, p, .wantU hi, acc =>
    if c = 'u' then
      if fourBytesLeft r then readChars r (p.next c) (.hex 4 0 (some hi) ((p.next c).skipBytes r 4)) acc
      else failAt .eofWhileString ((p.next c).skip r)
    else failAt .unexpectedEndOfEscape (p.nextByte c)

theorem length_rest_lt_of_readChars {cs : List Char} {p : Pos} {st : EscapeState}
    {acc : List Char} {s : String} {d : Cursor}
    (h : readChars cs p st acc = .ok (s, d)) : d.rest.length < cs.length := by
  fun_induction readChars cs p st acc <;> simp_all [failAt] <;> grind

end MiniLisp.Json
