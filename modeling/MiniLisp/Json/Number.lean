import MiniLisp.Json.Cursor

/-! # JSON numbers

A JSON number is read into a significand of at most 64 bits and a decimal exponent, and the
double is that significand scaled by one multiplication or division by a power of ten (the
double nearest to `10^k`, for `k ≤ 308`):

* integer digits are kept while the significand fits in 64 bits; from the first that does not
  fit on, each later integer digit is dropped and raises the exponent by one;
* fraction digits are kept while the significand fits, each lowering the exponent by one, and
  all are dropped from the first that does not fit;
* the written exponent is kept while it fits in 31 bits, and the sum is held to 32-bit range;
  a written exponent past that is zero, or out of range if it would make a nonzero number
  larger;
* a result that overflows is out of range; exponents below `-308` divide by `10^308` first.

An integer with no fraction and no exponent that fits in 64 bits is the double nearest to it.

* `readNumber`: a number from its first digit (after the sign), and the cursor after it.
* `length_rest_lt_of_readNumber`: a number that is read uses up at least one character.
-/

namespace MiniLisp.Json

/-- The largest significand: `2^64 - 1`. -/
def significandMax : Nat := Nat.pow 2 64 - 1

/-- The largest written exponent: `2^31 - 1`. -/
def exponentMax : Nat := Nat.pow 2 31 - 1

/-- The value of a decimal digit. -/
def digitValue (c : Char) : Nat := c.toNat - '0'.toNat

/-- Adds integer digits to a significand. From the first digit that would take it past
`significandMax` on, each digit is dropped and counted. -/
def takeIntDigits (sig dropped : Nat) : List Char → Nat × Nat
  | [] => (sig, dropped)
  | d :: ds =>
    if 0 < dropped then takeIntDigits sig (dropped + 1) ds
    else
      let v := 10 * sig + digitValue d
      if significandMax < v then takeIntDigits sig 1 ds else takeIntDigits v 0 ds

/-- Adds fraction digits to a significand, counting the places kept; the first digit that
would take it past `significandMax` ends the run. -/
def takeFracDigits (sig places : Nat) : List Char → Nat × Nat
  | [] => (sig, places)
  | d :: ds =>
    let v := 10 * sig + digitValue d
    if significandMax < v then (sig, places) else takeFracDigits v (places + 1) ds

/-- Adds exponent digits: `some` exponent with all of them, or `none` and the number of
digits up to the one that would take the exponent past `exponentMax`. -/
def takeExpDigits (e used : Nat) : List Char → Option Nat × Nat
  | [] => (some e, used)
  | d :: ds =>
    let v := 10 * e + digitValue d
    if exponentMax < v then (none, used + 1) else takeExpDigits v (used + 1) ds

/-- The double nearest to `10^k`. -/
def pow10 (k : Nat) : Float := Float.ofScientific 1 false k

/-- Holds an exponent to the 32-bit range. -/
def clampExponent (e : Int) : Int := max (-(exponentMax : Int) - 1) (min (exponentMax : Int) e)

/-- `f · 10^e` by one multiplication or division by a power of ten up to `10^308`, dividing by
`10^308` first while the exponent is below `-308`; `none` when the result is infinite or the
exponent above `308`. -/
def scaleTen (f : Float) (e : Int) : Nat → Option Float
  | 0 => some f
  | n + 1 =>
    if e.natAbs ≤ 308 then
      if 0 ≤ e then
        let g := f * pow10 e.natAbs
        if g.isInf then none else some g
      else some (f / pow10 e.natAbs)
    else if f == 0 then some f
    else if 0 ≤ e then none
    else scaleTen (f / pow10 308) (e + 308) n

/-- The double of a significand and a decimal exponent, or `none` if it is out of range. -/
def fromParts (sig : Nat) (e : Int) : Option Float :=
  scaleTen (Float.ofNat sig) e (e.natAbs / 308 + 2)

/-- A magnitude with the number's sign. -/
def signed (negative : Bool) (f : Float) : Float := if negative then -f else f

/-- Ends a number at `c`: its double, or out of range at `c`. -/
def finishNumber (negative : Bool) (sig : Nat) (e : Int) (c : Cursor) :
    Except Error (Float × Cursor) :=
  match fromParts sig e with
  | some f => .ok (signed negative f, c)
  | none => failAt .numberOutOfRange c.pos

/-- The sign of a written exponent, and the cursor after it. -/
def exponentSign (c : Cursor) : Bool × Cursor :=
  match c.rest with
  | '+' :: r => (false, ⟨r, c.pos.next '+'⟩)
  | '-' :: r => (true, ⟨r, c.pos.next '-'⟩)
  | _ => (false, c)

/-- The exponent of a number: the exponent of its digits moved by the written one. -/
def shiftExponent (start : Int) (expNegative : Bool) (e : Nat) : Int :=
  clampExponent (if expNegative then start - e else start + e)

/-- Ends a number after the first digit of its exponent, `first`; `r` follows that digit. -/
def exponentValue (negative : Bool) (sig : Nat) (start : Int) (expNegative : Bool) (p : Pos)
    (first : Nat) (r : List Char) : Except Error (Float × Cursor) :=
  let ds := r.takeWhile Char.isDigit
  let after : Cursor := ⟨r.dropWhile Char.isDigit, p.skip ds⟩
  match takeExpDigits first 0 ds with
  | (some e, _) => finishNumber negative sig (shiftExponent start expNegative e) after
  | (none, used) =>
    if sig ≠ 0 && !expNegative then failAt .numberOutOfRange (p.skip (ds.take used))
    else .ok (signed negative 0, after)

/-- Reads the digits of an exponent, for a significand `sig` whose digits so far make the
exponent `start`. -/
def readExponentDigits (negative : Bool) (sig : Nat) (start : Int) (expNegative : Bool)
    (c : Cursor) : Except Error (Float × Cursor) :=
  match c.rest with
  | [] => failAt .eofWhileValue c.pos
  | d :: r =>
    if d.isDigit then exponentValue negative sig start expNegative (c.pos.next d) (digitValue d) r
    else failAt .invalidNumber (c.pos.nextByte d)

/-- Reads an exponent from after its `e`. -/
def readExponent (negative : Bool) (sig : Nat) (start : Int) (c : Cursor) :
    Except Error (Float × Cursor) :=
  readExponentDigits negative sig start (exponentSign c).1 (exponentSign c).2

/-- Ends a number after its digits: an exponent follows, or nothing. -/
def afterDigits (negative : Bool) (sig : Nat) (e : Int) (c : Cursor) :
    Except Error (Float × Cursor) :=
  match c.rest with
  | x :: r =>
    if x = 'e' || x = 'E' then readExponent negative sig e ⟨r, c.pos.next x⟩
    else finishNumber negative sig e c
  | [] => finishNumber negative sig e c

/-- Reads the fraction digits after the point; there must be at least one. -/
def readFraction (negative : Bool) (sig dropped : Nat) (c : Cursor) :
    Except Error (Float × Cursor) :=
  match c.rest.takeWhile Char.isDigit with
  | [] =>
    match c.rest with
    | [] => failAt .eofWhileValue c.peekPos
    | _ :: _ => failAt .invalidNumber c.peekPos
  | d :: ds =>
    let (sig', places) := takeFracDigits sig 0 (d :: ds)
    afterDigits negative sig' ((dropped : Int) - places)
      ⟨c.rest.dropWhile Char.isDigit, c.pos.skip (d :: ds)⟩

/-- Reads what follows the integer digits: a fraction, an exponent, or nothing. -/
def afterInteger (negative : Bool) (sig dropped : Nat) (c : Cursor) :
    Except Error (Float × Cursor) :=
  match c.rest with
  | '.' :: r => readFraction negative sig dropped ⟨r, c.pos.next '.'⟩
  | x :: r =>
    if x = 'e' || x = 'E' then readExponent negative sig dropped ⟨r, c.pos.next x⟩
    else if dropped = 0 then .ok (signed negative (Float.ofNat sig), c)
    else finishNumber negative sig dropped c
  | [] =>
    if dropped = 0 then .ok (signed negative (Float.ofNat sig), c)
    else finishNumber negative sig dropped c

/-- Reads a number from its first digit, after any sign. -/
def readNumber (negative : Bool) (c : Cursor) : Except Error (Float × Cursor) :=
  match c.rest with
  | [] => failAt .eofWhileValue c.pos
  | d :: r =>
    if d = '0' then
      let c1 : Cursor := ⟨r, c.pos.next d⟩
      match r with
      | e :: _ => if e.isDigit then failAt .invalidNumber c1.peekPos else afterInteger negative 0 0 c1
      | [] => afterInteger negative 0 0 c1
    else if d.isDigit then
      let ds := r.takeWhile Char.isDigit
      let (sig, dropped) := takeIntDigits 0 0 (d :: ds)
      afterInteger negative sig dropped ⟨r.dropWhile Char.isDigit, (c.pos.next d).skip ds⟩
    else failAt .invalidNumber (c.pos.nextByte d)

/-! ## A number that is read uses up its digits -/

theorem length_dropWhile_le (p : Char → Bool) (l : List Char) : (l.dropWhile p).length ≤ l.length :=
  (List.dropWhile_suffix p).length_le

theorem length_rest_le_of_finishNumber {negative : Bool} {sig : Nat} {e : Int} {c d : Cursor}
    {x : Float} (h : finishNumber negative sig e c = .ok (x, d)) : d.rest.length ≤ c.rest.length := by
  unfold finishNumber at h
  split at h
  · cases h; exact Nat.le_refl _
  · simp [failAt] at h

theorem length_exponentSign_le (c : Cursor) : (exponentSign c).2.rest.length ≤ c.rest.length := by
  unfold exponentSign
  split <;> simp_all

theorem length_rest_le_of_exponentValue {negative : Bool} {sig : Nat} {start : Int}
    {s : Bool} {p : Pos} {first : Nat} {r : List Char} {d : Cursor} {x : Float}
    (h : exponentValue negative sig start s p first r = .ok (x, d)) : d.rest.length ≤ r.length := by
  unfold exponentValue at h
  have hr := length_dropWhile_le Char.isDigit r
  dsimp only at h
  generalize takeExpDigits first 0 (r.takeWhile Char.isDigit) = m at h
  obtain ⟨eo, used⟩ := m
  cases eo with
  | some e => exact Nat.le_trans (length_rest_le_of_finishNumber h) hr
  | none =>
    simp only at h
    split at h
    · simp [failAt] at h
    · cases h
      exact hr

theorem length_rest_le_of_readExponentDigits {negative : Bool} {sig : Nat} {start : Int}
    {s : Bool} {c d : Cursor} {x : Float} (h : readExponentDigits negative sig start s c = .ok (x, d)) :
    d.rest.length ≤ c.rest.length := by
  unfold readExponentDigits at h
  split at h
  · simp [failAt] at h
  · rename_i y r hc
    split at h
    · have := length_rest_le_of_exponentValue h
      simp only [hc, List.length_cons]
      omega
    · simp [failAt] at h

theorem length_rest_le_of_readExponent {negative : Bool} {sig : Nat} {start : Int} {c d : Cursor}
    {x : Float} (h : readExponent negative sig start c = .ok (x, d)) :
    d.rest.length ≤ c.rest.length :=
  Nat.le_trans (length_rest_le_of_readExponentDigits h) (length_exponentSign_le c)

theorem length_rest_le_of_afterDigits {negative : Bool} {sig : Nat} {e : Int} {c d : Cursor}
    {x : Float} (h : afterDigits negative sig e c = .ok (x, d)) : d.rest.length ≤ c.rest.length := by
  unfold afterDigits at h
  split at h
  · rename_i y r hc
    split at h
    · have := length_rest_le_of_readExponent h
      simp only [hc, List.length_cons] at this ⊢
      omega
    · exact length_rest_le_of_finishNumber h
  · exact length_rest_le_of_finishNumber h

theorem length_rest_le_of_readFraction {negative : Bool} {sig dropped : Nat} {c d : Cursor}
    {x : Float} (h : readFraction negative sig dropped c = .ok (x, d)) :
    d.rest.length ≤ c.rest.length := by
  unfold readFraction at h
  split at h
  · split at h <;> simp [failAt] at h
  · have := length_rest_le_of_afterDigits h
    have hr := length_dropWhile_le Char.isDigit c.rest
    simp only at this
    omega

theorem length_rest_le_of_afterInteger {negative : Bool} {sig dropped : Nat} {c d : Cursor}
    {x : Float} (h : afterInteger negative sig dropped c = .ok (x, d)) :
    d.rest.length ≤ c.rest.length := by
  unfold afterInteger at h
  split at h
  · rename_i r hc
    have := length_rest_le_of_readFraction h
    simp only [hc, List.length_cons] at this ⊢
    omega
  · rename_i y r _ hc
    split at h
    · have := length_rest_le_of_readExponent h
      simp only [hc, List.length_cons] at this ⊢
      omega
    · split at h
      · cases h; exact Nat.le_refl _
      · exact length_rest_le_of_finishNumber h
  · split at h
    · cases h; exact Nat.le_refl _
    · exact length_rest_le_of_finishNumber h

theorem length_rest_lt_of_readNumber {negative : Bool} {c d : Cursor} {x : Float}
    (h : readNumber negative c = .ok (x, d)) : d.rest.length < c.rest.length := by
  unfold readNumber at h
  split at h
  · simp [failAt] at h
  · rename_i y r hc
    split at h
    · split at h
      · split at h
        · simp [failAt] at h
        · have := length_rest_le_of_afterInteger h
          simp only [hc, List.length_cons] at this ⊢
          omega
      · have := length_rest_le_of_afterInteger h
        simp only [hc, List.length_cons] at this ⊢
        omega
    · split at h
      · have := length_rest_le_of_afterInteger h
        have hr := length_dropWhile_le Char.isDigit r
        simp only [hc, List.length_cons] at this ⊢
        omega
      · simp [failAt] at h

end MiniLisp.Json
