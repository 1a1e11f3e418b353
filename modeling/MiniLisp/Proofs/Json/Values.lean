import Mathlib.Tactic.SplitIfs
import MiniLisp.Json.Reader
import MiniLisp.Json.Writer

/-! # The JSON reader, value by value

What the reader does with the text of one value, and what it takes back of the text the
writer writes.

* Blanks: `skipBlanksFrom_append` (skipping never looks past the first other character),
  `rest_skipBlanksFrom` (where the text starts does not change what is skipped).
* Strings: `readChars_escaped`, the characters of a string escaped as the writer escapes them
  and closed by a quote are read back exactly.
* Numbers: `readNumber_append`, a number read to the end of its text is read alike, from
  anywhere and with more text after it that cannot continue a number (`EndsNumber`).
* Values and items: one lemma for each way a value or an item is read (`readValue_of_quote`,
  `readValue_of_minus`, `readValue_of_digit`, `readValue_of_bracket`, `readItems_of_close`,
  `readItems_of_first`, `readItems_of_comma`), and the inversions `readValue_eq_ok` and
  `readItems_eq_ok` that say a value or items that are read were read in one of these ways.
-/

namespace MiniLisp.Json

/-! ## Blanks -/

theorem skipBlanksFrom_cons {c : Char} (h : isBlank c = false) (cs : List Char) (p : Pos) :
    skipBlanksFrom (c :: cs) p = ⟨c :: cs, p⟩ := by
  simp [skipBlanksFrom, h]

theorem skipBlanksFrom_append {cs : List Char} {p : Pos} (h : (skipBlanksFrom cs p).rest ≠ [])
    (rest : List Char) :
    skipBlanksFrom (cs ++ rest) p =
      ⟨(skipBlanksFrom cs p).rest ++ rest, (skipBlanksFrom cs p).pos⟩ := by
  induction cs generalizing p with
  | nil => simp [skipBlanksFrom] at h
  | cons c cs ih =>
    by_cases hc : isBlank c
    · simp only [List.cons_append, skipBlanksFrom, hc, if_true] at h ⊢
      exact ih h
    · simp [skipBlanksFrom, hc]

theorem rest_skipBlanksFrom (cs : List Char) (p p' : Pos) :
    (skipBlanksFrom cs p).rest = (skipBlanksFrom cs p').rest := by
  induction cs generalizing p p' with
  | nil => rfl
  | cons c cs ih =>
    by_cases hc : isBlank c
    · simp only [skipBlanksFrom, hc, if_true]
      exact ih _ _
    · simp [skipBlanksFrom, hc]

theorem Cursor.skipBlanks_skipBlanks (c : Cursor) : c.skipBlanks.skipBlanks = c.skipBlanks := by
  obtain ⟨cs, p⟩ := c
  simp only [Cursor.skipBlanks]
  induction cs generalizing p with
  | nil => rfl
  | cons c cs ih =>
    by_cases hc : isBlank c
    · simp only [skipBlanksFrom, hc, if_true]
      exact ih _
    · simp [skipBlanksFrom, hc]

/-! ## Strings -/

theorem hex2_of_lt : ∀ n < 32, (hex2 n).toList = [Nat.digitChar (n / 16), Nat.digitChar (n % 16)] := by
  decide +kernel

theorem hexValue_digitChar : ∀ k < 16,
    hexValue? (Nat.digitChar k) = some k ∧ (Nat.digitChar k).utf8Size = 1 := by
  decide +kernel

theorem readChars_escapeChar (c : Char) (more : List Char) (p : Pos) (acc : List Char) :
    readChars ((escapeChar c).toList ++ more) p .plain acc =
      readChars more (p.skip (escapeChar c).toList) .plain (c :: acc) := by
  unfold escapeChar
  split
  · subst_vars; rfl
  split
  · subst_vars; rfl
  split
  · subst_vars; rfl
  split
  · subst_vars; rfl
  split
  · subst_vars; rfl
  split
  · subst_vars; rfl
  split
  · subst_vars; rfl
  split
  · -- a control character: `\u00` and two hex digits, which make no surrogate
    rename_i hlt
    obtain ⟨ha, ha1⟩ := hexValue_digitChar (c.toNat / 16) (by omega)
    obtain ⟨hb, hb1⟩ := hexValue_digitChar (c.toNat % 16) (by omega)
    have hc : Char.ofNat (16 * (c.toNat / 16) + c.toNat % 16) = c := by
      rw [show 16 * (c.toNat / 16) + c.toNat % 16 = c.toNat by omega]
      exact Char.ofNat_toNat c
    have hv : ¬ isTrailing (16 * (c.toNat / 16) + c.toNat % 16) ∧
        ¬ isLeading (16 * (c.toNat / 16) + c.toNat % 16) := by
      simp [isTrailing, isLeading]
      omega
    have h0 : hexValue? '0' = some 0 := by decide
    have hz : ('0' : Char).utf8Size = 1 := by decide
    simp [String.toList_append, hex2_of_lt c.toNat hlt, readChars, simpleEscape?, fourBytesLeft,
      ha, hb, ha1, hb1, h0, hz, hv, hc, Pos.skip]
  · rename_i h1 h2 h3 h4 h5 h6 h7 h8
    simp [readChars, h1, h2, h8, Pos.skip]

/-- **An escaped string is read back**, up to its closing quote and no further. -/
theorem readChars_escaped (s more : List Char) (p : Pos) (acc : List Char) :
    readChars ((String.join (s.map escapeChar)).toList ++ '"' :: more) p .plain acc =
      .ok (String.ofList (acc.reverse ++ s),
        ⟨more, (p.skip (String.join (s.map escapeChar)).toList).next '"'⟩) := by
  induction s generalizing p acc with
  | nil => simp [readChars, Pos.skip]
  | cons c s ih =>
    simp only [List.map_cons, String.join_cons, String.toList_append, List.append_assoc,
      readChars_escapeChar, ih, List.reverse_cons]
    simp [Pos.skip]

/-- A JSON string that quotes a text stands for the string literal it spells. -/
theorem exprOfString_quoted (s : String) :
    exprOfString ("\"" ++ s ++ "\"") = .str ("\"" ++ s ++ "\"") := by
  simp [exprOfString, Expr.isQuotedText, String.toList_append]

/-! ## Numbers -/

/-- Text that may follow a number without being read as part of it: it starts with no digit,
point or exponent mark. -/
def EndsNumber (rest : List Char) : Prop :=
  ∀ c ∈ rest.head?, c.isDigit = false ∧ c ≠ '.' ∧ c ≠ 'e' ∧ c ≠ 'E'

theorem EndsNumber.nil : EndsNumber [] := by simp [EndsNumber]

theorem EndsNumber.cons {c : Char} (hc : c.isDigit = false ∧ c ≠ '.' ∧ c ≠ 'e' ∧ c ≠ 'E')
    (r : List Char) : EndsNumber (c :: r) := by
  simpa [EndsNumber] using hc

theorem EndsNumber.not_digit {rest : List Char} (h : EndsNumber rest) :
    ∀ c ∈ rest.head?, c.isDigit = false := fun c hc => (h c hc).1

theorem takeWhile_append_of_head {p : Char → Bool} {rest : List Char}
    (h : ∀ c ∈ rest.head?, p c = false) (l : List Char) :
    (l ++ rest).takeWhile p = l.takeWhile p ∧ (l ++ rest).dropWhile p = l.dropWhile p ++ rest := by
  induction l with
  | nil =>
    cases rest with
    | nil => simp
    | cons c r => simp [h c rfl]
  | cons a l ih =>
    by_cases ha : p a
    · simp [ha, ih]
    · simp [ha]

theorem finishNumber_eq_ok {negative : Bool} {sig : Nat} {e : Int} {c d : Cursor} {x : Float}
    (h : finishNumber negative sig e c = .ok (x, d)) :
    d = c ∧ ∀ c', finishNumber negative sig e c' = .ok (x, c') := by
  unfold finishNumber at h
  split at h
  · rename_i f hf
    cases h
    exact ⟨rfl, fun c' => by simp [finishNumber, hf]⟩
  · simp [failAt] at h

section Append

/-! Each stage of the number reader, read to the end of its text, is read alike with more text
after it that cannot continue a number, from any position. -/

variable {negative : Bool} {sig : Nat} {x : Float} {rest : List Char}

theorem exponentValue_append {start : Int} {s : Bool} {p q : Pos} {first : Nat} {r : List Char}
    (h : exponentValue negative sig start s p first r = .ok (x, ⟨[], q⟩))
    (hr : EndsNumber rest) (p' : Pos) :
    ∃ q', exponentValue negative sig start s p' first (r ++ rest) = .ok (x, ⟨rest, q'⟩) := by
  obtain ⟨htake, hdrop⟩ := takeWhile_append_of_head hr.not_digit r
  unfold exponentValue at h ⊢
  rw [htake, hdrop]
  dsimp only at h ⊢
  generalize takeExpDigits first 0 (r.takeWhile Char.isDigit) = m at h ⊢
  obtain ⟨eo, used⟩ := m
  cases eo with
  | some e =>
    obtain ⟨hd, hf⟩ := finishNumber_eq_ok h
    simp only [Cursor.mk.injEq] at hd
    rw [← hd.1, List.nil_append]
    exact ⟨_, hf _⟩
  | none =>
    dsimp only at h ⊢
    split at h
    · simp [failAt] at h
    · rename_i hc
      simp only [Except.ok.injEq, Prod.mk.injEq, Cursor.mk.injEq] at h
      obtain ⟨rfl, hd, -⟩ := h
      rw [if_neg hc, hd, List.nil_append]
      exact ⟨_, rfl⟩

theorem readExponentDigits_append {start : Int} {s : Bool} {cs : List Char} {p q : Pos}
    (h : readExponentDigits negative sig start s ⟨cs, p⟩ = .ok (x, ⟨[], q⟩))
    (hr : EndsNumber rest) (p' : Pos) :
    ∃ q', readExponentDigits negative sig start s ⟨cs ++ rest, p'⟩ = .ok (x, ⟨rest, q'⟩) := by
  unfold readExponentDigits at h ⊢
  cases cs with
  | nil => simp [failAt] at h
  | cons d r =>
    simp only [List.cons_append] at h ⊢
    split at h
    · rename_i hd
      rw [if_pos hd]
      exact exponentValue_append h hr _
    · simp [failAt] at h

theorem exponentSign_cons (c : Char) (r : List Char) (p : Pos) :
    exponentSign ⟨c :: r, p⟩ =
      if c = '+' then (false, ⟨r, p.next '+'⟩)
      else if c = '-' then (true, ⟨r, p.next '-'⟩) else (false, ⟨c :: r, p⟩) := by
  unfold exponentSign
  split <;> simp_all

theorem readExponent_append {start : Int} {cs : List Char} {p q : Pos}
    (h : readExponent negative sig start ⟨cs, p⟩ = .ok (x, ⟨[], q⟩))
    (hr : EndsNumber rest) (p' : Pos) :
    ∃ q', readExponent negative sig start ⟨cs ++ rest, p'⟩ = .ok (x, ⟨rest, q'⟩) := by
  -- an exponent has a digit at least, so its sign is read inside `cs`
  cases cs with
  | nil => simp [readExponent, exponentSign, readExponentDigits, failAt] at h
  | cons c r =>
    simp only [readExponent, List.cons_append, exponentSign_cons] at h ⊢
    split_ifs at h ⊢
    all_goals exact readExponentDigits_append h hr _

theorem afterDigits_of_ends {e : Int} (hr : EndsNumber rest) (p : Pos) :
    afterDigits negative sig e ⟨rest, p⟩ = finishNumber negative sig e ⟨rest, p⟩ := by
  unfold afterDigits
  split
  · rename_i y r hy
    obtain ⟨-, -, he, hE⟩ := hr y (by simp only at hy; simp [hy])
    simp [he, hE]
  · rfl

theorem afterDigits_append {e : Int} {cs : List Char} {p q : Pos}
    (h : afterDigits negative sig e ⟨cs, p⟩ = .ok (x, ⟨[], q⟩))
    (hr : EndsNumber rest) (p' : Pos) :
    ∃ q', afterDigits negative sig e ⟨cs ++ rest, p'⟩ = .ok (x, ⟨rest, q'⟩) := by
  cases cs with
  | nil =>
    rw [afterDigits_of_ends EndsNumber.nil] at h
    rw [List.nil_append, afterDigits_of_ends hr]
    exact ⟨_, (finishNumber_eq_ok h).2 _⟩
  | cons y r =>
    simp only [afterDigits, List.cons_append] at h ⊢
    split_ifs at h ⊢
    · exact readExponent_append h hr _
    · -- a number ends where it is finished, so nothing of `cs` may be left
      cases (finishNumber_eq_ok h).1

theorem readFraction_append {dropped : Nat} {cs : List Char} {p q : Pos}
    (h : readFraction negative sig dropped ⟨cs, p⟩ = .ok (x, ⟨[], q⟩))
    (hr : EndsNumber rest) (p' : Pos) :
    ∃ q', readFraction negative sig dropped ⟨cs ++ rest, p'⟩ = .ok (x, ⟨rest, q'⟩) := by
  obtain ⟨htake, hdrop⟩ := takeWhile_append_of_head hr.not_digit cs
  unfold readFraction at h ⊢
  dsimp only at h ⊢
  rw [htake, hdrop]
  split at h
  · split at h <;> simp [failAt] at h
  · exact afterDigits_append h hr _

theorem afterInteger_cons {dropped : Nat} (y : Char) (r : List Char) (p : Pos) :
    afterInteger negative sig dropped ⟨y :: r, p⟩ =
      if y = '.' then readFraction negative sig dropped ⟨r, p.next '.'⟩
      else if (y = 'e' || y = 'E') = true then readExponent negative sig dropped ⟨r, p.next y⟩
      else if dropped = 0 then .ok (signed negative (Float.ofNat sig), ⟨y :: r, p⟩)
      else finishNumber negative sig dropped ⟨y :: r, p⟩ := by
  unfold afterInteger
  split <;> simp_all

theorem afterInteger_of_ends {dropped : Nat} (hr : EndsNumber rest) (p : Pos) :
    afterInteger negative sig dropped ⟨rest, p⟩ =
      if dropped = 0 then .ok (signed negative (Float.ofNat sig), ⟨rest, p⟩)
      else finishNumber negative sig dropped ⟨rest, p⟩ := by
  cases rest with
  | nil => rfl
  | cons y r =>
    obtain ⟨-, hp, he, hE⟩ := hr y rfl
    simp [afterInteger_cons, hp, he, hE]

theorem afterInteger_append {dropped : Nat} {cs : List Char} {p q : Pos}
    (h : afterInteger negative sig dropped ⟨cs, p⟩ = .ok (x, ⟨[], q⟩))
    (hr : EndsNumber rest) (p' : Pos) :
    ∃ q', afterInteger negative sig dropped ⟨cs ++ rest, p'⟩ = .ok (x, ⟨rest, q'⟩) := by
  cases cs with
  | nil =>
    rw [afterInteger_of_ends EndsNumber.nil] at h
    rw [List.nil_append, afterInteger_of_ends hr]
    split_ifs at h ⊢
    · cases h
      exact ⟨_, rfl⟩
    · exact ⟨_, (finishNumber_eq_ok h).2 _⟩
  | cons y r =>
    rw [afterInteger_cons] at h
    rw [List.cons_append, afterInteger_cons]
    split_ifs at h ⊢
    · exact readFraction_append h hr _
    · exact readExponent_append h hr _
    -- a number read to its end leaves nothing of `cs`
    · cases h
    · cases (finishNumber_eq_ok h).1

/-- **A number read to the end of its text is read alike**, to the same double, from anywhere
and with more text after it that starts with no digit, point or exponent mark. -/
theorem readNumber_append {cs : List Char} {p q : Pos}
    (h : readNumber negative ⟨cs, p⟩ = .ok (x, ⟨[], q⟩))
    (hr : EndsNumber rest) (p' : Pos) :
    ∃ q', readNumber negative ⟨cs ++ rest, p'⟩ = .ok (x, ⟨rest, q'⟩) := by
  cases cs with
  | nil => simp [readNumber, failAt] at h
  | cons d r =>
    simp only [readNumber, List.cons_append] at h ⊢
    split_ifs at h ⊢ with h0 hd
    · -- after a leading zero the next character may be no digit, nor may `rest` start with one
      cases r with
      | nil =>
        cases rest with
        | nil => exact afterInteger_append h hr _
        | cons y r' =>
          obtain ⟨hy, -⟩ := hr y rfl
          simp only [List.nil_append, hy, Bool.false_eq_true, if_false]
          exact afterInteger_append h hr _
      | cons y r' =>
        simp only [List.cons_append] at h ⊢
        split_ifs at h ⊢
        · simp [failAt] at h
        · exact afterInteger_append h hr _
    · obtain ⟨htake, hdrop⟩ := takeWhile_append_of_head hr.not_digit r
      simp only [htake, hdrop]
      exact afterInteger_append h hr _
    · simp [failAt] at h

end Append

/-! ## Values -/

section Values

variable {b : Nat} {c0 : Cursor}

theorem readValue_of_quote {r : List Char} {s : String} {c' : Cursor}
    (hrest : c0.skipBlanks.rest = '"' :: r)
    (hs : readChars r (c0.skipBlanks.pos.next '"') .plain [] = .ok (s, c')) :
    ∃ d, readValue b c0 = .ok (exprOfString s, d) ∧ d.val = c' := by
  rw [readValue.eq_def]
  split
  split
  · rename_i hr; rw [hr] at hrest; cases hrest
  · rename_i x r' hr
    rw [hr] at hrest
    obtain ⟨rfl, rfl⟩ := List.cons.inj hrest
    simp only [show ('"' : Char) ≠ 'n' by decide, show ('"' : Char) ≠ 't' by decide,
      show ('"' : Char) ≠ 'f' by decide, show ('"' : Char) ≠ '-' by decide, if_false, if_true,
      show ('"' : Char).isDigit = false by decide, Bool.false_eq_true]
    split
    · rename_i s' d' hrc
      rw [hs] at hrc
      cases hrc
      exact ⟨_, rfl, rfl⟩
    · rename_i e hrc
      rw [hs] at hrc
      cases hrc

theorem readValue_of_minus {r : List Char} {x : Float} {c' : Cursor}
    (hrest : c0.skipBlanks.rest = '-' :: r)
    (hx : readNumber true ⟨r, c0.skipBlanks.pos.next '-'⟩ = .ok (x, c')) :
    ∃ d, readValue b c0 = .ok (.num x, d) ∧ d.val = c' := by
  rw [readValue.eq_def]
  split
  split
  · rename_i hr; rw [hr] at hrest; cases hrest
  · rename_i y r' hr
    rw [hr] at hrest
    obtain ⟨rfl, rfl⟩ := List.cons.inj hrest
    simp only [show ('-' : Char) ≠ 'n' by decide, show ('-' : Char) ≠ 't' by decide,
      show ('-' : Char) ≠ 'f' by decide, if_false, if_true]
    split
    · rename_i v d' hrn
      rw [hx] at hrn
      cases hrn
      exact ⟨_, rfl, rfl⟩
    · rename_i e hrn
      rw [hx] at hrn
      cases hrn

theorem ne_of_isDigit {y : Char} (hy : y.isDigit = true) :
    y ≠ 'n' ∧ y ≠ 't' ∧ y ≠ 'f' ∧ y ≠ '-' := by
  refine ⟨?_, ?_, ?_, ?_⟩ <;> (rintro rfl; revert hy; decide)

theorem readValue_of_digit {y : Char} {r : List Char} {x : Float} {c' : Cursor}
    (hrest : c0.skipBlanks.rest = y :: r) (hy : y.isDigit = true)
    (hx : readNumber false c0.skipBlanks = .ok (x, c')) :
    ∃ d, readValue b c0 = .ok (.num x, d) ∧ d.val = c' := by
  rw [readValue.eq_def]
  split
  split
  · rename_i hr; rw [hr] at hrest; cases hrest
  · rename_i y' r' hr
    rw [hr] at hrest
    obtain ⟨rfl, rfl⟩ := List.cons.inj hrest
    simp only [ne_of_isDigit hy, hy, if_false, if_true]
    split
    · rename_i v d' hrn
      rw [hx] at hrn
      cases hrn
      exact ⟨_, rfl, rfl⟩
    · rename_i e hrn
      rw [hx] at hrn
      cases hrn

theorem readValue_of_bracket {r : List Char} {items : Array Expr}
    {d' : NotBehind ⟨r, c0.skipBlanks.pos.next '['⟩} {c' : Cursor}
    (hrest : c0.skipBlanks.rest = '[' :: r) (hb : 1 < b)
    (hitems : readItems (b - 1) true ⟨r, c0.skipBlanks.pos.next '['⟩ #[] = .ok (items, d'))
    (hend : endList d'.val = .ok c') :
    ∃ d, readValue b c0 = .ok (.list items.toList, d) ∧ d.val = c' := by
  rw [readValue.eq_def]
  split
  split
  · rename_i hr; rw [hr] at hrest; cases hrest
  · rename_i y r' hr
    rw [hr] at hrest
    obtain ⟨rfl, rfl⟩ := List.cons.inj hrest
    simp only [show ('[' : Char) ≠ 'n' by decide, show ('[' : Char) ≠ 't' by decide,
      show ('[' : Char) ≠ 'f' by decide, show ('[' : Char) ≠ '-' by decide,
      show ('[' : Char) ≠ '"' by decide, show ('[' : Char).isDigit = false by decide,
      Bool.false_eq_true, if_false, if_true, dif_neg (Nat.not_le.2 hb)]
    split
    · rename_i e hri
      rw [hitems] at hri
      cases hri
    · rename_i items' d'' hd hri
      rw [hitems] at hri
      cases hri
      split
      · rename_i e he
        rw [hend] at he
        cases he
        exact ⟨_, rfl, rfl⟩
      · rename_i e he
        rw [hend] at he
        cases he

/-- **What a value that is read can be**: a number, the expression of a string, or the items
of an array. -/
theorem readValue_eq_ok {e : Expr} {d : Ahead c0} (h : readValue b c0 = .ok (e, d)) :
    (∃ x r, e = .num x ∧ c0.skipBlanks.rest = '-' :: r ∧
      readNumber true ⟨r, c0.skipBlanks.pos.next '-'⟩ = .ok (x, d.val)) ∨
    (∃ x y r, e = .num x ∧ c0.skipBlanks.rest = y :: r ∧ y.isDigit = true ∧
      readNumber false c0.skipBlanks = .ok (x, d.val)) ∨
    (∃ s r, e = exprOfString s ∧ c0.skipBlanks.rest = '"' :: r ∧
      readChars r (c0.skipBlanks.pos.next '"') .plain [] = .ok (s, d.val)) ∨
    (∃ (r : List Char) (items : Array Expr) (d' : NotBehind ⟨r, c0.skipBlanks.pos.next '['⟩),
      e = .list items.toList ∧ 1 < b ∧ c0.skipBlanks.rest = '[' :: r ∧
      readItems (b - 1) true ⟨r, c0.skipBlanks.pos.next '['⟩ #[] = .ok (items, d') ∧
      endList d'.val = .ok d.val) := by
  rw [readValue.eq_def] at h
  split at h
  split at h
  · simp [failAt] at h
  · rename_i x r hr
    dsimp only at h
    split_ifs at h with hn ht hf hm hd hq hb hbl hbr
    · split at h <;> simp [failAt] at h
    · split at h <;> simp [failAt] at h
    · split at h <;> simp [failAt] at h
    · subst hm
      split at h
      · rename_i v d' hv
        cases h
        exact .inl ⟨v, r, rfl, hr, hv⟩
      · cases h
    · split at h
      · rename_i v d' hv
        cases h
        exact .inr (.inl ⟨v, x, r, rfl, hr, hd, hv⟩)
      · cases h
    · subst hq
      split at h
      · rename_i s d' hv
        cases h
        exact .inr (.inr (.inl ⟨s, r, rfl, hr, hv⟩))
      · cases h
    · simp [failAt] at h
    · subst hb
      split at h
      · cases h
      · rename_i items d' hd' hi
        split at h
        · rename_i c' hend
          cases h
          exact .inr (.inr (.inr ⟨r, items, ⟨d', hd'⟩, rfl, by omega, hr, hi, hend⟩))
        · cases h
    · simp [failAt] at h
    · simp [failAt] at h
    · simp [failAt] at h

theorem readValue_eq_ok_head {e : Expr} {d : Ahead c0} (h : readValue b c0 = .ok (e, d)) :
    ∃ y r, c0.skipBlanks.rest = y :: r ∧ y ≠ ']' := by
  rcases readValue_eq_ok h with ⟨_, r, -, hr, -⟩ | ⟨_, y, r, -, hr, hy, -⟩ | ⟨_, r, -, hr, -⟩ |
      ⟨r, _, _, -, -, hr, -⟩
  · exact ⟨_, r, hr, by decide⟩
  · exact ⟨y, r, hr, by rintro rfl; revert hy; decide⟩
  · exact ⟨_, r, hr, by decide⟩
  · exact ⟨_, r, hr, by decide⟩

theorem readValue_skipBlanks {e : Expr} {d : Ahead c0} (h : readValue b c0 = .ok (e, d)) :
    ∃ d', readValue b c0.skipBlanks = .ok (e, d') ∧ d'.val = d.val := by
  have hidem := c0.skipBlanks_skipBlanks
  rcases readValue_eq_ok h with ⟨x, r, rfl, hr, hx⟩ | ⟨x, y, r, rfl, hr, hy, hx⟩ |
      ⟨s, r, rfl, hr, hs⟩ | ⟨r, items, d', rfl, hb, hr, hi, hend⟩
  · exact readValue_of_minus (by rw [hidem, hr]) (by rw [hidem]; exact hx)
  · exact readValue_of_digit (by rw [hidem, hr]) hy (by rw [hidem]; exact hx)
  · exact readValue_of_quote (by rw [hidem, hr]) (by rw [hidem]; exact hs)
  · -- the items are read from the same place, so the same proof of their place serves
    have key : ∀ c : Cursor, c = c0.skipBlanks → c.skipBlanks = c0.skipBlanks →
        ∃ d'' : Ahead c, readValue b c = .ok (.list items.toList, d'') ∧ d''.val = d.val := by
      rintro c rfl hc
      exact readValue_of_bracket (by rw [hc, hr]) hb (by rw [hc]; exact hi) hend
    exact key _ rfl hidem

/-! ## Items -/

theorem endList_of_close {c : Cursor} {r : List Char} (hrest : c.skipBlanks.rest = ']' :: r) :
    endList c = .ok ⟨r, c.skipBlanks.pos.next ']'⟩ := by
  simp [endList, hrest]

theorem readItems_of_close {first : Bool} {acc : Array Expr} {r : List Char}
    (hrest : c0.skipBlanks.rest = ']' :: r) :
    ∃ d, readItems b first c0 acc = .ok (acc, d) ∧ d.val = c0.skipBlanks := by
  rw [readItems.eq_def]
  split
  split
  · rename_i hr; rw [hr] at hrest; cases hrest
  · rename_i y r' hr
    rw [hr] at hrest
    obtain ⟨rfl, rfl⟩ := List.cons.inj hrest
    exact ⟨_, if_pos rfl, rfl⟩

theorem readItems_of_first {acc : Array Expr} {y : Char} {r : List Char} {e : Expr}
    {d' : Ahead c0.skipBlanks} {es : Array Expr} {d'' : NotBehind d'.val}
    (hrest : c0.skipBlanks.rest = y :: r) (hy : y ≠ ']')
    (he : readValue b c0.skipBlanks = .ok (e, d'))
    (hes : readItems b false d'.val (acc.push e) = .ok (es, d'')) :
    ∃ d, readItems b true c0 acc = .ok (es, d) ∧ d.val = d''.val := by
  rw [readItems.eq_def]
  split
  split
  · rename_i hr; rw [hr] at hrest; cases hrest
  · rename_i y' r' hr
    rw [hr] at hrest
    obtain ⟨rfl, rfl⟩ := List.cons.inj hrest
    simp only [hy, if_false, Bool.not_true, Bool.and_false, Bool.false_eq_true, if_true]
    split
    · rename_i e' d₁ hd₁ hv
      rw [he] at hv
      cases hv
      split
      · rename_i es' d₂ hd₂ hi
        rw [hes] at hi
        cases hi
        exact ⟨_, rfl, rfl⟩
      · rename_i err hi
        rw [hes] at hi
        cases hi
    · rename_i err hv
      rw [he] at hv
      cases hv

theorem readItems_of_comma {acc : Array Expr} {r : List Char} {y : Char} {r' : List Char}
    {e : Expr} {d' : Ahead (Cursor.skipBlanks ⟨r, c0.skipBlanks.pos.next ','⟩)}
    {es : Array Expr} {d'' : NotBehind d'.val} (hrest : c0.skipBlanks.rest = ',' :: r)
    (hrest' : (Cursor.skipBlanks ⟨r, c0.skipBlanks.pos.next ','⟩).rest = y :: r') (hy : y ≠ ']')
    (he : readValue b (Cursor.skipBlanks ⟨r, c0.skipBlanks.pos.next ','⟩) = .ok (e, d'))
    (hes : readItems b false d'.val (acc.push e) = .ok (es, d'')) :
    ∃ d, readItems b false c0 acc = .ok (es, d) ∧ d.val = d''.val := by
  rw [readItems.eq_def]
  split
  split
  · rename_i hr; rw [hr] at hrest; cases hrest
  · rename_i x r₀ hr
    rw [hr] at hrest
    obtain ⟨rfl, rfl⟩ := List.cons.inj hrest
    simp only [show (',' : Char) ≠ ']' by decide, if_false, Bool.not_false, Bool.and_true,
      decide_true, if_true]
    split
    · rename_i z hz; rw [hz] at hrest'; cases hrest'; exact absurd rfl hy
    · rename_i hz; rw [hz] at hrest'; cases hrest'
    · split
      · rename_i e' d₁ hd₁ hv
        rw [he] at hv
        cases hv
        split
        · rename_i es' d₂ hd₂ hi
          rw [hes] at hi
          cases hi
          exact ⟨_, rfl, rfl⟩
        · rename_i err hi
          rw [hes] at hi
          cases hi
      · rename_i err hv
        rw [he] at hv
        cases hv

/-- **What items that are read can be**: none more, or a value read from no further back and
the items after it. -/
theorem readItems_eq_ok {first : Bool} {acc es : Array Expr} {d : NotBehind c0}
    (h : readItems b first c0 acc = .ok (es, d)) :
    es = acc ∨ ∃ (c : Cursor) (e : Expr) (d' : Ahead c) (d'' : NotBehind d'.val),
      c.rest.length ≤ c0.rest.length ∧ readValue b c = .ok (e, d') ∧
      readItems b false d'.val (acc.push e) = .ok (es, d'') := by
  have hc := c0.length_skipBlanks_le
  rw [readItems.eq_def] at h
  split at h
  split at h
  · simp [failAt] at h
  · rename_i x r hr
    dsimp only at h
    split_ifs at h with hclose hcomma hfirst
    · cases h
      exact .inl rfl
    · split at h
      · simp [failAt] at h
      · simp [failAt] at h
      · split at h
        · rename_i e d' hd' hv
          split at h
          · rename_i es' d'' hd'' hi
            cases h
            refine .inr ⟨_, e, ⟨d', hd'⟩, ⟨d'', hd''⟩, ?_, hv, hi⟩
            -- the value after a comma is read from behind the comma
            have := Cursor.length_skipBlanks_le ⟨r, c0.skipBlanks.pos.next x⟩
            rw [hr] at hc
            simp only [List.length_cons] at hc this
            omega
          · cases h
        · cases h
    · split at h
      · rename_i e d' hd' hv
        split at h
        · rename_i es' d'' hd'' hi
          cases h
          exact .inr ⟨_, e, ⟨d', hd'⟩, ⟨d'', hd''⟩, hc, hv, hi⟩
        · cases h
      · cases h
    · simp [failAt] at h

end Values

end MiniLisp.Json
