import MiniLisp.Proofs.Decimal.Scientific
import MiniLisp.Proofs.Decimal.Shortest
import MiniLisp.Syntax.Reader

/-! # The number text reads back

The language writes a double as the shortest decimal that reads back, always positionally, and
reads a numeric word back through `Literal.parse?` and `Literal.toFloat`. On finite doubles the
two are inverse, bit for bit, the sign of zero included.

* `layoutPositional_toList`: the three shapes of a positional decimal (digits and zeros, a
  point among the digits, `0.` and zeros before them).
* `parse?_positional`: a literal of digits with an optional point, read.
* `Literal.toFloat_eq`: a literal whose value rounds to `m · 2^q` reads as that double.
* `readNumber?_showNumber`: every finite double is read back from its text.
* `isWordChar_of_mem_showNumber`, `looksNumeric_showNumber`: that text is one numeric word.
-/

namespace MiniLisp.Decimal

open Float.Model Float.Model.UnpackedFloat MiniLisp.Binary

variable {m : ℕ} {q : ℤ}

/-! ## Digits -/

theorem digitsValue_eq (l : List Char) : digitsValue l = Nat.ofDigitChars 10 l 0 := rfl

theorem digitsValue_toString (d : ℕ) : digitsValue (toString d).toList = d := by
  simp [digitsValue_eq]

theorem isDigit_of_mem_toString {d : ℕ} {c : Char} (h : c ∈ (toString d).toList) : c.isDigit := by
  simp only [Nat.toString_eq_repr, Nat.toList_repr] at h
  exact Nat.isDigit_of_mem_toDigits (by decide) (by decide) h

theorem toString_toList_ne_nil (d : ℕ) : (toString d).toList ≠ [] := by
  simp [Nat.toDigits_ne_nil]

theorem digitsValue_zeros_append (n : ℕ) (l : List Char) :
    digitsValue (List.replicate n '0' ++ l) = digitsValue l := by
  simp [digitsValue_eq, Nat.ofDigitChars_append]

theorem digitsValue_append_zeros (l : List Char) (n : ℕ) :
    digitsValue (l ++ List.replicate n '0') = 10 ^ n * digitsValue l := by
  simp [digitsValue_eq, Nat.ofDigitChars_append]

/-! ## Reading a positional decimal -/

theorem toList_zeros (n : ℕ) : (zeros n).toList = List.replicate n '0' := by
  simp [zeros]

/-- A positional decimal is the digits and zeros, the digits with a point among them, or `0.`,
zeros and the digits. -/
theorem layoutPositional_toList (s : String) (g : ℤ) :
    (0 ≤ g ∧ (layoutPositional false s g).toList = s.toList ++ List.replicate g.toNat '0') ∨
    (g < 0 ∧ 0 < (s.length : ℤ) + g ∧ (layoutPositional false s g).toList =
      s.toList.take ((s.length : ℤ) + g).toNat ++ '.' :: s.toList.drop ((s.length : ℤ) + g).toNat) ∨
    ((s.length : ℤ) + g ≤ 0 ∧ (layoutPositional false s g).toList =
      ['0'] ++ '.' :: (List.replicate (-((s.length : ℤ) + g)).toNat '0' ++ s.toList)) := by
  unfold layoutPositional
  by_cases hg : 0 ≤ g
  · left
    simp [hg, String.toList_append, toList_zeros]
  by_cases hp : 0 < (s.length : ℤ) + g
  · right; left
    simp [hg, hp, String.toList_append]
    omega
  · right; right
    simp [hg, hp, String.toList_append, toList_zeros]
    omega

theorem spanDigits_append {ws : List Char} (hws : ∀ c ∈ ws, c.isDigit) (rest : List Char)
    (hrest : ∀ c ∈ rest.head?, c.isDigit = false) : spanDigits (ws ++ rest) = (ws, rest) := by
  unfold spanDigits
  rw [List.takeWhile_append_of_pos hws, List.dropWhile_append_of_pos hws]
  cases rest with
  | nil => simp
  | cons c r =>
    have hc : c.isDigit = false := hrest c (by simp)
    simp [hc]

theorem parse?_unsigned {c : Char} {cs : List Char} (hc : c.isDigit) :
    Literal.parse? (String.ofList (c :: cs)) = Literal.parse? (String.ofList ('+' :: c :: cs)) := by
  unfold Literal.parse?
  simp only [String.toList_ofList]
  split
  · next h => cases h; simp at hc
  · next h => cases h; simp at hc
  · rfl

/-- A positional literal: digits, then an optional point and more digits. -/
theorem parse?_positional (neg : Bool) (ws fs : List Char) {text : List Char}
    (hws : ∀ c ∈ ws, c.isDigit) (hne : ws ≠ []) (hfs : ∀ c ∈ fs, c.isDigit)
    (htext : text = ws ∧ fs = [] ∨ text = ws ++ '.' :: fs) :
    Literal.parse? (String.ofList ((if neg then ['-'] else []) ++ text)) =
      some ⟨neg, digitsValue (ws ++ fs), -(fs.length : ℤ)⟩ := by
  obtain ⟨c, r, rfl⟩ := List.exists_cons_of_ne_nil hne
  have hc : c.isDigit := hws c (by simp)
  have hfrac : spanDigits fs = (fs, []) := by
    simpa using spanDigits_append hfs [] (by simp)
  have hsign : Literal.parse? (String.ofList ((if neg then ['-'] else []) ++ text)) =
      Literal.parse? (String.ofList ((if neg then '-' else '+') :: text)) := by
    cases neg
    · rw [if_neg Bool.false_ne_true, if_neg Bool.false_ne_true, List.nil_append]
      rcases htext with ⟨rfl, -⟩ | rfl <;> exact parse?_unsigned hc
    · rw [if_pos rfl, if_pos rfl, List.singleton_append]
  rw [hsign]
  unfold Literal.parse?
  rcases htext with ⟨rfl, rfl⟩ | rfl
  · have hspan := spanDigits_append hws [] (by simp)
    cases neg <;> simp_all [exponentPart?]
  · have hspan := spanDigits_append hws ('.' :: fs) (by simp)
    cases neg <;> simp_all [exponentPart?]

theorem sign_append_eq (neg : Bool) (t : String) :
    (if neg then "-" else "") ++ t = String.ofList ((if neg then ['-'] else []) ++ t.toList) := by
  rw [← String.toList_inj]
  cases neg <;> simp [String.toList_append]

/-- A positional decimal reads as a literal of the same sign and value. -/
theorem parse?_layoutPositional (neg : Bool) (d : ℕ) (g : ℤ) :
    ∃ l : Literal,
      Literal.parse? ((if neg then "-" else "") ++ layoutPositional false (toString d) g) = some l ∧
      l.negative = neg ∧ (l.digits : ℚ) * 10 ^ l.exponent = d * 10 ^ g := by
  have hdig : ∀ c ∈ (toString d).toList, c.isDigit := fun c h => isDigit_of_mem_toString h
  have hne := toString_toList_ne_nil d
  have hval := digitsValue_toString d
  have hlen : (toString d).length = (toString d).toList.length := String.length_toList.symm
  rw [sign_append_eq]
  rcases layoutPositional_toList (toString d) g with ⟨hg, hl⟩ | ⟨hg, hp, hl⟩ | ⟨hp, hl⟩
  · -- the digits and `g` zeros, read whole
    have hws : ∀ c ∈ (toString d).toList ++ List.replicate g.toNat '0', c.isDigit := by
      intro c hc
      rcases List.mem_append.1 hc with hc | hc
      · exact hdig c hc
      · rw [List.eq_of_mem_replicate hc]
        rfl
    refine ⟨_, parse?_positional neg _ [] hws (by simp) (by simp) (.inl ⟨hl, rfl⟩),
      rfl, ?_⟩
    rw [List.append_nil, digitsValue_append_zeros, hval, List.length_nil, Nat.cast_zero, neg_zero,
      zpow_zero, mul_one]
    push_cast
    rw [← zpow_natCast, Int.toNat_of_nonneg hg, mul_comm]
  · -- a point among the digits
    set p := ((toString d).length + g).toNat with hpdef
    have hws : ∀ c ∈ (toString d).toList.take p, c.isDigit :=
      fun c hc => hdig c (List.mem_of_mem_take hc)
    have hfs : ∀ c ∈ (toString d).toList.drop p, c.isDigit :=
      fun c hc => hdig c (List.mem_of_mem_drop hc)
    have hws0 : (toString d).toList.take p ≠ [] := by
      simp only [ne_eq, List.take_eq_nil_iff, not_or]
      exact ⟨by omega, hne⟩
    refine ⟨_, parse?_positional neg _ _ hws hws0 hfs (.inr hl), rfl, ?_⟩
    dsimp only
    rw [List.take_append_drop, hval, List.length_drop]
    congr 2
    omega
  · -- `0.`, zeros, then the digits
    set k := (-((toString d).length + g)).toNat with hkdef
    have hfs : ∀ c ∈ List.replicate k '0' ++ (toString d).toList, c.isDigit := by
      intro c hc
      rcases List.mem_append.1 hc with hc | hc
      · rw [List.eq_of_mem_replicate hc]
        rfl
      · exact hdig c hc
    refine ⟨_, parse?_positional neg ['0'] _ (by simp) (by simp) hfs (.inr hl), rfl, ?_⟩
    dsimp only
    rw [← List.append_assoc, List.singleton_append, ← List.replicate_succ, digitsValue_zeros_append, hval,
      List.length_append, List.length_replicate]
    congr 2
    omega

/-! ## The double a literal reads as -/

/-- A literal whose value rounds to `m · 2^q` reads as that double, with the literal's sign. -/
theorem Literal.toFloat_eq {l : Literal} (hm : Canonical m q)
    (hr : RoundsTo (l.digits * 10 ^ l.exponent) m q) :
    l.toFloat = Float.ofModel (pack (.finite (signOf l.negative) m q hm.pos)) := by
  have hmag : (if l.exponent < 0 then Float.ofScientific l.digits true l.exponent.natAbs
      else Float.ofScientific l.digits false l.exponent.natAbs) =
        Float.ofModel (pack (.finite .positive m q hm.pos)) := by
    split
    · refine ofScientific_eq hm ?_
      rwa [if_pos rfl, show -(l.exponent.natAbs : ℤ) = l.exponent by omega]
    · refine ofScientific_eq hm ?_
      rwa [if_neg Bool.false_ne_true, show (l.exponent.natAbs : ℤ) = l.exponent by omega]
  unfold Literal.toFloat
  rw [hmag]
  cases l.negative
  · rfl
  · rw [if_pos rfl, neg_ofModel_pack (unpack_pack_finite hm _)]
    rfl

end MiniLisp.Decimal

namespace MiniLisp

open Float.Model Float.Model.UnpackedFloat MiniLisp.Binary MiniLisp.Decimal

/-! ## The round trip -/

theorem Binary.Parts.exists_finite_of_isFinite {x : Float} (hx : x.isFinite = true) :
    ∃ negative m q, Parts.ofFloat x = .finite negative m q := by
  rw [Parts.ofFloat_eq]
  change x.toModel.unpack.isFinite = true at hx
  cases hu : x.toModel.unpack with
  | notANumber => rw [hu] at hx; cases hx
  | infinity s => rw [hu] at hx; cases hx
  | zero s => exact ⟨_, _, _, rfl⟩
  | finite s m q _ => exact ⟨_, _, _, rfl⟩

/-- The text of a finite double: its sign, then `0` or the shortest decimal laid out
positionally. -/
theorem showNumber_eq {x : Float} {negative : Bool} {m : ℕ} {q : ℤ}
    (h : Parts.ofFloat x = .finite negative m q) :
    showNumber x = (if negative then "-" else "") ++
      (if m = 0 then "0" else layoutPositional false (toString (shortest .up m q).1) (shortest .up m q).2) := by
  simp only [showNumber, Notation.render, h, numberText, Bool.false_eq_true, ↓reduceIte,
    String.append_empty]
  split_ifs <;> rfl

theorem readNumber?_of_parse? {w : String} {l : Literal} (h : Literal.parse? w = some l)
    (hf : l.toFloat.isFinite = true) : readNumber? w = some l.toFloat := by
  simp [readNumber?, h, hf]

/-- **The number text reads back**: every finite double is read back from its text, bit for
bit, the sign of zero included. -/
theorem readNumber?_showNumber {x : Float} (hx : x.isFinite = true) :
    readNumber? (showNumber x) = some x := by
  obtain ⟨negative, m, q, h⟩ := Parts.exists_finite_of_isFinite hx
  rw [showNumber_eq h]
  rcases Nat.eq_zero_or_pos m with rfl | hm
  · -- a signed zero is written `0` or `-0`
    rw [if_pos rfl, eq_ofModel_pack_zero h]
    have hparse : Literal.parse? ((if negative then "-" else "") ++ "0") = some ⟨negative, 0, 0⟩ := by
      have hzero : "0".toList = ['0'] := by decide
      rw [sign_append_eq, hzero]
      exact parse?_positional negative ['0'] [] (by simp) (by simp) (by simp)
        (.inl ⟨rfl, rfl⟩)
    rw [readNumber?_of_parse? hparse]
    · cases negative <;> rfl
    · cases negative <;> rfl
  · obtain ⟨hcan, rfl⟩ := eq_ofModel_pack h hm
    obtain ⟨l, hl, hneg, hval⟩ := parse?_layoutPositional negative (shortest .up m q).1 (shortest .up m q).2
    have hr := shortest_roundsTo hcan .up
    rw [← hval] at hr
    have hfloat := Literal.toFloat_eq hcan hr
    rw [hneg] at hfloat
    rw [if_neg hm.ne', readNumber?_of_parse? hl, hfloat]
    rw [hfloat, isFinite_ofModel_pack (unpack_pack_finite hcan _)]
    rfl

/-! ## The number text is a numeric word -/

theorem layoutPositional_shape (d : ℕ) (g : ℤ) :
    ∃ c cs, (layoutPositional false (toString d) g).toList = c :: cs ∧ c.isDigit ∧
      ∀ c' ∈ cs, c'.isDigit ∨ c' = '.' := by
  have hdig : ∀ c ∈ (toString d).toList, c.isDigit := fun c h => isDigit_of_mem_toString h
  obtain ⟨c, r, hs⟩ := List.exists_cons_of_ne_nil (toString_toList_ne_nil d)
  have hc : c.isDigit := hdig c (by rw [hs]; exact List.mem_cons_self)
  have hr : ∀ c' ∈ r, c'.isDigit := fun c' h => hdig c' (by rw [hs]; exact List.mem_cons_of_mem _ h)
  rcases layoutPositional_toList (toString d) g with ⟨-, hl⟩ | ⟨-, hp, hl⟩ | ⟨-, hl⟩
  · refine ⟨c, r ++ List.replicate g.toNat '0', by rw [hl, hs, List.cons_append], hc, ?_⟩
    intro c' hc'
    rcases List.mem_append.1 hc' with h | h
    · exact .inl (hr c' h)
    · exact .inl (by rw [List.eq_of_mem_replicate h]; rfl)
  · obtain ⟨p, hp'⟩ : ∃ p, ((toString d).length + g).toNat = p + 1 := ⟨_, (Nat.succ_pred_eq_of_pos (by omega)).symm⟩
    refine ⟨c, r.take p ++ '.' :: r.drop p, by rw [hl, hp', hs, List.take_succ_cons, List.drop_succ_cons, List.cons_append], hc, ?_⟩
    intro c' hc'
    simp only [List.mem_append, List.mem_cons] at hc'
    rcases hc' with h | rfl | h
    · exact .inl (hr c' (List.mem_of_mem_take h))
    · exact .inr rfl
    · exact .inl (hr c' (List.mem_of_mem_drop h))
  · refine ⟨'0', '.' :: (List.replicate _ '0' ++ (toString d).toList), hl, rfl, ?_⟩
    intro c' hc'
    simp only [List.mem_cons, List.mem_append] at hc'
    rcases hc' with rfl | h | h
    · exact .inr rfl
    · exact .inl (by rw [List.eq_of_mem_replicate h]; rfl)
    · exact .inl (hdig c' h)

theorem showNumber_shape {x : Float} (hx : x.isFinite = true) :
    ∃ (neg : Bool) (c : Char) (cs : List Char),
      (showNumber x).toList = (if neg then ['-'] else []) ++ c :: cs ∧ c.isDigit ∧
        ∀ c' ∈ cs, c'.isDigit ∨ c' = '.' := by
  obtain ⟨negative, m, q, h⟩ := Parts.exists_finite_of_isFinite hx
  rw [showNumber_eq h, sign_append_eq, String.toList_ofList]
  by_cases hm : m = 0
  · refine ⟨negative, '0', [], ?_, rfl, by simp⟩
    rw [if_pos hm, show "0".toList = ['0'] by decide]
  · obtain ⟨c, cs, hl, hc, hcs⟩ := layoutPositional_shape (shortest .up m q).1 (shortest .up m q).2
    exact ⟨negative, c, cs, by rw [if_neg hm, hl], hc, hcs⟩

theorem isWordChar_of_isDigit {c : Char} (h : c.isDigit) : Token.isWordChar c := by
  simp [Token.isWordChar, Char.isAlphanum, h]

theorem isWordChar_of_mem_showNumber {x : Float} (hx : x.isFinite = true) {c : Char}
    (hc : c ∈ (showNumber x).toList) : Token.isWordChar c := by
  obtain ⟨neg, c₀, cs, hl, hc₀, hcs⟩ := showNumber_shape hx
  rw [hl] at hc
  simp only [List.mem_append, List.mem_cons] at hc
  rcases hc with h | rfl | h
  · split at h
    · rw [List.mem_singleton.1 h]
      simp [Token.isWordChar]
    · cases h
  · exact isWordChar_of_isDigit hc₀
  · rcases hcs c h with h | rfl
    · exact isWordChar_of_isDigit h
    · simp [Token.isWordChar]

theorem showNumber_toList_ne_nil {x : Float} (hx : x.isFinite = true) :
    (showNumber x).toList ≠ [] := by
  obtain ⟨neg, c₀, cs, hl, -, -⟩ := showNumber_shape hx
  simp [hl]

theorem looksNumeric_showNumber {x : Float} (hx : x.isFinite = true) :
    looksNumeric (showNumber x) = true := by
  obtain ⟨neg, c₀, cs, hl, hc₀, -⟩ := showNumber_shape hx
  unfold looksNumeric
  rw [hl]
  cases neg
  · simp [hc₀]
  · simp [hc₀]

end MiniLisp
