import MiniLisp.Proofs.Binary.Arithmetic

/-! # Reading a decimal with `Float.ofScientific`

`Float.ofScientific D s k` is the double nearest to `D · 10^(∓k)`. For `D < 2^53` and `k ≤ 22`
both `D` and `10^k` are doubles and it divides or multiplies them once; otherwise it goes
through the model, after two guards against huge powers of ten. Either way it lands on the
double whose rounding interval holds the exact value:

* `powerOfTen_eq`: the table of powers of ten holds `10^k` exactly.
* `ofScientific_fast`, `ofScientific_model`: the two paths.
* `ofScientific_eq`: the nearest double, for every value that rounds to a finite double.
-/

namespace MiniLisp.Decimal

open Float.Model Float.Model.UnpackedFloat MiniLisp.Binary

variable {m : ℕ} {q : ℤ} {V : ℚ}

/-! ## The operands -/

/-- The mantissa of `10^k` for `k ≤ 22`: `5^k` shifted into `[2^52, 2^53)`. -/
def tenMantissa (k : ℕ) : ℕ := 5 ^ k <<< (52 - (5 ^ k).log2)

/-- The exponent that goes with `tenMantissa k`. -/
def tenExponent (k : ℕ) : ℤ := k - (52 - (5 ^ k).log2 : ℕ)

theorem tenMantissa_pos (k : ℕ) : 0 < tenMantissa k := by
  rw [tenMantissa, Nat.shiftLeft_eq]
  positivity

theorem tenMantissa_value (k : ℕ) : (tenMantissa k : ℚ) * 2 ^ tenExponent k = 10 ^ k := by
  rw [tenMantissa, tenExponent, Nat.shiftLeft_eq]
  push_cast
  rw [zpow_sub₀ two_ne_zero, zpow_natCast, zpow_natCast]
  field_simp
  rw [show (10 : ℚ) = 5 * 2 by norm_num, mul_pow]

theorem powersOfTen_parts : ∀ k < 23, (Float.exactlyRepresentablePowersOfTen[k]?).map Parts.ofFloat =
    some (.finite false (tenMantissa k) (tenExponent k)) := by
  decide

/-- The table entry for `10^k` is the packing of `10^k`. -/
theorem powerOfTen_eq {k : ℕ} (hk : k < 23) (h : k < Float.exactlyRepresentablePowersOfTen.size) :
    Canonical (tenMantissa k) (tenExponent k) ∧ Float.exactlyRepresentablePowersOfTen[k] =
      Float.ofModel (pack (.finite .positive (tenMantissa k) (tenExponent k) (tenMantissa_pos k))) := by
  have hparts := powersOfTen_parts k hk
  rw [Array.getElem?_eq_getElem h, Option.map_some, Option.some_inj] at hparts
  exact eq_ofModel_pack hparts (tenMantissa_pos k)

theorem toFloat_toUInt64_eq {n : ℕ} (hn : 0 < n) (hlt : n < 2 ^ 53) :
    n.toUInt64.toFloat = Float.ofModel (pack (.finite .positive (n <<< (52 - n.log2))
      (-((52 - n.log2 : ℕ) : ℤ)) (canonical_shiftLeft hn hlt).pos)) := by
  have hn64 : n.toUInt64.toNat = n := by
    rw [Nat.toUInt64_eq, UInt64.toNat_ofNat', Nat.mod_eq_of_lt (by omega)]
  show Float.ofModel (pack (UnpackedFloat.ofNat .binary64 n.toUInt64.toNat)) = _
  rw [hn64, ofNat_eq hn hlt]

theorem shiftLeft_value (n : ℕ) :
    ((n <<< (52 - n.log2) : ℕ) : ℚ) * 2 ^ (-((52 - n.log2 : ℕ) : ℤ)) = n := by
  rw [Nat.shiftLeft_eq]
  push_cast
  rw [zpow_neg, zpow_natCast]
  field_simp

/-! ## The fast path -/

/-- With `D < 2^53` and `k ≤ 22` both `D` and `10^k` are doubles, and one multiplication or
division rounds the exact value. -/
theorem ofScientific_fast {D k : ℕ} {s : Bool} (hD : 0 < D) (h : D < 2 ^ 53 ∧ k ≤ 22)
    (hm : Canonical m q) (hr : RoundsTo (D * 10 ^ (if s then -(k : ℤ) else k)) m q) :
    Float.ofScientific D s k = Float.ofModel (pack (.finite .positive m q hm.pos)) := by
  have hk : k < Float.exactlyRepresentablePowersOfTen.size := by
    simp only [Float.exactlyRepresentablePowersOfTen, List.size_toArray, List.length_cons,
      List.length_nil]
    omega
  obtain ⟨hten, htable⟩ := powerOfTen_eq (by omega : k < 23) hk
  have hD' := canonical_shiftLeft hD h.1
  unfold Float.ofScientific
  rw [dif_pos h, toFloat_toUInt64_eq hD h.1, htable]
  cases s with
  | true =>
    -- one division, `D / 10^k`
    have hV : (D : ℚ) * 10 ^ (-(k : ℤ)) = ((D <<< (52 - D.log2) : ℕ) : ℚ) *
        2 ^ (-((52 - D.log2 : ℕ) : ℤ)) / (tenMantissa k * 2 ^ tenExponent k) := by
      rw [shiftLeft_value, tenMantissa_value, zpow_neg, zpow_natCast, div_eq_mul_inv]
    simp only [if_true, hV] at hr
    show Float.ofModel (Float.Model.pack (UnpackedFloat.div .binary64
      (Float.Model.pack _).unpack (Float.Model.pack _).unpack)) = _
    rw [unpack_pack_finite hD', unpack_pack_finite hten,
      div_finite_eq (canonical_shiftLeft hD h.1).pos (tenMantissa_pos k) hm hr]
    rfl
  | false =>
    -- one multiplication, `D · 10^k`
    have hV : (D : ℚ) * 10 ^ (k : ℤ) = ((D <<< (52 - D.log2) : ℕ) : ℚ) *
        2 ^ (-((52 - D.log2 : ℕ) : ℤ)) * (tenMantissa k * 2 ^ tenExponent k) := by
      rw [shiftLeft_value, tenMantissa_value, zpow_natCast]
    simp only [Bool.false_eq_true, if_false, hV] at hr
    have hbig : 2 ^ 52 ≤ (D <<< (52 - D.log2)) * tenMantissa k :=
      le_trans (two_pow_le_shiftLeft hD) (Nat.le_mul_of_pos_right _ (tenMantissa_pos k))
    show Float.ofModel (Float.Model.pack (UnpackedFloat.mul .binary64
      (Float.Model.pack _).unpack (Float.Model.pack _).unpack)) = _
    rw [unpack_pack_finite hD', unpack_pack_finite hten,
      mul_finite_eq (canonical_shiftLeft hD h.1).pos (tenMantissa_pos k) hbig hm hr]
    rfl

/-! ## Through the model -/

theorem two_zpow_le_ten_zpow {e : ℤ} (he : 0 ≤ e) : (2 : ℚ) ^ e ≤ 10 ^ e :=
  zpow_le_zpow_left₀ he (by norm_num) (by norm_num)

theorem ten_zpow_le_two_zpow {e : ℤ} (he : e ≤ 0) : (10 : ℚ) ^ e ≤ 2 ^ e := by
  have h := two_zpow_le_ten_zpow (show 0 ≤ -e by omega)
  rw [zpow_neg, zpow_neg] at h
  exact (inv_le_inv₀ (two_zpow_pos e) (zpow_pos (by norm_num) e)).1 h

/-- Through the model, a value that rounds to a finite double is not cut off by the guards
against huge powers of ten, and one multiplication or division rounds it. -/
theorem ofScientific_model {D : ℕ} {e : ℤ} (hD : 0 < D) (hm : Canonical m q)
    (hr : RoundsTo (D * 10 ^ e) m q) :
    UnpackedFloat.ofScientific .binary64 D e = .finite .positive m q hm.pos := by
  have hlo := hr.two_zpow_le hm
  have hhi := hr.lt_two_zpow hm
  have hq := hm.least
  have hq' := hm.greatest
  have hD1 : (1 : ℚ) ≤ D := by exact_mod_cast hD
  unfold UnpackedFloat.ofScientific
  rw [dif_neg hD.ne']
  -- a value at most `2^1024` has no exponent above `2048`
  have hbig : ¬ e > 2 ^ Format.binary64.exponentBits := by
    intro he
    have he' : (2049 : ℤ) ≤ e := by
      simp only at he
      omega
    have : (2 : ℚ) ^ (53 + q) < 2 ^ (53 + q) :=
      calc (2 : ℚ) ^ (53 + q) ≤ 2 ^ e := zpow_le_zpow_right₀ one_le_two (by omega)
        _ ≤ 10 ^ e := two_zpow_le_ten_zpow (by omega)
        _ ≤ D * 10 ^ e := le_mul_of_one_le_left (zpow_pos (by norm_num) e).le hD1
        _ < 2 ^ (53 + q) := hhi
    exact lt_irrefl _ this
  -- a value at least `2^-1075` has no exponent below `-(2048 + log₂ D)`
  have hsmall : ¬ e < -((2 : ℤ) ^ Format.binary64.exponentBits + D.log2) := by
    intro he
    have he' : e + D.log2 + 1 ≤ -2048 := by
      simp only at he
      omega
    have hDlt : (D : ℚ) < 2 ^ ((D.log2 : ℤ) + 1) := by
      have h : (D : ℚ) < 2 ^ (D.log2 + 1) := by exact_mod_cast Nat.lt_log2_self
      rw [← zpow_natCast] at h
      exact_mod_cast h
    have : (2 : ℚ) ^ (q - 1) < 2 ^ (q - 1) :=
      calc (2 : ℚ) ^ (q - 1) ≤ D * 10 ^ e := hlo
        _ ≤ D * 2 ^ e := by gcongr; exact ten_zpow_le_two_zpow (by omega)
        _ < 2 ^ ((D.log2 : ℤ) + 1) * 2 ^ e := by gcongr
        _ = 2 ^ (e + D.log2 + 1) := by
          rw [← zpow_add₀ two_ne_zero]
          ring_nf
        _ ≤ 2 ^ (q - 1) := zpow_le_zpow_right₀ one_le_two (by omega)
    exact lt_irrefl _ this
  rw [if_neg hbig, if_neg hsmall]
  split
  · -- `D · 2^53 · 2^-53 · 10^e`: one multiplication
    rename_i he
    have hV : (D : ℚ) * 10 ^ e = ((D <<< Format.binary64.mantissaBits : ℕ) : ℚ) *
        2 ^ (-(Format.binary64.mantissaBits : ℤ)) * ((10 ^ e.toNat : ℕ) * 2 ^ (0 : ℤ)) := by
      have hten : ((10 : ℚ) ^ e.toNat) = 10 ^ e := by
        rw [← zpow_natCast, Int.toNat_of_nonneg he]
      rw [Nat.shiftLeft_eq]
      push_cast
      rw [mul_one, hten, zpow_neg, zpow_natCast]
      field_simp
    rw [hV] at hr
    have hbig' : 2 ^ 52 ≤ (D <<< Format.binary64.mantissaBits) * 10 ^ e.toNat := by
      rw [Nat.shiftLeft_eq]
      calc 2 ^ 52 ≤ 2 ^ Format.binary64.mantissaBits := Nat.pow_le_pow_right (by norm_num) (by decide)
        _ ≤ D * 2 ^ Format.binary64.mantissaBits := Nat.le_mul_of_pos_left _ hD
        _ ≤ _ := Nat.le_mul_of_pos_right _ (by positivity)
    exact mul_finite_eq _ _ hbig' hm hr _ _
  · -- `D / 10^-e`: one division
    rename_i he
    have hV : (D : ℚ) * 10 ^ e = D * 2 ^ (0 : ℤ) / ((10 ^ (-e).toNat : ℕ) * 2 ^ (0 : ℤ)) := by
      have hten : ((10 : ℚ) ^ (-e).toNat) = 10 ^ (-e) := by
        rw [← zpow_natCast, Int.toNat_of_nonneg (by omega)]
      push_cast
      rw [mul_one, mul_one, hten, zpow_neg, div_eq_mul_inv, inv_inv]
    rw [hV] at hr
    exact div_finite_eq _ _ hm hr _ _

/-! ## The nearest double -/

/-- **`Float.ofScientific` reads a decimal to the nearest double:** whenever `D · 10^(∓k)`
rounds to the finite positive double `m · 2^q`, that double is what it returns. -/
theorem ofScientific_eq {D k : ℕ} {s : Bool} (hm : Canonical m q)
    (hr : RoundsTo (D * 10 ^ (if s then -(k : ℤ) else k)) m q) :
    Float.ofScientific D s k = Float.ofModel (pack (.finite .positive m q hm.pos)) := by
  -- a value that rounds to a positive double is positive, so `D` is not zero
  have hD : 0 < D := by
    rcases Nat.eq_zero_or_pos D with rfl | hD
    · have h := hr.two_zpow_le hm
      rw [Nat.cast_zero, zero_mul] at h
      exact absurd h (not_le.2 (two_zpow_pos _))
    · exact hD
  by_cases h : D < 2 ^ 53 ∧ k ≤ 22
  · exact ofScientific_fast hD h hm hr
  · unfold Float.ofScientific
    rw [dif_neg h]
    have he : (if s then Int.negOfNat k else Int.ofNat k) = (if s then -(k : ℤ) else k) := by
      cases s <;> simp [Int.negOfNat_eq]
    show Float.ofModel (Float.Model.pack (UnpackedFloat.ofScientific .binary64 D _)) = _
    rw [he, ofScientific_model hD hm hr]

end MiniLisp.Decimal
