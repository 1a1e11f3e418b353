import MiniLisp.Proofs.Binary.Packing

/-! # Correctly rounded products, quotients and conversions

The model multiplies two finite values exactly and rounds once. It divides by a long division
that keeps enough quotient bits (fewer at the bottom of the range) and an `Accuracy` for the
remainder, and rounds once. With `roundWithAccuracy_eq` both land on the double whose rounding
interval holds the exact result:

* `mul_finite_eq`: the product of two finite values whose mantissas multiply to `2^52` or more.
* `describes_div`, `divCore_spec`, `div_finite_eq`: the quotient of two finite values.
* `ofNat_eq`: an integer below `2^53` converts exactly, shifted up into `[2^52, 2^53)`.
-/

namespace MiniLisp.Binary

open Float.Model Float.Model.UnpackedFloat

variable {m : ℕ} {q : ℤ}

/-! ## Products -/

theorem mul_finite_eq {m₁ m₂ : ℕ} {e₁ e₂ : ℤ} (h₁ : 0 < m₁) (h₂ : 0 < m₂)
    (hbig : 2 ^ 52 ≤ m₁ * m₂) (hm : Canonical m q)
    (hr : RoundsTo (m₁ * 2 ^ e₁ * (m₂ * 2 ^ e₂)) m q) (s₁ s₂ : Sign) :
    mul .binary64 (.finite s₁ m₁ e₁ h₁) (.finite s₂ m₂ e₂ h₂) = .finite (s₁ * s₂) m q hm.pos := by
  have hlog : 52 ≤ (m₁ * m₂).log2 := (Nat.le_log2 (by positivity)).2 hbig
  refine roundWithAccuracy_eq ?_ ?_ hm hr _
  · -- the product is exact
    simp only [Describes]
    push_cast
    rw [zpow_add₀ two_ne_zero]
    field_simp
  · simp only [targetExponent_binary64, totalExponent]
    omega

/-! ## Quotients -/

/-- The long division of `N` by `d`: its quotient, exact or with the remainder placed against
one half. -/
theorem describes_div (N d : ℕ) (hd : 0 < d) :
    Describes (accuracyOfFraction (N % d) d) (N / d) ((N : ℚ) / d) := by
  have hd' : (0 : ℚ) < d := by exact_mod_cast hd
  have hsplit : (N : ℚ) / d = (N / d : ℕ) + ((N % d : ℕ) : ℚ) / d := by
    field_simp
    exact_mod_cast (Nat.div_add_mod N d).symm
  have hr : N % d < d := Nat.mod_lt N hd
  rw [hsplit]
  unfold accuracyOfFraction
  split
  · -- no remainder: the quotient is exact
    rename_i h0
    simp [Describes, h0]
  · rename_i h0
    have hr1 : ((N % d : ℕ) : ℚ) / d < 1 := by
      rw [div_lt_one hd']
      exact_mod_cast hr
    have hr0 : 0 < ((N % d : ℕ) : ℚ) / d :=
      div_pos (by exact_mod_cast Nat.pos_of_ne_zero h0) hd'
    refine ⟨by linarith, by linarith, ?_⟩
    -- the remainder against one half is `2 · (N % d)` against `d`
    have hhalf : ((N % d : ℕ) : ℚ) / d - 1 / 2 = ((2 * (N % d) : ℕ) - d : ℚ) / (2 * d) := by
      push_cast
      field_simp
    rcases Nat.lt_trichotomy (2 * (N % d)) d with hlt | heq | hgt
    · rw [Nat.compare_eq_lt.2 hlt, compare_lt_iff_lt]
      have : ((2 * (N % d) : ℕ) - d : ℚ) < 0 := by
        have : ((2 * (N % d) : ℕ) : ℚ) < d := by exact_mod_cast hlt
        linarith
      have : ((2 * (N % d) : ℕ) - d : ℚ) / (2 * d) < 0 := div_neg_of_neg_of_pos this (by positivity)
      linarith
    · rw [Nat.compare_eq_eq.2 heq, compare_eq_iff_eq]
      have : ((2 * (N % d) : ℕ) - d : ℚ) = 0 := by
        rw [heq]
        exact sub_self _
      rw [this, zero_div] at hhalf
      linarith
    · rw [Nat.compare_eq_gt.2 hgt, compare_gt_iff_gt]
      have : (0 : ℚ) < (2 * (N % d) : ℕ) - d := by
        have : (d : ℚ) < ((2 * (N % d) : ℕ) : ℚ) := by exact_mod_cast hgt
        linarith
      have : 0 < ((2 * (N % d) : ℕ) - d : ℚ) / (2 * d) := div_pos this (by positivity)
      linarith

/-- What `divCore` returns: a quotient with the accuracy of the exact ratio, at an exponent
that leaves rounding room. -/
theorem divCore_spec {m₁ m₂ : ℕ} (e₁ e₂ : ℤ) (h₁ : 0 < m₁) (h₂ : 0 < m₂) :
    let r := divCore .binary64 m₁ e₁ m₂ e₂
    Describes r.2.2 r.1 (m₁ * 2 ^ e₁ / (m₂ * 2 ^ e₂) / 2 ^ r.2.1) ∧
      r.2.1 ≤ Format.binary64.targetExponent (totalExponent r.1 r.2.1) := by
  set E := min (e₁ - e₂)
    (Format.binary64.targetExponent (totalExponent m₁ e₁ - totalExponent m₂ e₂)) with hE
  set sh := (e₁ - e₂ - E).toNat
  have hsh : (sh : ℤ) = e₁ - e₂ - E := Int.toNat_of_nonneg (by omega)
  -- in units of `2^E` the exact ratio is `m₁ · 2^sh / m₂`
  have hu : (m₁ : ℚ) * 2 ^ e₁ / (m₂ * 2 ^ e₂) / 2 ^ E = ((m₁ <<< sh : ℕ) : ℚ) / m₂ := by
    have hpow : (2 : ℚ) ^ sh = 2 ^ e₁ / 2 ^ e₂ / 2 ^ E := by
      rw [← zpow_natCast, hsh, zpow_sub₀ two_ne_zero, zpow_sub₀ two_ne_zero]
    rw [Nat.shiftLeft_eq]
    push_cast
    rw [hpow]
    field_simp
  show Describes (accuracyOfFraction ((m₁ <<< sh) % m₂) m₂) ((m₁ <<< sh) / m₂)
      (m₁ * 2 ^ e₁ / (m₂ * 2 ^ e₂) / 2 ^ E) ∧
    E ≤ Format.binary64.targetExponent (totalExponent ((m₁ <<< sh) / m₂) E)
  refine ⟨by simpa only [hu] using describes_div (m₁ <<< sh) m₂ h₂, ?_⟩
  simp only [targetExponent_binary64] at hE ⊢
  by_cases hlow : E ≤ -1074
  · exact le_max_of_le_right hlow
  -- above the least exponent the quotient has 53 bits: the ratio is at least `2^(52 + E)`
  have hA : (2 : ℚ) ^ ((m₁.log2 : ℤ) + e₁) ≤ m₁ * 2 ^ e₁ :=
    two_zpow_le_of_le h₁ (by rw [mul_div_cancel_right₀ _ (two_zpow_pos e₁).ne'])
  have hB : (m₂ : ℚ) * 2 ^ e₂ < 2 ^ ((m₂.log2 : ℤ) + e₂ + 1) :=
    lt_two_zpow_of_lt_succ (by rw [mul_div_cancel_right₀ _ (two_zpow_pos e₂).ne']; linarith)
  have hroom : 52 + ((m₂.log2 : ℤ) + e₂ + 1) + E ≤ (m₁.log2 : ℤ) + e₁ := by
    simp only [totalExponent] at hE
    omega
  have hratio : (2 : ℚ) ^ (52 : ℤ) < ((m₁ <<< sh : ℕ) : ℚ) / m₂ := by
    rw [← hu, div_div, lt_div_iff₀ (mul_pos (mul_pos (by exact_mod_cast h₂) (two_zpow_pos e₂))
      (two_zpow_pos E))]
    calc (2 : ℚ) ^ (52 : ℤ) * (m₂ * 2 ^ e₂ * 2 ^ E)
        < 2 ^ (52 : ℤ) * (2 ^ ((m₂.log2 : ℤ) + e₂ + 1) * 2 ^ E) := by gcongr
      _ = 2 ^ (52 : ℤ) * 2 ^ ((m₂.log2 : ℤ) + e₂ + 1) * 2 ^ E := by ring
      _ = 2 ^ (52 + ((m₂.log2 : ℤ) + e₂ + 1) + E) := by
        rw [← zpow_add₀ two_ne_zero, ← zpow_add₀ two_ne_zero]
      _ ≤ 2 ^ ((m₁.log2 : ℤ) + e₁) := zpow_le_zpow_right₀ one_le_two hroom
      _ ≤ m₁ * 2 ^ e₁ := hA
  have hM : 2 ^ 52 ≤ (m₁ <<< sh) / m₂ := by
    rw [Nat.le_div_iff_mul_le h₂]
    rw [lt_div_iff₀ (by exact_mod_cast h₂)] at hratio
    have : ((2 ^ 52 * m₂ : ℕ) : ℚ) < ((m₁ <<< sh : ℕ) : ℚ) := by
      push_cast
      rwa [zpow_ofNat] at hratio
    exact_mod_cast this.le
  have hlog : 52 ≤ ((m₁ <<< sh) / m₂).log2 := (Nat.le_log2 (by positivity)).2 hM
  simp only [totalExponent]
  omega

/-- **The quotient of two finite values** lands on the double whose interval holds the exact
ratio. -/
theorem div_finite_eq {m₁ m₂ : ℕ} {e₁ e₂ : ℤ} (h₁ : 0 < m₁) (h₂ : 0 < m₂)
    (hm : Canonical m q) (hr : RoundsTo (m₁ * 2 ^ e₁ / (m₂ * 2 ^ e₂)) m q) (s₁ s₂ : Sign) :
    div .binary64 (.finite s₁ m₁ e₁ h₁) (.finite s₂ m₂ e₂ h₂) = .finite (s₁ / s₂) m q hm.pos := by
  obtain ⟨hd, hE⟩ := divCore_spec e₁ e₂ h₁ h₂
  exact roundWithAccuracy_eq hd hE hm hr _

/-! ## Integers -/

theorem two_pow_le_shiftLeft {n : ℕ} (hn : 0 < n) : 2 ^ 52 ≤ n <<< (52 - n.log2) := by
  have hlo : 2 ^ n.log2 ≤ n := Nat.log2_self_le hn.ne'
  rw [Nat.shiftLeft_eq]
  by_cases hlog : n.log2 ≤ 52
  · calc 2 ^ 52 = 2 ^ n.log2 * 2 ^ (52 - n.log2) := by
          rw [← pow_add]
          congr 1
          omega
      _ ≤ n * 2 ^ (52 - n.log2) := Nat.mul_le_mul_right _ hlo
  · -- no shift: `n` is already at least `2^52`
    rw [show 52 - n.log2 = 0 by omega, pow_zero, mul_one]
    exact le_trans (Nat.pow_le_pow_right (by norm_num) (by omega)) hlo

theorem shiftLeft_lt_two_pow {n : ℕ} (hlt : n < 2 ^ 53) : n <<< (52 - n.log2) < 2 ^ 53 := by
  have hhi : n < 2 ^ (n.log2 + 1) := Nat.lt_log2_self
  rw [Nat.shiftLeft_eq]
  calc n * 2 ^ (52 - n.log2) < 2 ^ (n.log2 + 1) * 2 ^ (52 - n.log2) :=
        Nat.mul_lt_mul_of_pos_right hhi (by positivity)
    _ = 2 ^ 53 := by
      have : n.log2 < 53 := by
        rcases Nat.eq_zero_or_pos n with rfl | hn
        · simp
        · exact (Nat.log2_lt hn.ne').2 hlt
      rw [← pow_add]
      congr 1
      omega

theorem canonical_shiftLeft {n : ℕ} (hn : 0 < n) (hlt : n < 2 ^ 53) :
    Canonical (n <<< (52 - n.log2)) (-((52 - n.log2 : ℕ) : ℤ)) :=
  ⟨by have := two_pow_le_shiftLeft hn; omega, shiftLeft_lt_two_pow hlt, by omega,
    .inl (two_pow_le_shiftLeft hn), by omega⟩

theorem ofNat_eq {n : ℕ} (hn : 0 < n) (hlt : n < 2 ^ 53) :
    UnpackedFloat.ofNat .binary64 n = .finite .positive (n <<< (52 - n.log2))
      (-((52 - n.log2 : ℕ) : ℤ)) (canonical_shiftLeft hn hlt).pos := by
  have hlog : n.log2 < 53 := (Nat.log2_lt hn.ne').2 hlt
  have hcmp : compare (n : ℤ) 0 = .gt := Int.compare_eq_gt.2 (by exact_mod_cast hn)
  have hdec : decreaseExponent n 0 (Format.binary64.targetExponent (totalExponent n 0)) =
      (n <<< (52 - n.log2), -((52 - n.log2 : ℕ) : ℤ)) := by
    simp only [decreaseExponent, targetExponent_binary64, totalExponent]
    congr 2 <;> omega
  simp only [UnpackedFloat.ofNat, UnpackedFloat.ofInt, UnpackedFloat.normalize, hcmp,
    Int.toNat_natCast, UnpackedFloat.round, hdec]
  exact roundWithAccuracy_canonical (canonical_shiftLeft hn hlt) _

end MiniLisp.Binary
