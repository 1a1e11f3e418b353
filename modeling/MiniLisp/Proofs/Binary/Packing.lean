import MiniLisp.Proofs.Binary.Rounding
import MiniLisp.Binary.Parts

/-! # The bits of a double and its unpacked value

`Parts.ofBits` reads the three fields of a double by hand; the logical model of `Float` unpacks
the same bits into an `UnpackedFloat`. This module ties the two together and shows that packing
loses nothing on the values rounding produces:

* `Parts.ofBits_eq`: the hand-read fields are the model's unpacking, field by field.
* `unpack_pack_finite`, `unpack_pack_zero`: a canonical finite value or a zero, packed and
  unpacked again, is itself, so the model's arithmetic sees exactly the value packed.
* `eq_ofModel_pack`: a double whose parts are finite and nonzero is the packing of its parts,
  which are canonical; `eq_ofModel_pack_zero` for the two zeros.
* `neg_ofModel_pack`: negation flips the sign of a packed value.
-/

namespace MiniLisp.Binary

open Float.Model Float.Model.UnpackedFloat

/-- The sign that a negative flag stands for. -/
def signOf (negative : Bool) : Sign := if negative then .negative else .positive

@[simp] theorem signOf_beq_negative (negative : Bool) : (signOf negative == .negative) = negative := by
  cases negative <;> rfl

/-- The value an unpacked double stands for, as `Parts` writes it. -/
def Parts.ofUnpacked : UnpackedFloat → Parts
  | .notANumber => .nan
  | .infinity s => .infinite (s == .negative)
  | .zero s => .finite (s == .negative) 0 leastExponent
  | .finite s m q _ => .finite (s == .negative) m q

/-! ## The fields of the bits -/

@[simp] theorem exponentBias_binary64 : Format.binary64.exponentBias = 1023 := rfl

theorem toNat_unpackMantissa (b : BitVec 64) :
    (@unpackMantissa Format.binary64 b).toNat = b.toNat % 2 ^ 52 := by
  simp [unpackMantissa_def]

theorem toNat_unpackExponent (b : BitVec 64) :
    (@unpackExponent Format.binary64 b).toNat = b.toNat / 2 ^ 52 % 2 ^ 11 := by
  simp [unpackExponent_def, Nat.shiftRight_eq_div_pow]

theorem toNat_unpackSign (b : BitVec 64) :
    (@unpackSign Format.binary64 b).toNat = b.toNat / 2 ^ 63 := by
  have := b.isLt
  simp [unpackSign_def, Nat.shiftRight_eq_div_pow]
  omega

/-- The implicit leading bit of a normal double. -/
theorem toNat_one_append (f : BitVec 52) : (1#1 ++ f).toNat = 2 ^ 52 + f.toNat := by
  have hor := Nat.two_pow_add_eq_or_of_lt f.isLt 1
  rw [BitVec.toNat_append, mul_one] at *
  rw [hor]
  rfl

theorem ofBitVec_beq_negative (x : BitVec 1) :
    (Sign.ofBitVec x == .negative) = decide (x.toNat = 1) := by
  decide +revert

/-- Reading the fields of a double by hand agrees with the model's unpacking. -/
theorem Parts.ofBits_eq (b : UInt64) :
    Parts.ofBits b = Parts.ofUnpacked (unpack .binary64 b.toBitVec) := by
  have hlt := b.toNat_lt
  -- the masks and shifts of `Parts.ofBits` as arithmetic on `b.toNat`
  have hneg : ((b >>> 63) == 1) = decide (b.toNat / 2 ^ 63 = 1) := by
    rw [Bool.eq_iff_iff, beq_iff_eq, ← UInt64.toNat_inj, decide_eq_true_iff]
    simp [UInt64.toNat_shiftRight, Nat.shiftRight_eq_div_pow]
  have hexp : ((b >>> 52) &&& 0x7ff).toNat = b.toNat / 2 ^ 52 % 2 ^ 11 := by
    simp only [UInt64.toNat_and, UInt64.toNat_shiftRight, Nat.shiftRight_eq_div_pow]
    exact Nat.and_two_pow_sub_one_eq_mod _ 11
  have hfrac : (b &&& 0xfffffffffffff).toNat = b.toNat % 2 ^ 52 := by
    simp only [UInt64.toNat_and]
    exact Nat.and_two_pow_sub_one_eq_mod _ 52
  -- the tests of `unpack` as the same arithmetic
  have hsign : (Sign.ofBitVec (@unpackSign Format.binary64 b.toBitVec) == .negative) =
      decide (b.toNat / 2 ^ 63 = 1) := by
    rw [ofBitVec_beq_negative, toNat_unpackSign]
    rfl
  have he1 : @unpackExponent Format.binary64 b.toBitVec = -1#11 ↔
      b.toNat / 2 ^ 52 % 2 ^ 11 = 2047 := by
    rw [← BitVec.toNat_inj, toNat_unpackExponent]
    simp
  have he0 : @unpackExponent Format.binary64 b.toBitVec = 0#11 ↔
      b.toNat / 2 ^ 52 % 2 ^ 11 = 0 := by
    rw [← BitVec.toNat_inj, toNat_unpackExponent]
    simp
  have hm0 : @unpackMantissa Format.binary64 b.toBitVec = 0#52 ↔ b.toNat % 2 ^ 52 = 0 := by
    rw [← BitVec.toNat_inj, toNat_unpackMantissa]
    simp
  unfold Parts.ofBits UnpackedFloat.unpack
  simp only [hneg, hexp, hfrac, he1, he0, hm0]
  split_ifs with hinf hnan hsub hzero
  · simp [Parts.ofUnpacked, hsign]
  · simp [Parts.ofUnpacked]
  · -- a zero
    simp [Parts.ofUnpacked, hsign, leastExponent]
    omega
  · -- a subnormal
    simp [Parts.ofUnpacked, hsign, toNat_unpackMantissa, toNat_unpackExponent, leastExponent]
    omega
  · -- a normal double
    simp [Parts.ofUnpacked, hsign, toNat_unpackMantissa, toNat_unpackExponent, toNat_one_append,
      mantissaBits]
    omega

theorem Parts.ofFloat_eq (x : Float) : Parts.ofFloat x = Parts.ofUnpacked x.toModel.unpack :=
  Parts.ofBits_eq x.toBits

/-! ## Packing what rounding produces -/

variable {m : ℕ} {q : ℤ}

theorem unpack_pack_finite (hm : Canonical m q) (s : Sign) :
    (pack (.finite s m q hm.pos)).unpack = .finite s m q hm.pos := by
  have hlog : m.log2 < 53 := (Nat.log2_lt hm.pos.ne').2 hm.lt
  have hq := hm.least
  have hq' := hm.greatest
  -- the biased exponent `q + 1075` is neither all zeros nor all ones unless subnormal
  have hne1 : BitVec.ofNat 11 (q + 1023 + 52).toNat ≠ -1#11 := by
    intro h
    have := congrArg BitVec.toNat h
    simp at this
    omega
  unfold Float.Model.unpack Float.Model.pack
  simp only [UnpackedFloat.pack, exponentBias_binary64, Format.mantissaBits]
  norm_num
  rw [if_neg (by omega)]
  by_cases hn : 2 ^ 52 ≤ m
  · -- a normal double: the implicit bit carries `2^52`
    have hlog' : m.log2 = 52 := by
      have := (Nat.le_log2 hm.pos.ne').2 hn
      omega
    have hne0 : BitVec.ofNat 11 (q + 1023 + 52).toNat ≠ 0#11 := by
      intro h
      have := congrArg BitVec.toNat h
      simp at this
      omega
    have hmant : (1#1 ++ BitVec.ofNat 52 m).toNat = m := by
      rw [toNat_one_append, BitVec.toNat_ofNat]
      have := hm.lt
      omega
    simp only [hlog', ↓reduceIte, UnpackedFloat.unpack, unpackExponent_packComponents,
      unpackMantissa_packComponents, unpackSign_packComponents, Sign.ofBitVec_toBitVec, hne1, hne0,
      hmant]
    congr 1
    simp
    omega
  · -- a subnormal: the exponent field is zero and the mantissa is stored as it is
    have hsub : q = -1074 := hm.normal.resolve_left hn
    subst hsub
    have hlog' : m.log2 + 1 ≠ 53 := by
      have := (Nat.log2_lt hm.pos.ne').2 (show m < 2 ^ 52 by omega)
      omega
    have hmant : (BitVec.ofNat 52 m).toNat = m := by
      rw [BitVec.toNat_ofNat]
      omega
    have hm0 : BitVec.ofNat 52 m ≠ 0#52 := by
      intro h
      have := congrArg BitVec.toNat h
      rw [hmant] at this
      exact hm.pos.ne' this
    have h01 : (0#11 : BitVec 11) ≠ -1#11 := by decide
    simp only [hlog', ↓reduceIte, UnpackedFloat.unpack, unpackExponent_packComponents,
      unpackMantissa_packComponents, unpackSign_packComponents, Sign.ofBitVec_toBitVec, hm0, h01,
      ↓reduceDIte, hmant]
    congr 1

theorem unpack_pack_zero (s : Sign) : (pack (.zero s)).unpack = .zero s := by
  cases s <;> rfl

/-! ## A double as the packing of its parts -/

theorem ofModel_pack_unpack (x : Float) : Float.ofModel (pack x.toModel.unpack) = x :=
  Float.ofBits_toBits x

theorem Parts.canonical_of_ofBits {b : UInt64} {negative : Bool}
    (h : Parts.ofBits b = .finite negative m q) (hm : 0 < m) : Canonical m q := by
  have hfrac : (b &&& 0xfffffffffffff).toNat < 2 ^ 52 := by
    rw [UInt64.toNat_and]
    exact lt_of_le_of_lt Nat.and_le_right (by decide)
  have hexp : ((b >>> 52) &&& 0x7ff).toNat < 2 ^ 11 := by
    rw [UInt64.toNat_and]
    exact lt_of_le_of_lt Nat.and_le_right (by decide)
  unfold Parts.ofBits at h
  have hpow : Nat.pow 2 mantissaBits = 2 ^ 52 := rfl
  dsimp only at h
  rw [hpow] at h
  -- the infinities and NaN are not finite
  split_ifs at h with hinf hsub
  · -- a subnormal: the exponent is the least one and the mantissa below `2^52`
    cases h
    exact ⟨hm, by omega, le_refl _, .inr rfl, by decide⟩
  · -- a normal double: the implicit bit is set and the biased exponent is between 1 and 2046
    cases h
    refine ⟨hm, ?_, ?_, .inl ?_, ?_⟩ <;> omega

theorem Parts.eq_finite_of_ofUnpacked {u : UnpackedFloat} {negative : Bool}
    (h : Parts.ofUnpacked u = .finite negative m q) (hm : 0 < m) :
    u = .finite (signOf negative) m q hm := by
  cases u with
  | notANumber => cases h
  | infinity s => cases h
  | zero s =>
    simp only [Parts.ofUnpacked, Parts.finite.injEq] at h
    omega
  | finite s m' q' hp =>
    simp only [Parts.ofUnpacked, Parts.finite.injEq] at h
    obtain ⟨hs, rfl, rfl⟩ := h
    cases s <;> subst hs <;> rfl

/-- A finite nonzero double is the packing of its parts, which are canonical. -/
theorem eq_ofModel_pack {x : Float} {negative : Bool} (h : Parts.ofFloat x = .finite negative m q)
    (hm : 0 < m) :
    Canonical m q ∧ x = Float.ofModel (pack (.finite (signOf negative) m q hm)) := by
  refine ⟨Parts.canonical_of_ofBits h hm, ?_⟩
  rw [Parts.ofFloat_eq] at h
  rw [← Parts.eq_finite_of_ofUnpacked h hm, ofModel_pack_unpack]

theorem eq_ofModel_pack_zero {x : Float} {negative : Bool} (h : Parts.ofFloat x = .finite negative 0 q) :
    x = Float.ofModel (pack (.zero (signOf negative))) := by
  rw [Parts.ofFloat_eq] at h
  rw [← ofModel_pack_unpack x]
  cases hu : x.toModel.unpack with
  | zero s =>
    rw [hu] at h
    simp only [Parts.ofUnpacked, Parts.finite.injEq] at h
    obtain ⟨hs, -, -⟩ := h
    cases s <;> subst hs <;> rfl
  | finite s m' q' hp =>
    rw [hu] at h
    simp only [Parts.ofUnpacked, Parts.finite.injEq] at h
    omega
  | notANumber => rw [hu] at h; cases h
  | infinity s => rw [hu] at h; cases h

/-! ## Operations on packed values -/

theorem neg_ofModel_pack {u : UnpackedFloat} (h : (pack u).unpack = u) :
    -Float.ofModel (pack u) = Float.ofModel (pack u.neg) := by
  show Float.ofModel (pack (pack u).unpack.neg) = _
  rw [h]

theorem isFinite_ofModel_pack {u : UnpackedFloat} (h : (pack u).unpack = u) :
    (Float.ofModel (pack u)).isFinite = u.isFinite := by
  show (pack u).unpack.isFinite = _
  rw [h]

end MiniLisp.Binary
