import Mathlib

/-! # Rounding to the nearest double

A double is rounded from an exact quantity by `roundWithAccuracy` of the logical model of
`Float`: the quantity arrives as a mantissa `M`, an exponent `E` and an `Accuracy` that says
where the quantity `V` lies between `M · 2^E` and `(M + 1) · 2^E`; the mantissa is shifted right
to the target exponent, keeping a round bit and a sticky bit, and rounded to even.

This module proves that this procedure lands on the double whose rounding interval holds `V`:

* `Records em u`: an extended mantissa knows what rounding needs of `u` (its integer part, and
  where the rest lies against one half); `Records.shiftRight` keeps it through any shift.
* `Records.roundedMantissa_eq`: the rounded mantissa is the integer nearest to `u`, the even one
  on a tie.
* `RoundsTo V m q`: `V` lies in the rounding interval of the double `m · 2^q`;
  `Canonical m q`: `m · 2^q` is a finite positive double in the model's form.
* `roundWithAccuracy_eq`: the model's rounding of a described `V` is that double.
-/

namespace MiniLisp.Binary

open Float.Model Float.Model.UnpackedFloat

/-! ## What an extended mantissa records -/

/-- `em` knows what rounding needs of `u ≥ 0`: its integer part, whether the rest reaches one
half, and whether the rest is neither nothing nor exactly one half. -/
structure Records (em : ExtendedMantissa) (u : ℚ) : Prop where
  le : (em.mantissa : ℚ) ≤ u
  lt : u < em.mantissa + 1
  round : em.roundBit = true ↔ (em.mantissa : ℚ) + 1 / 2 ≤ u
  sticky : em.stickyBit = true ↔ u ≠ em.mantissa ∧ u ≠ em.mantissa + 1 / 2

namespace Records

variable {em : ExtendedMantissa} {u : ℚ}

/-- The round bit or the sticky bit is set exactly when `u` is no integer. -/
theorem round_or_sticky (h : Records em u) :
    (em.roundBit || em.stickyBit) = true ↔ u ≠ em.mantissa := by
  rw [Bool.or_eq_true, h.round, h.sticky]
  constructor
  · rintro (hr | ⟨hne, -⟩)
    · intro he
      rw [he] at hr
      linarith
    · exact hne
  · intro hne
    by_cases hhalf : (em.mantissa : ℚ) + 1 / 2 ≤ u
    · exact .inl hhalf
    · refine .inr ⟨hne, fun he => hhalf (le_of_eq he.symm)⟩

/-- Halving `u` moves the lowest bit of the mantissa into the round bit. -/
theorem shiftRightOne (h : Records em u) : Records em.shiftRightOne (u / 2) := by
  obtain ⟨k, hk | hk⟩ := Nat.even_or_odd' em.mantissa
  all_goals
    have hm : (em.mantissa : ℚ) = 2 * k + (em.mantissa % 2 : ℕ) := by
      rw [hk]; push_cast; simp
    have hdiv : em.mantissa / 2 = k := by omega
    have hle := h.le
    have hlt := h.lt
  · -- an even mantissa: the round bit is clear, and the sticky bit says whether `u` is an integer
    have hmod : em.mantissa % 2 = 0 := by omega
    rw [hmod] at hm
    push_cast at hm
    refine ⟨?_, ?_, ?_, ?_⟩ <;>
      simp only [ExtendedMantissa.shiftRightOne, hdiv, hmod, bne_self_eq_false, Bool.false_eq_true,
        false_iff, not_le]
    · linarith
    · linarith
    · linarith
    · rw [h.round_or_sticky]
      constructor
      · intro hne
        refine ⟨fun he => hne (by linarith), fun he => by linarith⟩
      · rintro ⟨hne, -⟩ he
        exact hne (by linarith)
  · -- an odd mantissa: the round bit is set
    have hmod : em.mantissa % 2 = 1 := by omega
    rw [hmod] at hm
    push_cast at hm
    refine ⟨?_, ?_, ?_, ?_⟩ <;>
      simp only [ExtendedMantissa.shiftRightOne, hdiv, hmod]
    · linarith
    · linarith
    · simp only [bne_iff_ne, ne_eq, one_ne_zero, not_false_eq_true, true_iff]
      linarith
    · rw [h.round_or_sticky]
      constructor
      · intro hne
        refine ⟨fun he => by linarith, fun he => hne (by linarith)⟩
      · rintro ⟨-, hne⟩ he
        exact hne (by linarith)

theorem shiftRight (h : Records em u) (n : ℕ) : Records (em >>> n) (u / 2 ^ n) := by
  induction n with
  | zero => simpa [HShiftRight.hShiftRight, Nat.repeat] using h
  | succ n ih =>
    have h' := ih.shiftRightOne
    rw [div_div, ← pow_succ] at h'
    exact h'

end Records

/-- What an `Accuracy` says of `u` against the mantissa `M`. -/
def Describes : Accuracy → ℕ → ℚ → Prop
  | .exact, M, u => u = M
  | .inexact c, M, u => (M : ℚ) < u ∧ u < M + 1 ∧ compare u (M + 1 / 2) = c

@[simp] theorem mantissa_ofMantissaAndAccuracy (M : ℕ) (acc : Accuracy) :
    (ExtendedMantissa.ofMantissaAndAccuracy M acc).mantissa = M := by
  rcases acc with _ | (_ | _ | _) <;> rfl

theorem records_ofMantissaAndAccuracy {acc : Accuracy} {M : ℕ} {u : ℚ} (h : Describes acc M u) :
    Records (ExtendedMantissa.ofMantissaAndAccuracy M acc) u := by
  cases acc with
  | exact =>
    simp only [Describes] at h
    subst h
    refine ⟨?_, ?_, ?_, ?_⟩ <;> simp [ExtendedMantissa.ofMantissaAndAccuracy]
  | inexact c =>
    obtain ⟨hlo, hhi, hc⟩ := h
    cases c
    all_goals
      simp only [compare_lt_iff_lt, compare_eq_iff_eq, compare_gt_iff_gt] at hc
      refine ⟨le_of_lt hlo, hhi, ?_, ?_⟩ <;>
        simp only [ExtendedMantissa.ofMantissaAndAccuracy, Bool.false_eq_true, false_iff, true_iff,
          not_le, ne_eq, not_and, not_not]
    · exact hc
    · exact ⟨ne_of_gt hlo, ne_of_lt hc⟩
    · rw [hc]
    · exact fun _ => hc
    · exact le_of_lt hc
    · exact ⟨ne_of_gt hlo, ne_of_gt hc⟩

/-! ## Rounding to even -/

/-- `m` is the integer nearest to `u`, the even one when two are equally near. -/
def NearestEven (m : ℕ) (u : ℚ) : Prop :=
  |u - m| < 1 / 2 ∨ (|u - m| = 1 / 2 ∧ m % 2 = 0)

private theorem eq_of_abs_sub_lt_one {a b : ℕ} (h : |(a : ℚ) - b| < 1) : a = b := by
  rw [abs_lt] at h
  have h1 : a < b + 1 := by exact_mod_cast (show (a : ℚ) < b + 1 by linarith)
  have h2 : b < a + 1 := by exact_mod_cast (show (b : ℚ) < a + 1 by linarith)
  omega

/-- Two integers nearest to `u`, the even one on a tie, are one. -/
theorem NearestEven.unique {a b : ℕ} {u : ℚ} (ha : NearestEven a u) (hb : NearestEven b u) :
    a = b := by
  have hab : |(a : ℚ) - b| ≤ |u - a| + |u - b| := by
    calc |(a : ℚ) - b| = |(u - b) - (u - a)| := by ring_nf
      _ ≤ |u - b| + |u - a| := abs_sub _ _
      _ = |u - a| + |u - b| := add_comm _ _
  rcases ha with ha | ⟨ha, hea⟩ <;> rcases hb with hb | ⟨hb, heb⟩
  · exact eq_of_abs_sub_lt_one (by linarith)
  · exact eq_of_abs_sub_lt_one (by linarith)
  · exact eq_of_abs_sub_lt_one (by linarith)
  · -- a tie on both sides: two even integers at most one apart
    rw [abs_le] at hab
    have h1 : a ≤ b + 1 := by exact_mod_cast (show (a : ℚ) ≤ b + 1 by linarith)
    have h2 : b ≤ a + 1 := by exact_mod_cast (show (b : ℚ) ≤ a + 1 by linarith)
    omega

theorem Records.nearestEven_roundedMantissa {em : ExtendedMantissa} {u : ℚ} (h : Records em u) :
    NearestEven em.roundedMantissa u := by
  obtain ⟨M, r, s⟩ := em
  obtain ⟨hle, hlt, hround, hsticky⟩ := h
  simp only at hle hlt hround hsticky
  cases r <;> cases s <;>
    simp only [Bool.false_eq_true, false_iff, true_iff, not_le, ne_eq, not_and, not_not]
      at hround hsticky <;>
    simp only [NearestEven, ExtendedMantissa.roundedMantissa, ExtendedMantissa.accuracy,
      Accuracy.roundToNearestEven]
  · -- no bit set: `u` is the mantissa
    have hu : u = M := by
      by_contra hne
      linarith [hsticky hne]
    left
    simp [hu]
  · -- only the sticky bit: `u` lies below the midpoint
    left
    rw [abs_lt]
    constructor <;> linarith
  · -- only the round bit: `u` is the midpoint, and the even neighbour is taken
    have hu : u = M + 1 / 2 := by
      by_contra hne
      have := hsticky (fun he => by linarith)
      exact hne this
    right
    rcases Nat.mod_two_eq_zero_or_one M with hM | hM
    · rw [hM, hu]
      norm_num
      exact hM
    · rw [hM, hu]
      push_cast
      norm_num
      omega
  · -- both bits: `u` lies above the midpoint
    have hgt : (M : ℚ) + 1 / 2 < u := lt_of_le_of_ne hround (Ne.symm hsticky.2)
    left
    push_cast
    rw [abs_lt]
    constructor <;> linarith

theorem Records.roundedMantissa_eq {em : ExtendedMantissa} {u : ℚ} {m : ℕ} (h : Records em u)
    (hm : NearestEven m u) : em.roundedMantissa = m :=
  h.nearestEven_roundedMantissa.unique hm

/-! ## The exponents of a double -/

@[simp] theorem targetExponent_binary64 (t : ℤ) :
    Format.binary64.targetExponent t = max (t - 53) (-1074) := rfl

/-- `m · 2^q` is a positive finite double in the form unpacking gives it: a mantissa below
`2^53`, at least `2^52` unless the exponent is the least one (a subnormal). -/
structure Canonical (m : ℕ) (q : ℤ) : Prop where
  pos : 0 < m
  lt : m < 2 ^ 53
  least : -1074 ≤ q
  normal : 2 ^ 52 ≤ m ∨ q = -1074
  greatest : q ≤ 971

variable {m : ℕ} {q : ℤ}

/-- A canonical double sits at the exponent that rounding targets for it. -/
theorem Canonical.targetExponent_eq (h : Canonical m q) :
    Format.binary64.targetExponent (totalExponent m q) = q := by
  have hlog : m.log2 < 53 := (Nat.log2_lt h.pos.ne').2 h.lt
  have hq := h.least
  simp only [targetExponent_binary64, totalExponent]
  rcases h.normal with hn | hq
  · have : 52 ≤ m.log2 := (Nat.le_log2 h.pos.ne').2 hn
    omega
  · omega

/-- The first shift of rounding moves the mantissa to the target exponent, where the extended
mantissa records the quantity in units of that exponent. -/
theorem records_shiftToTargetExponent {acc : Accuracy} {M : ℕ} {E : ℤ} {V : ℚ}
    (hd : Describes acc M (V / 2 ^ E))
    (hE : E ≤ Format.binary64.targetExponent (totalExponent M E)) :
    (shiftToTargetExponent .binary64 M E acc).2 =
        Format.binary64.targetExponent (totalExponent M E) ∧
      Records (shiftToTargetExponent .binary64 M E acc).1
        (V / 2 ^ Format.binary64.targetExponent (totalExponent M E)) := by
  set T := Format.binary64.targetExponent (totalExponent M E)
  have hn : (((T - E).toNat : ℕ) : ℤ) = T - E := Int.toNat_of_nonneg (by omega)
  refine ⟨by simp only [shiftToTargetExponent, shiftToExponent]; omega, ?_⟩
  have h := (records_ofMantissaAndAccuracy hd).shiftRight (T - E).toNat
  rwa [div_div, ← zpow_natCast, ← zpow_add₀ two_ne_zero, hn, add_sub_cancel] at h

theorem shiftToTargetExponent_of_lt {r : ℕ} {T : ℤ} (hr : r < 2 ^ 53) (hT : -1074 ≤ T) :
    shiftToTargetExponent .binary64 r T .exact = (⟨r, false, false⟩, T) := by
  have hlog : r.log2 < 53 := by
    rcases Nat.eq_zero_or_pos r with rfl | hpos
    · simp
    · exact (Nat.log2_lt hpos.ne').2 hr
  have hshift : (Format.binary64.targetExponent (totalExponent r T) - T).toNat = 0 := by
    simp only [targetExponent_binary64, totalExponent]
    omega
  simp only [shiftToTargetExponent, shiftToExponent, hshift]
  simp [HShiftRight.hShiftRight, Nat.repeat, ExtendedMantissa.ofMantissaAndAccuracy]

/-- A mantissa that rounding carried up to `2^53` is halved into the next binade. -/
theorem shiftToTargetExponent_carry {T : ℤ} (hT : -1074 ≤ T) :
    shiftToTargetExponent .binary64 (2 ^ 53) T .exact = (⟨2 ^ 52, false, false⟩, T + 1) := by
  have hshift : (Format.binary64.targetExponent (totalExponent (2 ^ 53) T) - T).toNat = 1 := by
    simp only [targetExponent_binary64, totalExponent, Nat.log2_two_pow]
    omega
  simp only [shiftToTargetExponent, shiftToExponent, hshift]
  simp [HShiftRight.hShiftRight, Nat.repeat, ExtendedMantissa.ofMantissaAndAccuracy,
    ExtendedMantissa.shiftRightOne]

/-! ## The rounding interval of a double -/

/-- How far below `m · 2^q`, in units of `2^q`, its rounding interval reaches: a quarter where
the gap to the next smaller double is half the gap above (`m = 2^52` above the least exponent),
a half otherwise. -/
def lowerReach (m : ℕ) (q : ℤ) : ℚ := if m = 2 ^ 52 ∧ -1074 < q then 1 / 4 else 1 / 2

theorem lowerReach_le (m : ℕ) (q : ℤ) : lowerReach m q ≤ 1 / 2 := by
  unfold lowerReach
  split <;> norm_num

/-- `V` rounds to the double `m · 2^q`, ties to even: in units of `2^q` it lies within the
rounding interval of `m`, and on one of its ends only when `m` is even. -/
structure RoundsTo (V : ℚ) (m : ℕ) (q : ℤ) : Prop where
  above : m - lowerReach m q < V / 2 ^ q ∨ (m - lowerReach m q = V / 2 ^ q ∧ m % 2 = 0)
  below : V / 2 ^ q < m + 1 / 2 ∨ (V / 2 ^ q = m + 1 / 2 ∧ m % 2 = 0)

variable {V : ℚ}

theorem two_zpow_pos (k : ℤ) : (0 : ℚ) < 2 ^ k := zpow_pos (by norm_num) k

/-- The rounding interval at the scale of `V`. -/
theorem roundsTo_iff : RoundsTo V m q ↔
    ((m - lowerReach m q) * 2 ^ q < V ∨ ((m - lowerReach m q) * 2 ^ q = V ∧ m % 2 = 0)) ∧
      (V < (m + 1 / 2) * 2 ^ q ∨ (V = (m + 1 / 2) * 2 ^ q ∧ m % 2 = 0)) := by
  have h2 := two_zpow_pos q
  have ha : ∀ x : ℚ, x * 2 ^ q < V ↔ x < V / 2 ^ q := fun x => (lt_div_iff₀ h2).symm
  have hb : ∀ x : ℚ, V < x * 2 ^ q ↔ V / 2 ^ q < x := fun x => (div_lt_iff₀ h2).symm
  have hc : ∀ x : ℚ, x * 2 ^ q = V ↔ x = V / 2 ^ q := fun x => (eq_div_iff h2.ne').symm
  have hd : ∀ x : ℚ, V = x * 2 ^ q ↔ V / 2 ^ q = x := fun x => (div_eq_iff h2.ne').symm
  rw [ha, hb, hc, hd]
  exact ⟨fun h => ⟨h.above, h.below⟩, fun h => ⟨h.1, h.2⟩⟩

theorem RoundsTo.le_high (h : RoundsTo V m q) : V / 2 ^ q ≤ m + 1 / 2 := by
  rcases h.below with hb | ⟨hb, -⟩
  · exact le_of_lt hb
  · exact le_of_eq hb

theorem RoundsTo.low_le (h : RoundsTo V m q) : m - lowerReach m q ≤ V / 2 ^ q := by
  rcases h.above with ha | ⟨ha, -⟩
  · exact le_of_lt ha
  · exact le_of_eq ha

/-- Measured at its own exponent, a value rounds to the nearest mantissa. -/
theorem RoundsTo.nearestEven (h : RoundsTo V m q) : NearestEven m (V / 2 ^ q) := by
  have hw := lowerReach_le m q
  rcases h.below with hb | ⟨hb, heven⟩
  · rcases h.above with ha | ⟨ha, heven⟩
    · left
      rw [abs_lt]
      constructor <;> linarith
    · -- on the lower end, which is a half away or nearer
      rcases hw.lt_or_eq with hw | hw
      · left
        rw [← ha, abs_lt]
        constructor <;> linarith
      · right
        rw [← ha, hw]
        norm_num
        exact heven
  · right
    rw [hb]
    norm_num
    exact heven

/-- In the narrow binade below `2^52 · 2^q`, a value rounds up to `2^53` at the exponent below. -/
theorem nearestEven_carry {u : ℚ} (hlo : 2 ^ 52 - 1 / 4 ≤ u) (hhi : u < 2 ^ 52) :
    NearestEven (2 ^ 53) (2 * u) := by
  rcases hlo.lt_or_eq with hlo | hlo
  · left
    push_cast
    rw [abs_lt]
    constructor <;> linarith
  · right
    push_cast
    rw [← hlo]
    norm_num

/-! ## Landing on the double -/

theorem lt_two_zpow_of_lt_succ {M : ℕ} {E : ℤ} (hlt : V / 2 ^ E < M + 1) :
    V < 2 ^ ((M.log2 : ℤ) + E + 1) := by
  have hM : (M : ℚ) + 1 ≤ 2 ^ (M.log2 + 1) := by
    exact_mod_cast Nat.succ_le_of_lt Nat.lt_log2_self
  rw [div_lt_iff₀ (two_zpow_pos E)] at hlt
  calc V < (M + 1) * 2 ^ E := hlt
    _ ≤ 2 ^ (M.log2 + 1) * 2 ^ E := by gcongr
    _ = 2 ^ ((M.log2 : ℤ) + E + 1) := by
      rw [← zpow_natCast, ← zpow_add₀ two_ne_zero]
      push_cast
      ring_nf

theorem two_zpow_le_of_le {M : ℕ} (hM : 0 < M) {E : ℤ} (hle : (M : ℚ) ≤ V / 2 ^ E) :
    2 ^ ((M.log2 : ℤ) + E) ≤ V := by
  have hM' : (2 : ℚ) ^ M.log2 ≤ M := by exact_mod_cast Nat.log2_self_le hM.ne'
  rw [le_div_iff₀ (two_zpow_pos E)] at hle
  calc (2 : ℚ) ^ ((M.log2 : ℤ) + E) = 2 ^ M.log2 * 2 ^ E := by
        rw [zpow_add₀ two_ne_zero, zpow_natCast]
    _ ≤ M * 2 ^ E := by gcongr
    _ ≤ V := hle

theorem RoundsTo.lt_two_zpow (h : RoundsTo V m q) (hm : Canonical m q) : V < 2 ^ (53 + q) := by
  have hlt : (m : ℚ) + 1 ≤ 2 ^ 53 := by exact_mod_cast Nat.succ_le_of_lt hm.lt
  have hle := h.le_high
  rw [div_le_iff₀ (two_zpow_pos q)] at hle
  calc V ≤ (m + 1 / 2) * 2 ^ q := hle
    _ < 2 ^ 53 * 2 ^ q := by
      gcongr
      linarith
    _ = 2 ^ (53 + q) := by
      rw [zpow_add₀ two_ne_zero]
      norm_num

/-- A value that rounds to a double is at least half its last place. -/
theorem RoundsTo.two_zpow_le (h : RoundsTo V m q) (hm : Canonical m q) : 2 ^ (q - 1) ≤ V := by
  have hlo := h.low_le
  have hw := lowerReach_le m q
  have h1 : (1 : ℚ) ≤ m := by exact_mod_cast hm.pos
  rw [le_div_iff₀ (two_zpow_pos q)] at hlo
  calc (2 : ℚ) ^ (q - 1) = 1 / 2 * 2 ^ q := by
        rw [zpow_sub_one₀ two_ne_zero]
        ring
    _ ≤ (m - lowerReach m q) * 2 ^ q := by
      gcongr
      linarith
    _ ≤ V := hlo

/-- A value that rounds to a normal double lies above half its binade. -/
theorem RoundsTo.two_zpow_lt (h : RoundsTo V m q) (hn : 2 ^ 52 ≤ m) : 2 ^ (51 + q) < V := by
  have hn' : (2 : ℚ) ^ 52 ≤ m := by exact_mod_cast hn
  have hlo := h.low_le
  have hw := lowerReach_le m q
  rw [le_div_iff₀ (two_zpow_pos q)] at hlo
  calc (2 : ℚ) ^ (51 + q) = 2 ^ 51 * 2 ^ q := by
        rw [zpow_add₀ two_ne_zero]
        norm_num
    _ < (m - lowerReach m q) * 2 ^ q := by
      gcongr
      linarith
    _ ≤ V := hlo

/-- Where rounding targets a value `V < 2^(b+1)` with `b ≤ 52 + q` that rounds to `m · 2^q`:
at `q` itself, or one below when `V` lies in the narrow part of the interval of `2^52 · 2^q`. -/
theorem RoundsTo.target_cases (h : RoundsTo V m q) (hm : Canonical m q) {b : ℤ}
    (hV : V < 2 ^ (b + 1)) (hb : b ≤ 52 + q) :
    max (b - 52) (-1074) = q ∨ (m = 2 ^ 52 ∧ -1074 < q ∧ b = 51 + q) := by
  rcases hm.least.lt_or_eq with hq | hq
  · -- above the least exponent the double is normal and `V` is above `2^(51+q)`
    have hn : 2 ^ 52 ≤ m := hm.normal.resolve_right (by omega)
    have hb' : 51 + q < b + 1 :=
      (zpow_lt_zpow_iff_right₀ one_lt_two).1 ((h.two_zpow_lt hn).trans hV)
    rcases (show b = 52 + q ∨ b = 51 + q by omega) with hb | hb
    · left
      omega
    · right
      refine ⟨?_, hq, hb⟩
      -- a larger mantissa has its whole interval at or above `2^(52+q)`
      by_contra hne
      have hgt : (2 : ℚ) ^ 52 + 1 ≤ m := by exact_mod_cast (show 2 ^ 52 + 1 ≤ m by omega)
      have hw : lowerReach m q = 1 / 2 := by
        rw [lowerReach, if_neg (fun h => hne h.1)]
      have hlo := h.low_le
      rw [hw, le_div_iff₀ (two_zpow_pos q)] at hlo
      have htop : (2 : ℚ) ^ (b + 1) = 2 ^ 52 * 2 ^ q := by
        rw [hb, show 51 + q + 1 = 52 + q by ring, zpow_add₀ two_ne_zero]
        norm_num
      have hq' := two_zpow_pos q
      rw [htop] at hV
      nlinarith
  · left
    omega

/-- **Rounding lands on the double whose interval holds the value**, from any description of the
value at an exponent no larger than rounding targets. -/
theorem roundWithAccuracy_eq {acc : Accuracy} {M : ℕ} {E : ℤ}
    (hd : Describes acc M (V / 2 ^ E))
    (hE : E ≤ Format.binary64.targetExponent (totalExponent M E))
    (hm : Canonical m q) (hr : RoundsTo V m q) (s : Sign) :
    roundWithAccuracy .binary64 s M E acc = .finite s m q hm.pos := by
  obtain ⟨hT, hrec⟩ := records_shiftToTargetExponent hd hE
  have hmant := records_ofMantissaAndAccuracy hd
  have hMle : (M : ℚ) ≤ V / 2 ^ E := by simpa using hmant.le
  have hMlt : V / 2 ^ E < M + 1 := by simpa using hmant.lt
  -- the binade `b` of `V`: below `2^(b+1)`, and not above that of the double
  have hV : V < 2 ^ ((M.log2 + E : ℤ) + 1) := lt_two_zpow_of_lt_succ hMlt
  have hb : (M.log2 + E : ℤ) ≤ 52 + q := by
    rcases Nat.eq_zero_or_pos M with rfl | hM
    · simp only [targetExponent_binary64, totalExponent, Nat.log2_zero] at hE
      have := hm.least
      simp only [Nat.log2_zero]
      omega
    · have hlo := two_zpow_le_of_le hM hMle
      have hhi := hr.lt_two_zpow hm
      have := (zpow_lt_zpow_iff_right₀ one_lt_two).1 (hlo.trans_lt hhi)
      omega
  have htarget : Format.binary64.targetExponent (totalExponent M E) =
      max ((M.log2 + E : ℤ) - 52) (-1074) := by
    simp only [targetExponent_binary64, totalExponent]
    omega
  rw [htarget] at hT hrec
  set first := shiftToTargetExponent .binary64 M E acc with hfirst
  rcases hr.target_cases hm hV hb with hq | ⟨rfl, hq, hbq⟩
  · -- the first shift lands on `q`; rounding gives `m`, which needs no second shift
    rw [hq] at hT hrec
    have hround : first.1.roundedMantissa = m := hrec.roundedMantissa_eq hr.nearestEven
    have h1 : shiftToTargetExponent .binary64 M E acc = (first.1, q) := Prod.ext rfl hT
    simp only [roundWithAccuracy, h1, hround, shiftToTargetExponent_of_lt hm.lt hm.least,
      hm.pos.ne', dite_false]
  · -- the first shift lands one below `q`; rounding carries to `2^53`, halved back onto `q`
    have hT' : max ((M.log2 + E : ℤ) - 52) (-1074) = q - 1 := by omega
    rw [hT'] at hT hrec
    have hlo : (2 : ℚ) ^ 52 - 1 / 4 ≤ V / 2 ^ q := by
      have := hr.low_le
      rw [lowerReach, if_pos ⟨rfl, hq⟩] at this
      push_cast at this
      linarith
    have hhi : V / 2 ^ q < 2 ^ 52 := by
      rw [div_lt_iff₀ (two_zpow_pos q)]
      rw [hbq, show 51 + q + 1 = 52 + q by ring, zpow_add₀ two_ne_zero] at hV
      simpa using hV
    have hu : V / 2 ^ (q - 1) = 2 * (V / 2 ^ q) := by
      rw [zpow_sub_one₀ two_ne_zero]
      field_simp
    have hround : first.1.roundedMantissa = 2 ^ 53 := by
      rw [hu] at hrec
      exact hrec.roundedMantissa_eq (nearestEven_carry hlo hhi)
    have h1 : shiftToTargetExponent .binary64 M E acc = (first.1, q - 1) := Prod.ext rfl hT
    simp only [roundWithAccuracy, h1, hround, shiftToTargetExponent_carry (show -1074 ≤ q - 1 by omega),
      sub_add_cancel]
    rfl

theorem roundWithAccuracy_canonical (hm : Canonical m q) (s : Sign) :
    roundWithAccuracy .binary64 s m q .exact = .finite s m q hm.pos := by
  have hV : ((m : ℚ) * 2 ^ q) / 2 ^ q = m := by field_simp
  refine roundWithAccuracy_eq (V := m * 2 ^ q) (by simp [Describes, hV]) ?_ hm ?_ s
  · rw [hm.targetExponent_eq]
  · refine ⟨.inl ?_, .inl ?_⟩ <;> rw [hV]
    · have := lowerReach_le m q
      unfold lowerReach
      split <;> linarith
    · linarith

end MiniLisp.Binary
