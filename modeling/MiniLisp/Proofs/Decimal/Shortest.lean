import MiniLisp.Proofs.Binary.Rounding
import MiniLisp.Decimal.Shortest

/-! # The decimal that `shortest` picks reads back

`shortest tie m q` walks the decimal grids below the leading power of ten of `m · 2^q` and
keeps the first point that lies in the rounding interval of the double. This module proves that
what it keeps does lie there, for every positive finite double:

* `compareScaled_eq`, `readsBack_iff`: the exact tests in `Nat` arithmetic are comparisons of
  rationals, and `readsBack` is `RoundsTo`.
* `ten_zpow_exponentAbove_le`: the estimate of the leading power of ten, from `log₁₀ 2` between
  `0.30103 · 100000/100001` and `0.30103`, never overshoots.
* `onGrid_readsBack`, `onGrid_ne_none`: a grid point that `onGrid` keeps reads back, and on a
  grid finer than the rounding interval there is one.
* `shortest_roundsTo`: seventeen grids always suffice, and the decimal kept rounds to the double.
-/

namespace MiniLisp.Decimal

open MiniLisp.Binary

variable {m : ℕ} {q : ℤ}

/-! ## Exact comparisons -/

theorem compare_nat_eq {a b : ℕ} {x y : ℚ} (hlt : a < b ↔ x < y) (heq : a = b ↔ x = y) :
    compare a b = compare x y := by
  rcases Nat.lt_trichotomy a b with h | h | h
  · rw [Nat.compare_eq_lt.2 h, compare_lt_iff_lt.2 (hlt.1 h)]
  · rw [Nat.compare_eq_eq.2 h, compare_eq_iff_eq.2 (heq.1 h)]
  · have hxy : ¬ x < y := fun h' => absurd (hlt.2 h') (by omega)
    have hne : x ≠ y := fun h' => absurd (heq.2 h') (by omega)
    rw [Nat.compare_eq_gt.2 h, compare_gt_iff_gt.2 (lt_of_le_of_ne (not_lt.1 hxy) (Ne.symm hne))]

theorem zpow_eq_div_toNat (x : ℚ) (g : ℤ) : x ^ g = x ^ g.toNat / x ^ (-g).toNat := by
  rcases le_total 0 g with hg | hg
  · rw [Int.toNat_of_nonpos (by omega : -g ≤ 0), pow_zero, div_one, ← zpow_natCast,
      Int.toNat_of_nonneg hg]
  · rw [Int.toNat_of_nonpos hg, pow_zero, ← zpow_natCast, Int.toNat_of_nonneg (by omega), zpow_neg,
      one_div, inv_inv]

/-- `compareScaled a g b p` compares `a · 10^g` with `b · 2^p`. -/
theorem compareScaled_eq (a : ℕ) (g : ℤ) (b : ℕ) (p : ℤ) :
    compareScaled a g b p = compare ((a : ℚ) * 10 ^ g) ((b : ℚ) * 2 ^ p) := by
  -- both sides times `c = 10^(-g)⁺ · 2^(-p)⁺` are the naturals compared
  set c : ℚ := 10 ^ (-g).toNat * 2 ^ (-p).toNat with hc
  have hc0 : 0 < c := by positivity
  have hA : ((a * Nat.pow 10 g.toNat * Nat.pow 2 (-p).toNat : ℕ) : ℚ) = a * 10 ^ g * c := by
    rw [zpow_eq_div_toNat 10 g, hc]
    push_cast [Nat.pow_eq]
    field_simp
  have hB : ((b * Nat.pow 2 p.toNat * Nat.pow 10 (-g).toNat : ℕ) : ℚ) = b * 2 ^ p * c := by
    rw [zpow_eq_div_toNat 2 p, hc]
    push_cast [Nat.pow_eq]
    field_simp
  unfold compareScaled
  apply compare_nat_eq
  · rw [← (Nat.cast_lt : ((_ : ℕ) : ℚ) < _ ↔ _), hA, hB, mul_lt_mul_iff_left₀ hc0]
  · rw [← (Nat.cast_inj : ((_ : ℕ) : ℚ) = _ ↔ _), hA, hB, mul_left_inj' hc0.ne']

/-! ## Reading back -/

theorem narrowBelow_iff : Parts.narrowBelow m q = true ↔ m = 2 ^ 52 ∧ -1074 < q := by
  simp [Parts.narrowBelow, mantissaBits, leastExponent]

/-- The test of the lower end: past it, or on it where ends count. -/
theorem passesAbove_iff {x y : ℚ} (b : Bool) :
    (match compare x y with
      | .gt => true
      | .eq => b
      | .lt => false) = true ↔ y < x ∨ (y = x ∧ b = true) := by
  rcases lt_trichotomy x y with h | h | h
  · rw [compare_lt_iff_lt.2 h]
    simp [h.le, h.ne']
  · rw [h, compare_eq_iff_eq.2 rfl]
    simp
  · rw [compare_gt_iff_gt.2 h]
    simp [h]

/-- The test of the upper end: short of it, or on it where ends count. -/
theorem passesBelow_iff {x y : ℚ} (b : Bool) :
    (match compare x y with
      | .lt => true
      | .eq => b
      | .gt => false) = true ↔ x < y ∨ (x = y ∧ b = true) := by
  rcases lt_trichotomy x y with h | h | h
  · rw [compare_lt_iff_lt.2 h]
    simp [h]
  · rw [h, compare_eq_iff_eq.2 rfl]
    simp
  · rw [compare_gt_iff_gt.2 h]
    simp [h.le, h.ne']

/-- **`readsBack` decides `RoundsTo`.** -/
theorem readsBack_iff (hm : 0 < m) (d : ℕ) (g : ℤ) :
    readsBack m q d g = true ↔ RoundsTo (d * 10 ^ g) m q := by
  have hq : (2 : ℚ) ^ (q - 2) = 2 ^ q / 4 := by
    rw [zpow_sub₀ two_ne_zero]
    norm_num
  -- the ends, `(4m - 1 or 2) · 2^(q-2)` and `(4m + 2) · 2^(q-2)`, at the scale of `2^q`
  have hlow : ((4 * m - (if Parts.narrowBelow m q = true then 1 else 2) : ℕ) : ℚ) * 2 ^ (q - 2) =
      (m - lowerReach m q) * 2 ^ q := by
    unfold lowerReach
    by_cases hn : m = 2 ^ 52 ∧ -1074 < q
    · rw [if_pos (narrowBelow_iff.2 hn), if_pos hn, Nat.cast_sub (by omega), hq]
      push_cast
      ring
    · rw [if_neg (fun h => hn (narrowBelow_iff.1 h)), if_neg hn, Nat.cast_sub (by omega), hq]
      push_cast
      ring
  have hhigh : ((4 * m + 2 : ℕ) : ℚ) * 2 ^ (q - 2) = (m + 1 / 2) * 2 ^ q := by
    rw [hq]
    push_cast
    ring
  unfold readsBack
  simp only [Bool.and_eq_true, compareScaled_eq, hlow, hhigh, roundsTo_iff]
  refine (and_congr (passesAbove_iff _) (passesBelow_iff _)).trans ?_
  simp only [beq_iff_eq]

/-! ## The leading power of ten -/

/-- `log₁₀ 2 ≤ 0.30103`. -/
theorem two_pow_le_ten_pow : 2 ^ 100000 ≤ 10 ^ 30103 := by decide +kernel

/-- `0.30103 ≤ log₁₀ 2 · 1.00001`. -/
theorem ten_pow_le_two_pow : 10 ^ 30103 ≤ 2 ^ 100001 := by decide +kernel

/-- The estimate `⌊0.30103 · L⌋` of the exponent of `2^L` in base ten overshoots by less than
two. -/
theorem ten_zpow_estimate_le {L : ℤ} (hL : L ≤ 100000) :
    (10 : ℚ) ^ (L * 30103 / 100000 - 2) ≤ 2 ^ L := by
  have hEL : L * 30103 / 100000 * 100000 ≤ L * 30103 := Int.ediv_mul_le _ (by norm_num)
  generalize L * 30103 / 100000 = E at hEL ⊢
  rcases le_total 0 L with hL0 | hL0
  · -- `10^E ≤ 2^(L+1)`: both raised to the power `100000`
    obtain ⟨l, rfl⟩ := Int.eq_ofNat_of_zero_le hL0
    rcases le_total E 0 with hE0 | hE0
    · calc (10 : ℚ) ^ (E - 2) ≤ 1 := zpow_le_one_of_nonpos₀ (by norm_num) (by omega)
        _ ≤ 2 ^ (l : ℤ) := one_le_zpow₀ one_le_two (by omega)
    obtain ⟨e, rfl⟩ := Int.eq_ofNat_of_zero_le hE0
    have hnat : 10 ^ e ≤ 2 ^ (l + 1) := by
      rw [← Nat.pow_le_pow_iff_left (by norm_num : (100000 : ℕ) ≠ 0)]
      calc (10 ^ e) ^ 100000 = 10 ^ (e * 100000) := by rw [← pow_mul]
        _ ≤ 10 ^ (l * 30103) := Nat.pow_le_pow_right (by norm_num) (by omega)
        _ = (10 ^ 30103) ^ l := by rw [← pow_mul, mul_comm]
        _ ≤ (2 ^ 100001) ^ l := Nat.pow_le_pow_left ten_pow_le_two_pow l
        _ = 2 ^ (100001 * l) := by rw [← pow_mul]
        _ ≤ 2 ^ ((l + 1) * 100000) := Nat.pow_le_pow_right (by norm_num) (by omega)
        _ = (2 ^ (l + 1)) ^ 100000 := by rw [← pow_mul]
    have hq : (10 : ℚ) ^ e ≤ 2 ^ (l + 1) := by exact_mod_cast hnat
    calc (10 : ℚ) ^ ((e : ℤ) - 2) = 10 ^ e / 100 := by
          rw [zpow_sub₀ (by norm_num), zpow_natCast]
          norm_num
      _ ≤ 2 ^ (l + 1) / 100 := by gcongr
      _ ≤ 2 ^ l := by
        rw [pow_succ]
        linarith [pow_pos (two_pos : (0 : ℚ) < 2) l]
      _ = 2 ^ (l : ℤ) := (zpow_natCast 2 l).symm
  · -- `2^(-L) ≤ 10^(-E)`: both raised to the power `100000`
    obtain ⟨a, ha⟩ := Int.eq_ofNat_of_zero_le (show 0 ≤ -L by omega)
    obtain ⟨b, hb⟩ := Int.eq_ofNat_of_zero_le (show 0 ≤ -E by omega)
    have hab : a * 30103 ≤ b * 100000 := by omega
    have hnat : 2 ^ a ≤ 10 ^ b := by
      rw [← Nat.pow_le_pow_iff_left (by norm_num : (100000 : ℕ) ≠ 0)]
      calc (2 ^ a) ^ 100000 = (2 ^ 100000) ^ a := by rw [← pow_mul, ← pow_mul, mul_comm]
        _ ≤ (10 ^ 30103) ^ a := Nat.pow_le_pow_left two_pow_le_ten_pow a
        _ = 10 ^ (a * 30103) := by rw [← pow_mul, mul_comm]
        _ ≤ 10 ^ (b * 100000) := Nat.pow_le_pow_right (by norm_num) hab
        _ = (10 ^ b) ^ 100000 := by rw [← pow_mul]
    have hq : (2 : ℚ) ^ a ≤ 10 ^ (b + 2) := by
      have : (2 : ℚ) ^ a ≤ 10 ^ b := by exact_mod_cast hnat
      calc (2 : ℚ) ^ a ≤ 10 ^ b := this
        _ ≤ 10 ^ (b + 2) := pow_le_pow_right₀ (by norm_num) (by omega)
    rw [show L = -(a : ℤ) by omega, show E - 2 = -((b + 2 : ℕ) : ℤ) by push_cast; omega, zpow_neg,
      zpow_neg, zpow_natCast, zpow_natCast]
    exact inv_anti₀ (by positivity) hq

/-- **The leading power of ten is never overestimated:** `10^(k-1) ≤ m · 2^q` for
`k = exponentAbove m q`. -/
theorem ten_zpow_exponentAbove_le (hm : Canonical m q) :
    (10 : ℚ) ^ (exponentAbove m q - 1) ≤ m * 2 ^ q := by
  have hlog : m.log2 < 53 := (Nat.log2_lt hm.pos.ne').2 hm.lt
  have hbase : (10 : ℚ) ^ (((m.log2 : ℤ) + q) * 30103 / 100000 - 2) ≤ m * 2 ^ q :=
    (ten_zpow_estimate_le (by have := hm.greatest; omega)).trans
      (two_zpow_le_of_le hm.pos (by rw [mul_div_cancel_right₀ _ (two_zpow_pos q).ne']))
  -- `isAbove k` asks whether `10^k` is above `m · 2^q`
  have habove : ∀ k : ℤ, (compareScaled 1 k m q == .gt) = decide ((m : ℚ) * 2 ^ q < 10 ^ k) := by
    intro k
    rw [compareScaled_eq, Nat.cast_one, one_mul]
    rcases lt_trichotomy ((10 : ℚ) ^ k) (m * 2 ^ q) with h | h | h
    · rw [compare_lt_iff_lt.2 h]
      simp [h.le]
    · rw [h, compare_eq_iff_eq.2 rfl]
      simp
    · rw [compare_gt_iff_gt.2 h]
      simp [h]
  unfold exponentAbove
  simp only [habove, List.find?_cons, List.find?_nil]
  generalize ((m.log2 : ℤ) + q) * 30103 / 100000 = est at hbase ⊢
  -- the candidate found was not above, or is the first one, which the estimate keeps below
  by_cases h1 : (m : ℚ) * 2 ^ q < 10 ^ (est - 1)
  · simp only [h1, decide_true]
    rw [show est - 1 - 1 = est - 2 by ring]
    exact hbase
  by_cases h2 : (m : ℚ) * 2 ^ q < 10 ^ est
  · simp only [h1, h2, decide_true, decide_false]
    exact not_lt.1 h1
  by_cases h3 : (m : ℚ) * 2 ^ q < 10 ^ (est + 1)
  · simp only [h1, h2, h3, decide_true, decide_false, add_sub_cancel_right]
    exact not_lt.1 h2
  by_cases h4 : (m : ℚ) * 2 ^ q < 10 ^ (est + 2)
  · simp only [h1, h2, h3, h4, decide_true, decide_false]
    rw [show est + 2 - 1 = est + 1 by ring]
    exact not_lt.1 h3
  · simp only [h1, h2, h3, h4, decide_false]
    rw [show est + 3 - 1 = est + 2 by ring]
    exact not_lt.1 h4

/-! ## The grids -/

/-- `gridFloor` takes the point of the grid `10^g` at or below `m · 2^q`. -/
theorem gridFloor_le (m : ℕ) (q g : ℤ) :
    ((gridFloor m q g).1 : ℚ) * 10 ^ g ≤ m * 2 ^ q ∧
      (m : ℚ) * 2 ^ q < ((gridFloor m q g).1 + 1) * 10 ^ g := by
  set num := m * Nat.pow 2 q.toNat * Nat.pow 10 (-g).toNat
  set den := Nat.pow 2 (-q).toNat * Nat.pow 10 g.toNat
  have hden : (0 : ℚ) < den := by
    simp only [den, Nat.pow_eq]
    positivity
  have h10 : (0 : ℚ) < 10 ^ g := zpow_pos (by norm_num) g
  have hratio : (num : ℚ) / den = m * 2 ^ q / 10 ^ g := by
    rw [zpow_eq_div_toNat 2 q, zpow_eq_div_toNat 10 g]
    simp only [num, den]
    push_cast [Nat.pow_eq]
    field_simp
  have hlo : ((num / den : ℕ) : ℚ) ≤ (num : ℚ) / den := by
    rw [le_div_iff₀ hden]
    exact_mod_cast Nat.div_mul_le_self num den
  have hhi : (num : ℚ) / den < (num / den : ℕ) + 1 := by
    rw [div_lt_iff₀ hden]
    exact_mod_cast (show num < (num / den + 1) * den by
      rw [Nat.add_mul, one_mul]
      exact Nat.lt_div_mul_add (by exact_mod_cast hden))
  rw [hratio] at hlo hhi
  exact ⟨(le_div_iff₀ h10).1 hlo, (div_lt_iff₀ h10).1 hhi⟩

theorem onGrid_readsBack {tie : Tie} {g : ℤ} {d : ℕ} (h : onGrid tie m q g = some d) :
    readsBack m q d g = true := by
  unfold onGrid at h
  generalize gridFloor m q g = p at h
  obtain ⟨lo, side⟩ := p
  dsimp only at h
  cases hlo : readsBack m q lo g <;> cases hhi : readsBack m q (lo + 1) g <;>
    simp only [hlo, hhi, reduceCtorEq, Option.some.injEq] at h
  · -- only the point above reads back
    rw [← h]
    exact hhi
  · -- only the point below reads back
    rw [← h]
    exact hlo
  · -- both read back: the one kept is one of them
    have hd : d = lo ∨ d = lo + 1 := by
      cases side <;> cases tie <;> simp only [Option.some.injEq] at h <;> try split at h
      all_goals omega
    rcases hd with rfl | rfl
    · exact hlo
    · exact hhi

theorem lowerReach_pos (m : ℕ) (q : ℤ) : 0 < lowerReach m q := by
  unfold lowerReach
  split <;> norm_num

/-- On a grid finer than the rounding interval, the nearer of the two grid points next to the
double lies inside its interval, so `onGrid` keeps one. -/
theorem onGrid_ne_none (hm : 0 < m) (tie : Tie) {g : ℤ}
    (hg : (10 : ℚ) ^ g < 2 * lowerReach m q * 2 ^ q) : onGrid tie m q g ≠ none := by
  obtain ⟨hlo, hhi⟩ := gridFloor_le m q g
  have hw := lowerReach_le m q
  have hw0 := lowerReach_pos m q
  have h2 := two_zpow_pos q
  have hw2 : 0 < lowerReach m q * 2 ^ q := mul_pos hw0 h2
  have hreads : readsBack m q (gridFloor m q g).1 g = true ∨
      readsBack m q ((gridFloor m q g).1 + 1) g = true := by
    by_cases hhalf : (m : ℚ) * 2 ^ q - (gridFloor m q g).1 * 10 ^ g ≤ 10 ^ g / 2
    · -- the point below is within half a step
      left
      rw [readsBack_iff hm, roundsTo_iff]
      refine ⟨.inl ?_, .inl ?_⟩
      · linarith
      · nlinarith
    · -- the point above is within half a step
      right
      rw [readsBack_iff hm, roundsTo_iff]
      push_cast
      refine ⟨.inl ?_, .inl ?_⟩
      · linarith
      · nlinarith
  unfold onGrid
  generalize gridFloor m q g = p at hreads
  obtain ⟨lo, side⟩ := p
  dsimp only at hreads ⊢
  cases hlo : readsBack m q lo g <;> cases hhi : readsBack m q (lo + 1) g
  · simp [hlo, hhi] at hreads
  · simp
  · simp
  · -- both read back: every way of choosing between them returns one
    cases side <;> cases tie <;> simp

theorem stripZeros_value (d : ℕ) (g : ℤ) :
    ((stripZeros d g).1 : ℚ) * 10 ^ (stripZeros d g).2 = d * 10 ^ g := by
  fun_induction stripZeros d g with
  | case1 d g h ih =>
    rw [ih, zpow_add_one₀ (by norm_num)]
    have : (d : ℚ) = (d / 10 : ℕ) * 10 := by exact_mod_cast (Nat.div_mul_cancel (Nat.dvd_of_mod_eq_zero h.2)).symm
    rw [this]
    ring
  | case2 d g h => rfl

/-- Seventeen significant digits are finer than any rounding interval of a double: the
interval is at least half a unit of `m` wide (a quarter below a power of two). -/
theorem lt_lowerReach_mul (hm : Canonical m q) : (m : ℚ) < 2 * lowerReach m q * 10 ^ 16 := by
  have hlt : (m : ℚ) < 2 ^ 53 := by exact_mod_cast hm.lt
  unfold lowerReach
  split
  · next h =>
    rw [h.1]
    norm_num
  · linarith

theorem onGrid_seventeen_ne_none (hm : Canonical m q) (tie : Tie) :
    onGrid tie m q (exponentAbove m q - 17) ≠ none := by
  refine onGrid_ne_none hm.pos tie ?_
  have hk := ten_zpow_exponentAbove_le hm
  have hsplit : (10 : ℚ) ^ (exponentAbove m q - 17) = 10 ^ (exponentAbove m q - 1) / 10 ^ 16 := by
    rw [← zpow_natCast, ← zpow_sub₀ (by norm_num)]
    ring_nf
  have h2 := two_zpow_pos q
  have hfine := lt_lowerReach_mul hm
  rw [hsplit, div_lt_iff₀ (by norm_num)]
  calc (10 : ℚ) ^ (exponentAbove m q - 1) ≤ m * 2 ^ q := hk
    _ < 2 * lowerReach m q * 10 ^ 16 * 2 ^ q := by gcongr
    _ = 2 * lowerReach m q * 2 ^ q * 10 ^ 16 := by ring

/-- The shortest decimal reads back as the double it was made from. -/
theorem shortest_roundsTo (hm : Canonical m q) (tie : Tie) :
    RoundsTo ((shortest tie m q).1 * 10 ^ (shortest tie m q).2) m q := by
  have hlast := onGrid_seventeen_ne_none hm tie
  unfold shortest
  dsimp only
  generalize hhit : List.findSome? _ (List.range 17) = hit
  cases hit with
  | none =>
    -- the search reaches the seventeenth grid, which has a point
    rw [List.findSome?_eq_none_iff] at hhit
    have h16 := hhit 16 (by simp)
    simp only [Option.map_eq_none_iff] at h16
    exact absurd h16 hlast
  | some p =>
    obtain ⟨d, g⟩ := p
    obtain ⟨i, -, hi⟩ := List.exists_of_findSome?_eq_some hhit
    obtain ⟨d', hd', hdg⟩ := Option.map_eq_some_iff.1 hi
    simp only [Prod.mk.injEq] at hdg
    obtain ⟨rfl, rfl⟩ := hdg
    dsimp only [Option.getD_some]
    rw [stripZeros_value, ← readsBack_iff hm.pos]
    exact onGrid_readsBack hd'

end MiniLisp.Decimal
