import Conduit.Number.Double
import Mathlib.Algebra.Order.Field.Power
import Mathlib.Tactic.FieldSimp
import Mathlib.Tactic.Linarith
import Mathlib.Tactic.NormNum
import Mathlib.Tactic.Ring

/-! What rounds to a double. Around each double lie the rationals that are nearer to it than to the doubles
beside it; every one of them is rounded to it. -/
namespace Conduit.Double

/-! The nearest natural. -/

theorem roundQuotientNear {num den q : Nat} (lower : 2 * q * den ≤ 2 * num + den)
    (upper : 2 * num ≤ (2 * q + 1) * den)
    (odd : q % 2 = 1 → 2 * q * den < 2 * num + den ∧ 2 * num < (2 * q + 1) * den) (positive : 0 < den) :
    roundQuotient num den = q := by
  have whole : den * (num / den) + num % den = num := Nat.div_add_mod num den
  have rest : num % den < den := Nat.mod_lt num positive
  have notAbove : num / den ≤ q := by
    by_contra above
    have : den * (q + 1) ≤ num := (Nat.mul_le_mul_left den (by omega)).trans (Nat.mul_div_le num den)
    nlinarith
  have notBelow : q ≤ num / den + 1 := by
    by_contra below
    have : den * (num / den + 2) ≤ den * q := Nat.mul_le_mul_left den (by omega)
    nlinarith
  unfold roundQuotient
  rcases Nat.lt_or_ge (num / den) q with less | same
  · obtain rfl : q = num / den + 1 := by omega
    have half : den ≤ 2 * (num % den) := by nlinarith
    simp only [show ¬ 2 * (num % den) < den by omega, if_false]
    by_cases tie : den < 2 * (num % den)
    · simp only [tie, if_true]
    · have strict : (num / den + 1) % 2 = 1 → den < 2 * (num % den) := fun h => by
        have := (odd h).1
        nlinarith
      simp only [tie, if_false]
      split
      · have := strict (by omega)
        omega
      · rfl
  · obtain rfl : num / den = q := by omega
    have half : 2 * (num % den) ≤ den := by nlinarith
    by_cases below : 2 * (num % den) < den
    · simp only [below, if_true]
    · have strict : (num / den) % 2 = 1 → 2 * (num % den) < den := fun h => by
        have := (odd h).2
        nlinarith
      simp only [below, if_false, show ¬ den < 2 * (num % den) by omega]
      split
      · rfl
      · have := strict (by omega)
        omega

/-! The scale of a quotient. -/

theorem zpowQuotient (base : ℚ) (power : ℤ) :
    base ^ power = base ^ power.toNat / base ^ (-power).toNat := by
  rcases Int.le_total 0 power with up | down
  · obtain ⟨n, rfl⟩ := Int.eq_ofNat_of_zero_le up
    simp
  · obtain ⟨n, same⟩ := Int.eq_ofNat_of_zero_le (Int.neg_nonneg_of_nonpos down)
    obtain rfl : power = -(n : ℤ) := by omega
    simp

theorem scaledPositive (num : Nat) {den : Nat} (positive : 0 < den) (shift : ℤ) : 0 < (scaled num den shift).2 :=
  Nat.mul_pos positive (Nat.pow_pos (by decide))

theorem scaledRatio (num den : Nat) (shift : ℤ) :
    ((scaled num den shift).1 : ℚ) / (scaled num den shift).2 = num / den / 2 ^ shift := by
  have split := zpowQuotient 2 shift
  rw [split]
  simp only [scaled, Nat.cast_mul, Nat.cast_pow, Nat.cast_ofNat]
  have up : (2 : ℚ) ^ shift.toNat ≠ 0 := by positivity
  have down : (2 : ℚ) ^ (-shift).toNat ≠ 0 := by positivity
  field_simp

theorem log2Bounds {num den : Nat} (top : 0 < num) (bottom : 0 < den) :
    (2 : ℚ) ^ ((num.log2 : ℤ) - den.log2 - 1) < num / den ∧
      (num : ℚ) / den < 2 ^ ((num.log2 : ℤ) - den.log2 + 1) := by
  have two : (2 : ℚ) ≠ 0 := by norm_num
  have low (n : Nat) (positive : 0 < n) : (2 : ℚ) ^ (n.log2 : ℤ) ≤ n := by
    rw [zpow_natCast]
    exact_mod_cast Nat.log2_self_le (Nat.pos_iff_ne_zero.mp positive)
  have high (n : Nat) : (n : ℚ) < 2 ^ ((n.log2 : ℤ) + 1) := by
    have : n < 2 ^ (n.log2 + 1) := Nat.lt_log2_self
    exact_mod_cast this
  have denominator : (0 : ℚ) < den := by exact_mod_cast bottom
  constructor
  · rw [lt_div_iff₀ denominator]
    calc (2 : ℚ) ^ ((num.log2 : ℤ) - den.log2 - 1) * den
        < 2 ^ ((num.log2 : ℤ) - den.log2 - 1) * 2 ^ ((den.log2 : ℤ) + 1) := by
          exact mul_lt_mul_of_pos_left (high den) (by positivity)
      _ = 2 ^ (num.log2 : ℤ) := by
          rw [← zpow_add₀ two]
          congr 1
          ring
      _ ≤ num := low num top
  · rw [div_lt_iff₀ denominator]
    calc (num : ℚ) < 2 ^ ((num.log2 : ℤ) + 1) := high num
      _ = 2 ^ ((num.log2 : ℤ) - den.log2 + 1) * 2 ^ (den.log2 : ℤ) := by
          rw [← zpow_add₀ two]
          congr 1
          ring
      _ ≤ 2 ^ ((num.log2 : ℤ) - den.log2 + 1) * den :=
          mul_le_mul_of_nonneg_left (low den bottom) (by positivity)

theorem guessCompared (num : Nat) {den : Nat} (bottom : 0 < den) (guess : ℤ) :
    (scaled num den guess).1 < 2 ^ 52 * (scaled num den guess).2 ↔ (num : ℚ) / den < 2 ^ 52 * 2 ^ guess := by
  have ratio := scaledRatio num den guess
  have positive : (0 : ℚ) < (scaled num den guess).2 := by exact_mod_cast scaledPositive _ bottom _
  rw [← div_lt_iff₀ (by positivity), ← ratio, div_lt_iff₀ positive]
  exact_mod_cast Iff.rfl

theorem powerShifted (n : ℕ) (scale : ℤ) : (2 : ℚ) ^ n * 2 ^ scale = 2 ^ ((n : ℤ) + scale) := by
  rw [zpow_add₀ (by norm_num), zpow_natCast]

theorem guessBounds {num den : Nat} (top : 0 < num) (bottom : 0 < den) :
    ∃ scale : ℤ, bestScale num den = max scale (-1074) ∧
      (num : ℚ) / den < 2 ^ 53 * 2 ^ scale ∧ 2 ^ 52 * 2 ^ scale ≤ (num : ℚ) / den := by
  obtain ⟨above, below⟩ := log2Bounds top bottom
  have compare := guessCompared num bottom ((num.log2 : ℤ) - den.log2 - 52)
  by_cases less : (scaled num den ((num.log2 : ℤ) - den.log2 - 52)).1 <
      2 ^ 52 * (scaled num den ((num.log2 : ℤ) - den.log2 - 52)).2
  · refine ⟨(num.log2 : ℤ) - den.log2 - 52 - 1, ?_, ?_, ?_⟩
    · simp only [bestScale, less, if_true]
    · have bound := compare.mp less
      rw [powerShifted] at bound ⊢
      convert bound using 2
      norm_num
      ring
    · rw [powerShifted]
      refine le_of_lt (lt_of_eq_of_lt ?_ above)
      congr 1
      push_cast
      ring
  · refine ⟨(num.log2 : ℤ) - den.log2 - 52, ?_, ?_, ?_⟩
    · simp only [bestScale, less, if_false]
    · rw [powerShifted]
      refine lt_of_lt_of_eq below ?_
      congr 1
      push_cast
      ring
    · exact not_lt.mp fun bound => less (compare.mpr bound)

theorem bestScaleBounds {num den : Nat} (top : 0 < num) (bottom : 0 < den) :
    -1074 ≤ bestScale num den ∧ (num : ℚ) / den < 2 ^ 53 * 2 ^ bestScale num den ∧
      (bestScale num den = -1074 ∨ 2 ^ 52 * 2 ^ bestScale num den ≤ (num : ℚ) / den) := by
  obtain ⟨scale, best, less, more⟩ := guessBounds top bottom
  have grows : (2 : ℚ) ^ scale ≤ 2 ^ bestScale num den :=
    zpow_le_zpow_right₀ (by norm_num) (best ▸ le_max_left _ _)
  refine ⟨best ▸ le_max_right _ _, less.trans_le (mul_le_mul_of_nonneg_left grows (by positivity)), ?_⟩
  rcases max_choice scale (-1074) with same | same
  · right
    rw [best, same]
    exact more
  · left
    rw [best, same]

/-! The rationals around a double. -/

theorem roundRatioNear {num den q : Nat} (positive : 0 < den) (lower : (q : ℚ) - 1 / 2 ≤ num / den)
    (upper : (num : ℚ) / den ≤ q + 1 / 2)
    (odd : q % 2 = 1 → (q : ℚ) - 1 / 2 < num / den ∧ (num : ℚ) / den < q + 1 / 2) :
    roundQuotient num den = q := by
  have bottom : (0 : ℚ) < den := by exact_mod_cast positive
  rw [le_div_iff₀ bottom] at lower
  rw [div_le_iff₀ bottom] at upper
  rw [lt_div_iff₀ bottom, div_lt_iff₀ bottom] at odd
  refine roundQuotientNear ?_ ?_ (fun isOdd => ⟨?_, ?_⟩) positive
  · have : (2 * q * den : ℚ) ≤ 2 * num + den := by linarith
    exact_mod_cast this
  · have : (2 * num : ℚ) ≤ (2 * q + 1) * den := by linarith
    exact_mod_cast this
  · have : (2 * q * den : ℚ) < 2 * num + den := by linarith [(odd isOdd).1]
    exact_mod_cast this
  · have : (2 * num : ℚ) < (2 * q + 1) * den := by linarith [(odd isOdd).2]
    exact_mod_cast this

def isLowest (d : Double) : Bool := d.fraction.val = 0 && 1 < d.exponent.val

def gap (d : Double) : ℚ := if d.isLowest then 1 / 4 else 1 / 2

/-- A magnitude that is no nearer to any other double, nor as near to one with an even significand. -/
structure Near (d : Double) (x : ℚ) : Prop where
  lower : (d.significand - d.gap) * 2 ^ d.scale ≤ x
  upper : x ≤ (d.significand + 1 / 2) * 2 ^ d.scale
  odd : d.significand % 2 = 1 →
    (d.significand - d.gap) * 2 ^ d.scale < x ∧ x < (d.significand + 1 / 2) * 2 ^ d.scale

theorem significandLt (d : Double) : d.significand < 2 ^ 53 := by
  have := d.fraction.isLt
  unfold significand
  split <;> omega

theorem scaleLow (d : Double) : -1074 ≤ d.scale := by
  unfold scale
  omega

theorem scaleHigh (d : Double) : d.scale ≤ 971 := by
  have := d.exponent.isLt
  unfold scale
  omega

theorem significandNormal {d : Double} (above : -1074 < d.scale) : 2 ^ 52 ≤ d.significand := by
  unfold scale at above
  unfold significand
  split <;> omega

theorem lowestSignificand {d : Double} (lowest : d.isLowest) : d.significand = 2 ^ 52 := by
  simp only [isLowest, Bool.and_eq_true, decide_eq_true_eq] at lowest
  unfold significand
  split <;> omega

theorem lowestOf {d : Double} (above : -1074 < d.scale) (least : d.significand = 2 ^ 52) : d.isLowest := by
  simp only [isLowest, Bool.and_eq_true, decide_eq_true_eq]
  unfold scale at above
  unfold significand at least
  split at least <;> omega

theorem gapLe (d : Double) : d.gap ≤ 1 / 2 := by
  unfold gap
  split <;> norm_num

theorem packSelf (d : Double) (negative : Bool) :
    pack negative d.significand d.scale = some { d with negative } := by
  obtain ⟨sign, exponent, fraction⟩ := d
  have := fraction.isLt
  have := exponent.isLt
  by_cases least : exponent.val = 0
  · have same : (0 : Fin 2047) = exponent := Fin.ext least.symm
    simp [pack, significand, least, same]
  · have power : ((max exponent.val 1 : Nat) - 1075 + 1075 : ℤ).toNat = exponent.val := by omega
    simp only [pack, significand, least, if_false, scale, power]
    rw [dif_neg (by omega), dif_pos exponent.isLt, dif_pos (by omega)]
    simp

section

variable {d : Double} {num den : Nat} (bottom : 0 < den) (near : d.Near (num / den))
include bottom near

theorem roundedHere (same : bestScale num den = d.scale) :
    roundQuotient (scaled num den (bestScale num den)).1 (scaled num den (bestScale num den)).2 = d.significand := by
  have ratio := scaledRatio num den (bestScale num den)
  have unit : (0 : ℚ) < 2 ^ d.scale := by positivity
  have reach : (d.significand - 1 / 2 : ℚ) * 2 ^ d.scale ≤ (d.significand - d.gap) * 2 ^ d.scale :=
    mul_le_mul_of_nonneg_right (by linarith [d.gapLe]) unit.le
  rw [same] at ratio ⊢
  refine roundRatioNear (scaledPositive num bottom _) ?_ ?_ fun isOdd => ⟨?_, ?_⟩
  · rw [ratio, le_div_iff₀ unit]
    exact reach.trans near.lower
  · rw [ratio, div_le_iff₀ unit]
    exact near.upper
  · rw [ratio, lt_div_iff₀ unit]
    exact reach.trans_lt (near.odd isOdd).1
  · rw [ratio, div_lt_iff₀ unit]
    exact (near.odd isOdd).2

variable (top : 0 < num)
include top

theorem bestNotAbove : bestScale num den ≤ d.scale := by
  by_contra above
  obtain ⟨-, -, best⟩ := bestScaleBounds top bottom
  have grows : (2 : ℚ) * 2 ^ d.scale ≤ 2 ^ bestScale num den := by
    rw [← zpow_one_add₀ (by norm_num : (2 : ℚ) ≠ 0)]
    exact zpow_le_zpow_right₀ (by norm_num) (by omega)
  have large : (2 : ℚ) ^ 52 * 2 ^ bestScale num den ≤ num / den :=
    best.resolve_left (by have := d.scaleLow; omega)
  have small : (d.significand : ℚ) + 1 ≤ 2 ^ 53 := by
    have : d.significand + 1 ≤ 2 ^ 53 := d.significandLt
    exact_mod_cast this
  have bound : (d.significand + 1 / 2 : ℚ) * 2 ^ d.scale < 2 ^ 53 * 2 ^ d.scale :=
    mul_lt_mul_of_pos_right (by linarith) (by positivity)
  linarith [near.upper]

theorem bestBelow (below : bestScale num den < d.scale) : d.significand = 2 ^ 52 ∧ bestScale num den = d.scale - 1 := by
  obtain ⟨low, less, -⟩ := bestScaleBounds top bottom
  have unit : (0 : ℚ) < 2 ^ d.scale := by positivity
  have half (scale : ℤ) : (2 : ℚ) ^ scale = 2 * 2 ^ (scale - 1) := by
    rw [← zpow_one_add₀ (by norm_num : (2 : ℚ) ≠ 0), add_sub_cancel]
  have least : d.significand = 2 ^ 52 := by
    have short : (num : ℚ) / den < 2 ^ 52 * 2 ^ d.scale := by
      have grows : (2 : ℚ) ^ bestScale num den ≤ 2 ^ (d.scale - 1) := zpow_le_zpow_right₀ (by norm_num) (by omega)
      have := half d.scale
      linarith
    have : (d.significand : ℚ) - d.gap < 2 ^ 52 := lt_of_mul_lt_mul_right (near.lower.trans_lt short) unit.le
    have : (d.significand : ℚ) < 2 ^ 52 + 1 := by linarith [d.gapLe]
    have : d.significand < 2 ^ 52 + 1 := by exact_mod_cast this
    have : 2 ^ 52 ≤ d.significand := significandNormal (by omega)
    omega
  refine ⟨least, ?_⟩
  by_contra other
  have reaches := near.lower
  rw [least, gap, if_pos (lowestOf (by omega) least)] at reaches
  push_cast at reaches
  have grows : (2 : ℚ) ^ bestScale num den ≤ 2 ^ (d.scale - 1 - 1) := zpow_le_zpow_right₀ (by norm_num) (by omega)
  have := half d.scale
  have := half (d.scale - 1)
  linarith

theorem roundedBelow (below : bestScale num den < d.scale) :
    roundQuotient (scaled num den (bestScale num den)).1 (scaled num den (bestScale num den)).2 = 2 ^ 53 := by
  obtain ⟨least, next⟩ := bestBelow bottom near top below
  obtain ⟨low, less, -⟩ := bestScaleBounds top bottom
  have ratio := scaledRatio num den (bestScale num den)
  have unit : (0 : ℚ) < 2 ^ bestScale num den := by positivity
  have step : (2 : ℚ) ^ d.scale = 2 * 2 ^ bestScale num den := by
    rw [next, ← zpow_one_add₀ (by norm_num : (2 : ℚ) ≠ 0), add_sub_cancel]
  have reaches := near.lower
  rw [least, gap, if_pos (lowestOf (by omega) least), step] at reaches
  push_cast at reaches
  refine roundRatioNear (scaledPositive num bottom _) ?_ ?_ (fun isOdd => absurd isOdd (by norm_num))
  · rw [ratio, le_div_iff₀ unit]
    push_cast
    linarith
  · rw [ratio, div_le_iff₀ unit]
    push_cast
    linarith

theorem ofRatioNear (negative : Bool) : ofRatio negative num den = some { d with negative } := by
  unfold ofRatio
  rw [if_neg (Nat.pos_iff_ne_zero.mp top)]
  simp only
  rcases (bestNotAbove bottom near top).lt_or_eq with below | same
  · obtain ⟨least, next⟩ := bestBelow bottom near top below
    rw [if_pos (roundedBelow bottom near top below), next, sub_add_cancel, ← least]
    exact packSelf d negative
  · rw [roundedHere bottom near same, if_neg (Nat.ne_of_lt d.significandLt), same]
    exact packSelf d negative

end

/-! Whole numbers stay whole. -/

theorem zeroWhole : zero.isWhole := by decide +kernel

theorem packNormal {negative : Bool} {significand : Nat} {scale : ℤ} {d : Double} (least : 2 ^ 52 ≤ significand)
    (low : -1074 ≤ scale) (packed : pack negative significand scale = some d) :
    d.significand = significand ∧ d.scale = scale := by
  simp only [pack, dif_neg (Nat.not_lt.mpr least)] at packed
  split at packed
  · split at packed
    · cases packed
      have normal : (scale + 1075).toNat ≠ 0 := by omega
      constructor
      · simp only [Double.significand, if_neg normal]
        omega
      · simp only [Double.scale]
        omega
    · cases packed
  · cases packed

theorem ofNaturalWhole {negative : Bool} {n : Nat} {d : Double} (rounded : ofRatio negative n 1 = some d) :
    d.isWhole := by
  rw [isWhole, decide_eq_true_eq]
  unfold ofRatio at rounded
  by_cases none : n = 0
  · rw [if_pos none] at rounded
    cases rounded
    exact Nat.zero_mod _
  rw [if_neg none] at rounded
  have top : 0 < n := Nat.pos_of_ne_zero none
  obtain ⟨-, less, least⟩ := bestScaleBounds top Nat.one_pos
  rw [Nat.cast_one, div_one] at less least
  generalize bestScale n 1 = scale at less least rounded
  have above : -53 ≤ scale := by
    by_contra below
    have small : (2 : ℚ) ^ scale ≤ 2 ^ (-53 - 1 : ℤ) := zpow_le_zpow_right₀ (by norm_num) (by omega)
    have one : (1 : ℚ) ≤ n := by exact_mod_cast top
    norm_num at small
    linarith
  replace least := least.resolve_left (by omega)
  simp only [scaled, one_mul] at rounded
  rcases Int.le_total scale 0 with down | up
  · -- every digit is kept
    obtain ⟨places, same⟩ := Int.eq_ofNat_of_zero_le (Int.neg_nonneg_of_nonpos down)
    obtain rfl : scale = -(places : ℤ) := by omega
    have kept : roundQuotient (n * 2 ^ places) 1 = n * 2 ^ places := by simp [roundQuotient, Nat.mod_one]
    have unit : (0 : ℚ) < 2 ^ places := by positivity
    rw [zpow_neg, zpow_natCast, ← div_eq_mul_inv] at less least
    rw [lt_div_iff₀ unit] at less
    rw [div_le_iff₀ unit] at least
    have less : n * 2 ^ places < 2 ^ 53 := by exact_mod_cast less
    have least : 2 ^ 52 ≤ n * 2 ^ places := by exact_mod_cast least
    simp only [neg_neg, Int.toNat_natCast, Int.toNat_neg_natCast, pow_zero, kept, if_neg (Nat.ne_of_lt less)] at rounded
    obtain ⟨significand, scale⟩ := packNormal least (by omega) rounded
    rw [numerator, denominator, significand, scale, neg_neg, Int.toNat_natCast, Int.toNat_neg_natCast, pow_zero, mul_one]
    exact Nat.mul_mod_left n (2 ^ places)
  · obtain ⟨places, rfl⟩ := Int.eq_ofNat_of_zero_le up
    have whole {d : Double} (scale : 0 ≤ d.scale) : d.numerator % d.denominator = 0 := by
      rw [denominator, show (-d.scale).toNat = 0 by omega, pow_zero]
      exact Nat.mod_one _
    rw [zpow_natCast] at least
    have least : 2 ^ 52 * 2 ^ places ≤ n := by exact_mod_cast least
    simp only [Int.toNat_natCast, Int.toNat_neg_natCast, pow_zero, mul_one] at rounded
    split at rounded
    · obtain ⟨-, scale⟩ := packNormal (Nat.le_refl _) (by omega) rounded
      exact whole (by omega)
    · have more : 2 ^ 52 ≤ roundQuotient n (2 ^ places) := by
        have quotient : 2 ^ 52 ≤ n / 2 ^ places := (Nat.le_div_iff_mul_le (by positivity)).mpr least
        unfold roundQuotient
        dsimp only
        split_ifs <;> omega
      obtain ⟨-, scale⟩ := packNormal more (by omega) rounded
      exact whole (by omega)

end Conduit.Double
