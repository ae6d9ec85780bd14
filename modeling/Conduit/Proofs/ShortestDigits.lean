import Conduit.Proofs.DoubleRounding

/-! The shortest digits of a double stand for a number near it, so they are rounded back to it. -/
namespace Conduit.Double

def Decimal.value (d : Decimal) : ℚ := d.digits * 10 ^ d.power

/-! The neighbourhood in whole numbers. -/

theorem basinUnit (d : Double) : (0 : ℚ) < d.basin.unit := by
  simp only [basin, denominator]
  positivity

theorem basinRatio (d : Double) (n : ℕ) :
    ((n * 2 ^ d.scale.toNat : ℕ) : ℚ) / d.basin.unit = (n : ℚ) / 4 * 2 ^ d.scale := by
  rw [zpowQuotient 2 d.scale]
  simp only [basin, denominator, Nat.cast_mul, Nat.cast_pow, Nat.cast_ofNat]
  have down : (2 : ℚ) ^ (-d.scale).toNat ≠ 0 := by positivity
  field_simp

theorem basinLow {d : Double} (nonzero : 0 < d.significand) :
    (d.basin.low : ℚ) / d.basin.unit = (d.significand - d.gap) * 2 ^ d.scale := by
  have low : d.basin.low = (4 * d.significand - if d.isLowest then 1 else 2) * 2 ^ d.scale.toNat := rfl
  rw [low, basinRatio]
  congr 1
  unfold gap
  split
  · rw [Nat.cast_sub (by omega)]
    push_cast
    ring
  · rw [Nat.cast_sub (by omega)]
    push_cast
    ring

theorem basinHigh (d : Double) : (d.basin.high : ℚ) / d.basin.unit = (d.significand + 1 / 2) * 2 ^ d.scale := by
  have high : d.basin.high = (4 * d.significand + 2) * 2 ^ d.scale.toNat := rfl
  rw [high, basinRatio]
  push_cast
  ring

theorem basinValue (d : Double) : (d.basin.value : ℚ) / d.basin.unit = d.significand * 2 ^ d.scale := by
  have value : d.basin.value = 4 * d.significand * 2 ^ d.scale.toNat := rfl
  rw [value, basinRatio]
  push_cast
  ring

theorem scaledLe (bound : ℕ) {unit : ℕ} (t : ℕ) (power : ℤ) (positive : (0 : ℚ) < unit) :
    (bound * 10 ^ (-power).toNat ≤ t * 10 ^ power.toNat * unit ↔
      (bound : ℚ) / unit ≤ t * 10 ^ power) ∧
    (t * 10 ^ power.toNat * unit ≤ bound * 10 ^ (-power).toNat ↔
      (t : ℚ) * 10 ^ power ≤ bound / unit) := by
  have down : (0 : ℚ) < 10 ^ (-power).toNat := by positivity
  rw [zpowQuotient 10 power, div_le_iff₀ positive, le_div_iff₀ positive, mul_div_assoc', div_mul_eq_mul_div,
    le_div_iff₀ down, div_le_iff₀ down]
  exact ⟨by exact_mod_cast Iff.rfl, by exact_mod_cast Iff.rfl⟩

theorem scaledLt {bound unit : ℕ} (t : ℕ) (power : ℤ) (positive : (0 : ℚ) < unit) :
    (bound * 10 ^ (-power).toNat < t * 10 ^ power.toNat * unit ↔
      (bound : ℚ) / unit < t * 10 ^ power) ∧
    (t * 10 ^ power.toNat * unit < bound * 10 ^ (-power).toNat ↔
      (t : ℚ) * 10 ^ power < bound / unit) := by
  obtain ⟨low, high⟩ := scaledLe bound t power positive
  constructor
  · rw [← not_le, ← not_le, high]
  · rw [← not_le, ← not_le, low]

theorem holdsNear {d : Double} (nonzero : 0 < d.significand) (t : ℕ) (power : ℤ) :
    d.basin.holds t power = true ↔ d.Near (t * 10 ^ power) := by
  have unit := basinUnit d
  have closed : d.basin.closed = decide (d.significand % 2 = 0) := rfl
  simp only [Basin.holds, closed]
  rcases Nat.mod_two_eq_zero_or_one d.significand with even | isOdd
  · simp only [even, decide_true, if_true, Bool.and_eq_true, decide_eq_true_eq,
      (scaledLe _ t power unit).1, (scaledLe _ t power unit).2, basinLow nonzero, basinHigh]
    exact ⟨fun h => ⟨h.1, h.2, fun isOdd => by omega⟩, fun near => ⟨near.lower, near.upper⟩⟩
  · simp only [isOdd, Nat.one_ne_zero, decide_false, Bool.false_eq_true, if_false, Bool.and_eq_true,
      decide_eq_true_eq, (scaledLt t power unit).1, (scaledLt t power unit).2, basinLow nonzero, basinHigh]
    exact ⟨fun h => ⟨h.1.le, h.2.le, fun _ => h⟩, fun near => near.odd isOdd⟩

/-! The search. -/

theorem placesLe {n : ℕ} (positive : 0 < n) : 10 ^ (places n - 1) ≤ n := by
  unfold places
  by_cases single : (Nat.toDigits 10 n).length = 1
  · rw [single]
    exact positive
  · have some : 0 < (Nat.toDigits 10 n).length := Nat.length_toDigits_pos
    have long := (Nat.length_toDigits_le_iff (b := 10) (n := n) (k := (Nat.toDigits 10 n).length - 1)
      (by decide) (by omega)).not.mp (by omega)
    exact not_lt.mp long

theorem ltPlaces (n : ℕ) : n < 10 ^ places n :=
  (Nat.length_toDigits_le_iff (by decide) Nat.length_toDigits_pos).mp le_rfl

theorem leadingLe {num den : ℕ} (top : 0 < num) (bottom : 0 < den) :
    (10 : ℚ) ^ leading num den ≤ num / den := by
  have denominator : (0 : ℚ) < den := by exact_mod_cast bottom
  rw [le_div_iff₀ denominator]
  unfold leading
  split
  next large =>
    have quotient : 0 < num / den := Nat.div_pos large bottom
    have some : 0 < places (num / den) := Nat.length_toDigits_pos
    have power : ((places (num / den) : ℤ) - 1) = ((places (num / den) - 1 : ℕ) : ℤ) := by omega
    have bound : 10 ^ (places (num / den) - 1) * den ≤ num :=
      (Nat.mul_le_mul_right den (placesLe quotient)).trans (Nat.div_mul_le_self num den)
    rw [power, zpow_natCast]
    exact_mod_cast bound
  next small =>
    have inverse : 2 ≤ (den + num - 1) / num := (Nat.le_div_iff_mul_le top).mpr (by omega)
    have reach : den ≤ (den + num - 1) / num * num := by
      have := Nat.div_add_mod (den + num - 1) num
      have := Nat.mod_lt (den + num - 1) top
      have := Nat.mul_comm num ((den + num - 1) / num)
      omega
    have bound : (den + num - 1) / num ≤ 10 ^ places ((den + num - 1) / num - 1) := by
      have := ltPlaces ((den + num - 1) / num - 1)
      omega
    have total : den ≤ 10 ^ places ((den + num - 1) / num - 1) * num :=
      reach.trans (Nat.mul_le_mul_right num bound)
    simp only [show ¬ (den + num - 1) / num ≤ 1 by omega, if_false, zpow_neg, zpow_natCast]
    rw [inv_mul_le_iff₀ (by positivity)]
    exact_mod_cast total

theorem onGridHolds {b : Basin} {power : ℤ} {d : Decimal} (found : b.onGrid power = some d) :
    b.holds d.digits d.power = true := by
  unfold Basin.onGrid at found
  simp only at found
  split at found
  next both =>
    cases found
    exact (Bool.and_eq_true _ _ ▸ both).1
  next =>
    split at found
    next above =>
      cases found
      exact above
    next => cases found

theorem onGridSome {b : Basin} {power : ℤ}
    (some : b.holds (b.value * 10 ^ (-power).toNat / (b.unit * 10 ^ power.toNat)) power = true ∨
      b.holds (b.value * 10 ^ (-power).toNat / (b.unit * 10 ^ power.toNat) + 1) power = true) :
    (b.onGrid power).isSome := by
  unfold Basin.onGrid
  simp only
  split
  · rfl
  · split
    · rfl
    · simp_all

theorem searchHolds {b : Basin} (count : ℕ) {power : ℤ}
    (some : ∃ k : ℕ, k ≤ count ∧ (b.onGrid (power - k)).isSome) :
    b.holds (b.search power count).digits (b.search power count).power = true := by
  induction count generalizing power with
  | zero =>
    obtain ⟨k, within, some⟩ := some
    obtain rfl : k = 0 := by omega
    obtain ⟨d, found⟩ := Option.isSome_iff_exists.mp some
    rw [Nat.cast_zero, sub_zero] at found
    simpa only [Basin.search, found, Option.getD_some] using onGridHolds found
  | succ count ih =>
    cases here : b.onGrid power with
    | some d => simpa only [Basin.search, here, Option.getD_some] using onGridHolds here
    | none =>
      simp only [Basin.search, here, Option.getD_none]
      obtain ⟨k, within, some⟩ := some
      obtain ⟨k, rfl⟩ : ∃ j, k = j + 1 := by
        refine ⟨k - 1, ?_⟩
        have : k ≠ 0 := by
          rintro rfl
          simp [here] at some
        omega
      refine ih ⟨k, by omega, ?_⟩
      rwa [show power - 1 - (k : ℤ) = power - ((k + 1 : ℕ) : ℤ) by push_cast; ring]

theorem gapPositive (d : Double) : 0 < d.gap := by
  unfold gap
  split <;> norm_num

/-- The search starts from a power no greater than the magnitude, and the neighbourhood is wider than the
grid that is sixteen powers finer. -/
theorem gridWidth {d : Double} (nonzero : 0 < d.significand) :
    (10 : ℚ) ^ (leading d.basin.value d.basin.unit - 16) < (1 / 2 + d.gap) * 2 ^ d.scale := by
  have unit := basinUnit d
  have place : (0 : ℚ) < 2 ^ d.scale := by positivity
  have first : (10 : ℚ) ^ leading d.basin.value d.basin.unit ≤ d.significand * 2 ^ d.scale := by
    rw [← basinValue]
    refine leadingLe ?_ (by exact_mod_cast unit)
    exact Nat.mul_pos (Nat.mul_pos (by decide) nonzero) (Nat.pow_pos (by decide))
  have fine : (10 : ℚ) ^ 16 * 10 ^ (leading d.basin.value d.basin.unit - 16) ≤
      d.significand * 2 ^ d.scale := by
    refine le_trans (le_of_eq ?_) first
    rw [← zpow_natCast, ← zpow_add₀ (by norm_num)]
    congr 1
    push_cast
    ring
  have narrow : (d.significand : ℚ) < 10 ^ 16 * (1 / 2 + d.gap) := by
    unfold gap
    split
    next lowest =>
      rw [lowestSignificand lowest]
      norm_num
    next =>
      have : (d.significand : ℚ) < 2 ^ 53 := by exact_mod_cast d.significandLt
      linarith
  have := mul_lt_mul_of_pos_right narrow place
  linarith

theorem neighbourNear {d : Double} {grid : ℚ} {t : ℕ} (low : t * grid ≤ d.significand * 2 ^ d.scale)
    (high : d.significand * 2 ^ d.scale < ((t + 1 : ℕ) : ℚ) * grid)
    (width : grid < (1 / 2 + d.gap) * 2 ^ d.scale) : d.Near (t * grid) ∨ d.Near ((t + 1 : ℕ) * grid) := by
  have place : (0 : ℚ) < 2 ^ d.scale := by positivity
  have strictly {x : ℚ} (above : (d.significand - d.gap) * 2 ^ d.scale < x)
      (below : x < (d.significand + 1 / 2) * 2 ^ d.scale) : d.Near x :=
    ⟨above.le, below.le, fun _ => ⟨above, below⟩⟩
  push_cast at high ⊢
  rcases lt_or_ge ((d.significand - d.gap) * 2 ^ d.scale) (t * grid) with inside | outside
  · exact .inl (strictly inside (by linarith))
  · have := mul_pos d.gapPositive place
    exact .inr (strictly (by linarith) (by linarith))

theorem gridSeventeen {d : Double} (nonzero : 0 < d.significand) :
    (d.basin.onGrid (leading d.basin.value d.basin.unit - 16)).isSome := by
  have width := gridWidth nonzero
  generalize leading d.basin.value d.basin.unit - 16 = power at width ⊢
  have unit := basinUnit d
  have grid : (0 : ℚ) < 10 ^ power := by positivity
  -- The quotient that the search takes is the value in units of the grid.
  have ratio : ((d.basin.value * 10 ^ (-power).toNat : ℕ) : ℚ) / (d.basin.unit * 10 ^ power.toNat : ℕ) =
      d.significand * 2 ^ d.scale / 10 ^ power := by
    rw [← basinValue, zpowQuotient 10 power]
    push_cast
    have down : (10 : ℚ) ^ (-power).toNat ≠ 0 := by positivity
    have up : (10 : ℚ) ^ power.toNat ≠ 0 := by positivity
    field_simp
  have bottom : 0 < d.basin.unit * 10 ^ power.toNat :=
    Nat.mul_pos (by exact_mod_cast unit) (Nat.pow_pos (by decide))
  have denominator : (0 : ℚ) < (d.basin.unit * 10 ^ power.toNat : ℕ) := by exact_mod_cast bottom
  refine onGridSome ?_
  rw [holdsNear nonzero, holdsNear nonzero]
  generalize d.basin.value * 10 ^ (-power).toNat = x at ratio ⊢
  generalize d.basin.unit * 10 ^ power.toNat = y at ratio bottom denominator ⊢
  have low : ((x / y : ℕ) : ℚ) ≤ x / y := by
    rw [le_div_iff₀ denominator]
    exact_mod_cast Nat.div_mul_le_self x y
  have high : (x : ℚ) / y < ((x / y + 1 : ℕ) : ℚ) := by
    rw [div_lt_iff₀ denominator]
    rw [mul_comm]
    exact_mod_cast Nat.lt_mul_div_succ x bottom
  rw [ratio] at low high
  exact neighbourNear ((le_div_iff₀ grid).mp low) ((div_lt_iff₀ grid).mp high) width

/-! The result. -/

theorem trimValue (d : Decimal) (fuel : ℕ) : (d.trim fuel).value = d.value := by
  induction fuel generalizing d with
  | zero => rfl
  | succ fuel ih =>
    unfold Decimal.trim
    split
    next more =>
      simp only [Bool.and_eq_true, decide_eq_true_eq] at more
      rw [ih]
      have digits : d.digits = d.digits / 10 * 10 := by omega
      have power : (10 : ℚ) ^ (d.power + 1) = 10 ^ d.power * 10 := zpow_add_one₀ (by norm_num) _
      simp only [Decimal.value]
      rw [power]
      conv_rhs => rw [digits]
      push_cast
      ring
    next => rfl

theorem shortestNear {d : Double} (nonzero : 0 < d.significand) : d.Near d.shortest.value := by
  have other : d.isZero = false := by
    simp only [isZero, decide_eq_false_iff_not]
    omega
  simp only [shortest, other, Bool.false_eq_true, if_false, trimValue]
  refine (holdsNear nonzero _ _).mp (searchHolds 17 ⟨16, by decide, ?_⟩)
  exact gridSeventeen nonzero

theorem nearPositive {d : Double} (nonzero : 0 < d.significand) {x : ℚ} (near : d.Near x) : 0 < x := by
  have one : (1 : ℚ) ≤ d.significand := by exact_mod_cast nonzero
  have place : (0 : ℚ) < 2 ^ d.scale := by positivity
  have : (0 : ℚ) < (d.significand - d.gap) * 2 ^ d.scale := mul_pos (by linarith [d.gapLe]) place
  exact this.trans_le near.lower

theorem shortestDigitsPositive {d : Double} (nonzero : 0 < d.significand) : 0 < d.shortest.digits := by
  have positive := nearPositive nonzero (shortestNear nonzero)
  by_contra zero
  rw [Decimal.value, Nat.eq_zero_of_not_pos zero] at positive
  simp at positive

end Conduit.Double
