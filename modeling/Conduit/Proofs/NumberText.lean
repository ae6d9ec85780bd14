import Conduit.Proofs.Decimals
import Conduit.Proofs.ShortestDigits

/-! Numbers in JSON text. Every number that is written is read back as it was, a double by way of the
shortest digits that are near it. -/
namespace Conduit

namespace Double

theorem tenAbove : (2 : ℚ) ^ (1203 : ℤ) ≤ 10 ^ (401 : ℤ) := by
  rw [show (1203 : ℤ) = 3 * 401 by norm_num, zpow_mul]
  exact zpow_le_zpow_left₀ (by norm_num) (by norm_num) (by norm_num)

theorem nearBelow {d : Double} {x : ℚ} (near : d.Near x) : x < 10 ^ (401 : ℤ) := by
  have scale : (0 : ℚ) < 2 ^ d.scale := by positivity
  have size : (d.significand : ℚ) + 1 / 2 < 2 ^ (54 : ℤ) := by
    have : (d.significand : ℚ) < 2 ^ 53 := by exact_mod_cast d.significandLt
    rw [show (2 : ℚ) ^ (54 : ℤ) = 2 ^ 54 by norm_num]
    linarith
  calc x ≤ (d.significand + 1 / 2) * 2 ^ d.scale := near.upper
    _ < 2 ^ (54 : ℤ) * 2 ^ d.scale := mul_lt_mul_of_pos_right size scale
    _ = 2 ^ (54 + d.scale) := (zpow_add₀ (by norm_num) _ _).symm
    _ ≤ 2 ^ (1203 : ℤ) := zpow_le_zpow_right₀ (by norm_num) (by have := d.scaleHigh; omega)
    _ ≤ 10 ^ (401 : ℤ) := tenAbove

theorem nearAbove {d : Double} (nonzero : 0 < d.significand) {x : ℚ} (near : d.Near x) :
    10 ^ (-401 : ℤ) < x := by
  have scale : (0 : ℚ) < 2 ^ d.scale := by positivity
  have size : (2 : ℚ) ^ (-1 : ℤ) ≤ d.significand - d.gap := by
    have : (1 : ℚ) ≤ d.significand := by exact_mod_cast nonzero
    rw [show (2 : ℚ) ^ (-1 : ℤ) = 1 / 2 by norm_num]
    linarith [d.gapLe]
  calc (10 : ℚ) ^ (-401 : ℤ) ≤ 2 ^ (-1203 : ℤ) := by
        rw [zpow_neg, zpow_neg]
        exact inv_anti₀ (by positivity) tenAbove
    _ < 2 ^ (-1 + d.scale) := zpow_lt_zpow_right₀ (by norm_num) (by have := d.scaleLow; omega)
    _ = 2 ^ (-1 : ℤ) * 2 ^ d.scale := zpow_add₀ (by norm_num) _ _
    _ ≤ (d.significand - d.gap) * 2 ^ d.scale := mul_le_mul_of_nonneg_right size scale.le
    _ ≤ x := near.lower

theorem ofDecimalNear {d : Double} (nonzero : 0 < d.significand) {digits places : ℕ} {power : ℤ}
    (near : d.Near (digits * 10 ^ power)) (short : digits < 10 ^ places) (negative : Bool) :
    ofDecimal negative digits places power = some { d with negative } := by
  have positive : 0 < digits := by
    have := nearPositive nonzero near
    by_contra zero
    rw [Nat.eq_zero_of_not_pos zero] at this
    simp at this
  have some : (1 : ℚ) ≤ digits := by exact_mod_cast positive
  have rounded : ofRatio negative (digits * 10 ^ power.toNat) (10 ^ (-power).toNat) = .some { d with negative } := by
    refine ofRatioNear (Nat.pow_pos (by decide)) ?_ (Nat.mul_pos positive (Nat.pow_pos (by decide))) negative
    rw [zpowQuotient 10 power, mul_div_assoc'] at near
    exact_mod_cast near
  have notHuge : ¬ 400 < power := by
    intro huge
    have large : (10 : ℚ) ^ (401 : ℤ) ≤ digits * 10 ^ power :=
      (zpow_le_zpow_right₀ (by norm_num) huge).trans (le_mul_of_one_le_left (by positivity) some)
    exact absurd (nearBelow near) (not_lt.mpr large)
  have notTiny : ¬ power + places < -400 := by
    intro tiny
    have bound : (digits : ℚ) < 10 ^ (places : ℤ) := by exact_mod_cast short
    have grid : (0 : ℚ) < 10 ^ power := by positivity
    have : (digits : ℚ) * 10 ^ power < 10 ^ (-401 : ℤ) :=
      calc (digits : ℚ) * 10 ^ power < 10 ^ (places : ℤ) * 10 ^ power := mul_lt_mul_of_pos_right bound grid
        _ = 10 ^ (places + power) := (zpow_add₀ (by norm_num) _ _).symm
        _ ≤ 10 ^ (-401 : ℤ) := zpow_le_zpow_right₀ (by norm_num) (by omega)
    exact absurd (nearAbove nonzero near) (not_lt.mpr this.le)
  unfold ofDecimal
  rw [if_neg (Nat.pos_iff_ne_zero.mp positive), if_neg notHuge, if_neg notTiny]
  split <;> exact rounded

end Double

namespace Json

/-! Reading digits. -/

def Ends (rest : List Char) : Prop :=
  ∀ c ∈ rest.head?, isDigit c = false ∧ c ≠ '.' ∧ c ≠ 'e' ∧ c ≠ 'E'

theorem digitsThen {digits : List Char} (rest : List Char) (all : ∀ c ∈ digits, isDigit c = true)
    (stop : ∀ c ∈ rest.head?, isDigit c = false) :
    (digits ++ rest).takeWhile isDigit = digits ∧ (digits ++ rest).dropWhile isDigit = rest := by
  rw [List.takeWhile_append_of_pos all, List.dropWhile_append_of_pos all]
  cases rest with
  | nil => simp
  | cons c rest => simp [stop c rfl]

theorem unsignedWhole {digits rest : List Char} (whole : Whole digits)
    (stop : ∀ c ∈ rest.head?, isDigit c = false) (negative : Bool) :
    unsignedNumber negative (digits ++ rest) = numberTail negative digits rest := by
  rcases whole.first with rfl | ⟨c, others, rfl, other⟩
  · cases rest with
    | nil => rfl
    | cons c rest => simp [unsignedNumber, stop c rfl]
  · have digit : isDigit c = true := whole.all c List.mem_cons_self
    obtain ⟨taken, left⟩ := digitsThen _ whole.all stop
    rw [List.cons_append] at taken left ⊢
    rw [unsignedNumber]
    · simp only [digit, if_true, taken, left]
    · exact other

theorem exponentLimited {shift : List Char} {value : ℕ}
    (small : shift.foldl (fun n c => n * 10 + (c.toNat - 48)) value ≤ exponentLimit) :
    overlongExponent value shift = none := by
  induction shift generalizing value with
  | nil => rfl
  | cons c rest ih =>
    have grows (cs : List Char) (n : ℕ) : n ≤ cs.foldl (fun n c => n * 10 + (c.toNat - 48)) n := by
      induction cs generalizing n with
      | nil => exact le_rfl
      | cons d cs ih => exact le_trans (show n ≤ n * 10 + (d.toNat - 48) by omega) (ih _)
    have within : value * 10 + (c.toNat - 48) ≤ exponentLimit := (grows rest _).trans small
    rw [overlongExponent]
    simp only [not_lt.mpr within, if_false]
    exact ih small

theorem exponentRead {shift rest : List Char} (some : shift ≠ []) (all : ∀ c ∈ shift, isDigit c = true)
    (small : natOfDigits shift ≤ exponentLimit) (stop : ∀ c ∈ rest.head?, isDigit c = false)
    (negative down : Bool) (digits : List Char) (power : ℤ) :
    exponent negative digits power ((if down then '-' else '+') :: (shift ++ rest)) =
      decimalNumber negative digits (if down then power - natOfDigits shift else power + natOfDigits shift) rest := by
  obtain ⟨taken, left⟩ := digitsThen _ all stop
  obtain ⟨c, others, rfl⟩ := List.exists_cons_of_ne_nil some
  have digit : isDigit c = true := all c List.mem_cons_self
  rw [List.cons_append] at taken left
  cases down <;> simp only [exponent, Bool.false_eq_true, if_true, if_false, List.cons_append, digit,
    Bool.not_true, taken, left, exponentLimited small]

theorem fractionRead {digits fraction rest : List Char} (some : fraction ≠ [])
    (all : ∀ c ∈ fraction, isDigit c = true) (ends : Ends rest) (negative : Bool) :
    numberTail negative digits ('.' :: (fraction ++ rest)) =
      decimalNumber negative (digits ++ fraction) (-(fraction.length : ℤ)) rest := by
  obtain ⟨taken, left⟩ := digitsThen _ all fun c member => (ends c member).1
  rw [numberTail]
  simp only [taken, left, List.isEmpty_eq_false_iff.mpr some, Bool.false_eq_true, if_false]
  cases rest with
  | nil => rfl
  | cons c rest =>
    obtain ⟨-, -, lower, upper⟩ := ends c rfl
    split
    · simp_all
    · simp_all
    · rfl

def fractionPart (digits : List Char) : List Char := if digits.isEmpty then [] else '.' :: digits

theorem scientificRead {first : Char} {others shift rest : List Char} (digit : isDigit first = true)
    (nonzero : first ≠ '0') (digits : ∀ c ∈ others, isDigit c = true) (some : shift ≠ [])
    (all : ∀ c ∈ shift, isDigit c = true) (small : natOfDigits shift ≤ exponentLimit) (ends : Ends rest)
    (negative down : Bool) :
    unsignedNumber negative
        (first :: (fractionPart others ++ 'e' :: (if down then '-' else '+') :: (shift ++ rest))) =
      decimalNumber negative (first :: others)
        (if down then -(others.length : ℤ) - natOfDigits shift else -(others.length : ℤ) + natOfDigits shift)
        rest := by
  have whole : Whole [first] := ⟨by simpa using digit, .inr ⟨first, [], rfl, nonzero⟩⟩
  have stop : ∀ c ∈ rest.head?, isDigit c = false := fun c member => (ends c member).1
  rw [← List.singleton_append]
  cases others with
  | nil =>
    rw [unsignedWhole whole (by simp [fractionPart, isDigit])]
    simp only [fractionPart, List.isEmpty_nil, if_true, List.nil_append, numberTail]
    rw [exponentRead some all small stop]
    simp
  | cons second others =>
    rw [unsignedWhole whole (by simp [fractionPart, isDigit])]
    obtain ⟨taken, left⟩ := digitsThen ('e' :: (if down then '-' else '+') :: (shift ++ rest)) digits
      (by simp [isDigit])
    simp only [fractionPart, List.isEmpty_cons, Bool.false_eq_true, if_false, List.cons_append, numberTail]
    rw [← List.cons_append, taken, left]
    simp only [List.isEmpty_cons, Bool.false_eq_true, if_false]
    rw [exponentRead some all small stop]
    simp

/-! Reading what is written. -/

theorem decimalNear {d : Double} (nonzero : 0 < d.significand) {digits : List Char}
    (all : ∀ c ∈ digits, isDigit c = true) {power : ℤ}
    (value : (natOfDigits digits : ℚ) * 10 ^ power = d.shortest.value) (rest : List Char) :
    decimalNumber d.negative digits power rest = .ok (.real d, rest) := by
  have near : d.Near (natOfDigits digits * 10 ^ power) := by
    rw [value]
    exact Double.shortestNear nonzero
  rw [decimalNumber, Double.ofDecimalNear nonzero near (natOfDigitsLt all)]

theorem wholeToDigits {n : ℕ} (positive : 0 < n) (zeros : ℕ) :
    Whole (Nat.toDigits 10 n ++ List.replicate zeros '0') := by
  obtain ⟨first, rest, written, -, other⟩ := toDigitsCons positive
  refine ⟨fun c member => ?_, .inr ⟨first, rest ++ List.replicate zeros '0', by rw [written]; rfl, other⟩⟩
  rcases List.mem_append.mp member with member | member
  · exact toDigitsDigits n c member
  · rw [List.eq_of_mem_replicate member]
    rfl

theorem wholeZero : Whole ['0'] := ⟨by simp [isDigit], .inl rfl⟩

theorem natOfDigitsZeros (digits : List Char) (zeros : ℕ) :
    natOfDigits (digits ++ List.replicate zeros '0') = natOfDigits digits * 10 ^ zeros := by
  rw [natOfDigitsAppend, natOfZeros, List.length_replicate, Nat.add_zero]

/-! Positional notation: the point stands after the digits, among them or before them. -/

section

variable {d : Double} (nonzero : 0 < d.significand) {rest : List Char} (ends : Ends rest)
include nonzero ends

theorem pointAfter {power : ℕ} (same : d.shortest.power = power) :
    unsignedNumber d.negative
        (Nat.toDigits 10 d.shortest.digits ++ List.replicate power '0' ++ '.' :: '0' :: rest) = .ok (.real d, rest) := by
  have whole := wholeToDigits (Double.shortestDigitsPositive nonzero) power
  rw [unsignedWhole whole (by simp [isDigit]), show '0' :: rest = ['0'] ++ rest from rfl,
    fractionRead (by simp) (by simp [isDigit]) ends]
  refine decimalNear nonzero ?_ ?_ rest
  · intro c member
    rcases List.mem_append.mp member with member | member
    · exact whole.all c member
    · exact wholeZero.all c member
  · rw [natOfDigitsAppend, natOfDigitsZeros, natOfToDigits, Double.Decimal.value, same]
    simp [natOfDigits]

theorem pointAmong {places : ℕ} (same : d.shortest.power = -(places : ℤ)) (some : places ≠ 0)
    (inside : places < (Nat.toDigits 10 d.shortest.digits).length) :
    unsignedNumber d.negative
        ((Nat.toDigits 10 d.shortest.digits).take ((Nat.toDigits 10 d.shortest.digits).length - places)
          ++ '.' :: ((Nat.toDigits 10 d.shortest.digits).drop ((Nat.toDigits 10 d.shortest.digits).length - places)
          ++ rest)) = .ok (.real d, rest) := by
  have all := toDigitsDigits d.shortest.digits
  generalize front : (Nat.toDigits 10 d.shortest.digits).length - places = count
  have joined := List.take_append_drop count (Nat.toDigits 10 d.shortest.digits)
  have whole : Whole ((Nat.toDigits 10 d.shortest.digits).take count) := by
    obtain ⟨first, others, written, digit, other⟩ := toDigitsCons (Double.shortestDigitsPositive nonzero)
    refine ⟨fun c member => all c (List.mem_of_mem_take member), .inr ⟨first, others.take (count - 1), ?_, other⟩⟩
    obtain ⟨n, rfl⟩ : ∃ n, count = n + 1 := ⟨count - 1, by omega⟩
    rw [written]
    rfl
  have length : ((Nat.toDigits 10 d.shortest.digits).drop count).length = places := by
    rw [List.length_drop]
    omega
  rw [unsignedWhole whole (by simp [isDigit]),
    fractionRead ?_ (fun c member => all c (List.mem_of_mem_drop member)) ends]
  · refine decimalNear nonzero (by rw [joined]; exact all) ?_ rest
    rw [joined, natOfToDigits, length, Double.Decimal.value, same]
  · intro none
    rw [none] at length
    exact some length.symm

theorem pointBefore {places zeros : ℕ} (same : d.shortest.power = -(places : ℤ))
    (outside : (Nat.toDigits 10 d.shortest.digits).length + zeros = places) :
    unsignedNumber d.negative
        ('0' :: '.' :: ((List.replicate zeros '0' ++ Nat.toDigits 10 d.shortest.digits) ++ rest)) = .ok (.real d, rest) := by
  have digits : ∀ c ∈ List.replicate zeros '0' ++ Nat.toDigits 10 d.shortest.digits, isDigit c = true := by
    intro c member
    rcases List.mem_append.mp member with member | member
    · rw [List.eq_of_mem_replicate member]
      rfl
    · exact toDigitsDigits d.shortest.digits c member
  have length : (List.replicate zeros '0' ++ Nat.toDigits 10 d.shortest.digits).length = places := by
    rw [List.length_append, List.length_replicate]
    omega
  rw [← List.singleton_append, unsignedWhole wholeZero (by simp [isDigit]),
    fractionRead (by simp [Nat.toDigits_ne_nil]) digits ends]
  refine decimalNear nonzero ?_ ?_ rest
  · intro c member
    rcases List.mem_append.mp member with member | member
    · exact wholeZero.all c member
    · exact digits c member
  · rw [natOfDigitsAppend, natOfDigitsAppend, natOfZeros, natOfToDigits, Double.Decimal.value, same, length]
    simp [natOfDigits]

theorem positionalRead :
    unsignedNumber d.negative
        (Double.positionalText true (Nat.toDigits 10 d.shortest.digits) d.shortest.power ++ rest) =
      .ok (.real d, rest) := by
  unfold Double.positionalText
  split
  next up =>
    obtain ⟨power, same⟩ := Int.eq_ofNat_of_zero_le up
    simp only [same, Int.toNat_natCast, if_true, Double.zeros, List.append_assoc, List.cons_append, List.nil_append]
    rw [← List.append_assoc]
    exact pointAfter nonzero ends same
  next down =>
    obtain ⟨places, same⟩ : ∃ places : ℕ, d.shortest.power = -(places : ℤ) :=
      ⟨(-d.shortest.power).toNat, by omega⟩
    simp only [same, neg_neg, Int.toNat_natCast]
    split
    next inside =>
      rw [List.append_assoc, List.cons_append]
      exact pointAmong nonzero ends same (by omega) inside
    next outside => exact pointBefore nonzero ends same (by omega)

end

theorem exponentBounds {d : Double} (nonzero : 0 < d.significand) :
    -402 < d.shortest.power + (Nat.toDigits 10 d.shortest.digits).length - 1 ∧
      d.shortest.power + (Nat.toDigits 10 d.shortest.digits).length - 1 < 401 := by
  have near := Double.shortestNear nonzero
  have positive := Double.shortestDigitsPositive nonzero
  have some : 0 < (Nat.toDigits 10 d.shortest.digits).length := Nat.length_toDigits_pos
  have grid : (0 : ℚ) < 10 ^ d.shortest.power := by positivity
  have low : (10 : ℚ) ^ (((Nat.toDigits 10 d.shortest.digits).length - 1 : ℕ) : ℤ) ≤ d.shortest.digits := by
    exact_mod_cast Double.placesLe positive
  have high : (d.shortest.digits : ℚ) < 10 ^ ((Nat.toDigits 10 d.shortest.digits).length : ℤ) := by
    exact_mod_cast Double.ltPlaces d.shortest.digits
  constructor
  · have := (Double.nearAbove nonzero near).trans (mul_lt_mul_of_pos_right high grid)
    rw [← zpow_add₀ (by norm_num)] at this
    have := (zpow_lt_zpow_iff_right₀ (by norm_num)).mp this
    omega
  · have := (mul_le_mul_of_nonneg_right low grid.le).trans_lt (Double.nearBelow near)
    rw [← zpow_add₀ (by norm_num)] at this
    have := (zpow_lt_zpow_iff_right₀ (by norm_num)).mp this
    omega

theorem scientificTextRead {d : Double} (nonzero : 0 < d.significand) {rest : List Char} (ends : Ends rest) :
    unsignedNumber d.negative
        (Double.scientificText (Nat.toDigits 10 d.shortest.digits)
          (d.shortest.power + (Nat.toDigits 10 d.shortest.digits).length - 1) ++ rest) =
      .ok (.real d, rest) := by
  obtain ⟨low, high⟩ := exponentBounds nonzero
  have all := toDigitsDigits d.shortest.digits
  have value := natOfToDigits d.shortest.digits
  obtain ⟨first, others, written, digit, other⟩ := toDigitsCons (Double.shortestDigitsPositive nonzero)
  generalize power : d.shortest.power + (Nat.toDigits 10 d.shortest.digits).length - 1 = e at low high ⊢
  rw [written] at all value power ⊢
  have text : Double.scientificText (first :: others) e ++ rest = first :: (fractionPart others ++
      'e' :: (if decide (e < 0) then '-' else '+') :: (Nat.toDigits 10 e.natAbs ++ rest)) := by
    cases others <;> simp [Double.scientificText, fractionPart]
  have digits : ∀ c ∈ others, isDigit c = true := fun c member => all c (List.mem_cons_of_mem _ member)
  have small : natOfDigits (Nat.toDigits 10 e.natAbs) ≤ exponentLimit := by
    rw [natOfToDigits]
    unfold exponentLimit
    omega
  rw [text, scientificRead digit other digits Nat.toDigits_ne_nil (toDigitsDigits _) small ends]
  refine decimalNear nonzero all ?_ rest
  have last : (if decide (e < 0) = true then -(others.length : ℤ) - natOfDigits (Nat.toDigits 10 e.natAbs)
      else -(others.length : ℤ) + natOfDigits (Nat.toDigits 10 e.natAbs)) = d.shortest.power := by
    rw [natOfToDigits]
    rw [List.length_cons] at power
    simp only [decide_eq_true_eq]
    split <;> omega
  rw [value, last, Double.Decimal.value]

theorem zeroOfSignificand {d : Double} (zero : d.significand = 0) :
    d = { Double.zero with negative := d.negative } := by
  obtain ⟨negative, exponent, fraction⟩ := d
  unfold Double.significand at zero
  split at zero
  next least =>
    have : exponent = 0 := Fin.ext least
    have : fraction = 0 := Fin.ext zero
    simp_all [Double.zero]
  next => omega

def magnitudeText (d : Double) : List Char :=
  let digits := Nat.toDigits 10 d.shortest.digits
  let exponent := d.shortest.power + digits.length - 1
  if -5 ≤ exponent && exponent ≤ 15 then Double.positionalText true digits d.shortest.power
  else Double.scientificText digits exponent

theorem textMagnitude (d : Double) :
    d.text .json = if d.negative then '-' :: magnitudeText d else magnitudeText d := rfl

theorem magnitudeRead (d : Double) {rest : List Char} (ends : Ends rest) :
    unsignedNumber d.negative (magnitudeText d ++ rest) = .ok (.real d, rest) := by
  rcases Nat.eq_zero_or_pos d.significand with zero | nonzero
  · have short : d.shortest = ⟨0, 0⟩ := by
      simp only [Double.shortest, Double.isZero, zero, decide_true, if_true]
    have text : magnitudeText d ++ rest = ['0'] ++ '.' :: (['0'] ++ rest) := by
      rw [magnitudeText, short]
      rfl
    rw [text, unsignedWhole wholeZero (by simp [isDigit]), fractionRead (by simp) (by simp [isDigit]) ends]
    have same := zeroOfSignificand zero
    conv_rhs => rw [same]
    rfl
  · unfold magnitudeText
    simp only
    split
    · exact positionalRead nonzero ends
    · exact scientificTextRead nonzero ends

theorem unsignedFirst {negative : Bool} {cs : List Char} {result : Number × List Char}
    (read : unsignedNumber negative cs = .ok result) : ∃ c rest, cs = c :: rest ∧ isDigit c = true := by
  unfold unsignedNumber at read
  split at read
  · cases read
  · exact ⟨'0', _, rfl, rfl⟩
  next c rest _ =>
    split at read
    next digit => exact ⟨c, rest, rfl, digit⟩
    next => cases read

theorem endsNil : Ends [] := by simp [Ends]

theorem integerTail {digits rest : List Char} (ends : Ends rest) (negative : Bool) :
    numberTail negative digits rest = integerNumber negative digits rest := by
  cases rest with
  | nil => rfl
  | cons c rest =>
    obtain ⟨-, point, lower, upper⟩ := ends c rfl
    unfold numberTail
    split <;> simp_all

theorem digitsRead {n : ℕ} {rest : List Char} (ends : Ends rest) (negative : Bool) :
    unsignedNumber negative (Nat.toDigits 10 n ++ rest) = integerNumber negative (Nat.toDigits 10 n) rest := by
  have stop : ∀ c ∈ rest.head?, isDigit c = false := fun c member => (ends c member).1
  have whole : Whole (Nat.toDigits 10 n) := by
    rcases Nat.eq_zero_or_pos n with rfl | positive
    · exact wholeZero
    · simpa using wholeToDigits positive 0
  rw [unsignedWhole whole stop, integerTail ends]

theorem wholeRead (n : UInt64) {rest : List Char} (ends : Ends rest) :
    unsignedNumber false (Nat.toDigits 10 n.toNat ++ rest) = .ok (.whole n, rest) := by
  rw [digitsRead ends]
  simp [integerNumber, natOfToDigits, n.toNat_lt]

theorem belowRead (n : Fin (2 ^ 63)) {rest : List Char} (ends : Ends rest) :
    unsignedNumber true (Nat.toDigits 10 (n.val + 1) ++ rest) = .ok (.below n, rest) := by
  rw [digitsRead ends]
  simp only [integerNumber, natOfToDigits, if_true]
  rw [dif_pos ⟨Nat.succ_ne_zero _, n.isLt⟩]
  rfl

theorem scalarDigit {c : Char} {rest : List Char} (digit : isDigit c = true) :
    scalar (c :: rest) = (do
      let (n, rest) ← unsignedNumber false (c :: rest)
      return (.num n, rest)) := by
  have other (d : Char) (no : isDigit d = false) : c ≠ d := by
    rintro rfl
    rw [no] at digit
    cases digit
  rw [scalar]
  · rw [if_pos digit]
  all_goals exact other _ (by decide)

theorem scalarRead {text rest : List Char} {n : Number} (alone : unsignedNumber false text = .ok (n, []))
    (read : unsignedNumber false (text ++ rest) = .ok (n, rest)) :
    scalar (text ++ rest) = .ok (.num n, rest) := by
  obtain ⟨c, others, rfl, digit⟩ := unsignedFirst alone
  rw [List.cons_append] at read ⊢
  rw [scalarDigit digit, read]
  rfl

theorem numberRead (n : Number) {rest : List Char} (ends : Ends rest) :
    scalar (numberText n ++ rest) = .ok (.num n, rest) := by
  cases n with
  | whole n =>
    have alone := wholeRead n endsNil
    rw [List.append_nil] at alone
    exact scalarRead alone (wholeRead n ends)
  | below n =>
    simp only [numberText, List.cons_append, scalar, belowRead n ends]
    rfl
  | real d =>
    have alone := magnitudeRead d endsNil
    have read := magnitudeRead d ends
    rw [List.append_nil] at alone
    rw [numberText, textMagnitude]
    cases sign : d.negative with
    | true =>
      rw [sign] at read
      simp only [if_true, List.cons_append, scalar, read]
      rfl
    | false =>
      rw [sign] at alone read
      exact scalarRead alone read

end Json

end Conduit
