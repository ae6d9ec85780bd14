import Conduit.Json.Basic
import Conduit.Json.Reader
import Mathlib.Order.Compare
import Mathlib.Data.String.Basic

/-! Naturals in decimal: digits that are written are digits that are read, and give the number back. The order of
numbers is an order of their digits. -/
namespace Conduit.Json

theorem isDigitCore (c : Char) : isDigit c = c.isDigit := rfl

theorem natOfDigitsCore (digits : List Char) : natOfDigits digits = Nat.ofDigitChars 10 digits 0 := by
  rw [natOfDigits, Nat.ofDigitChars_eq_foldl]
  congr 1
  funext n c
  rw [Nat.mul_comm]
  rfl

theorem natOfDigitsAppend (front back : List Char) :
    natOfDigits (front ++ back) = natOfDigits front * 10 ^ back.length + natOfDigits back := by
  rw [natOfDigitsCore, natOfDigitsCore, natOfDigitsCore, Nat.ofDigitChars_append,
    Nat.ofDigitChars_eq_ofDigitChars_zero, Nat.mul_comm]

theorem natOfZeros (count : Nat) : natOfDigits (List.replicate count '0') = 0 := by
  rw [natOfDigitsCore, Nat.ofDigitChars_replicate_zero, Nat.mul_zero]

theorem natOfToDigits (n : Nat) : natOfDigits (Nat.toDigits 10 n) = n := by
  rw [natOfDigitsCore, Nat.ofDigitChars_ten_toDigits]

theorem toDigitsDigits (n : Nat) : ∀ c ∈ Nat.toDigits 10 n, isDigit c = true := fun c member => by
  rw [isDigitCore]
  exact Nat.isDigit_of_mem_toDigits (by decide) (by decide) member

theorem digitValue {c : Char} (digit : isDigit c = true) : 48 ≤ c.toNat ∧ c.toNat ≤ 57 := by
  simp only [isDigit, Bool.and_eq_true, decide_eq_true_eq, Char.le_def, UInt32.le_iff_toNat_le] at digit
  exact digit

theorem natOfDigitsCons (c : Char) (rest : List Char) :
    natOfDigits (c :: rest) = (c.toNat - 48) * 10 ^ rest.length + natOfDigits rest := by
  rw [← List.singleton_append, natOfDigitsAppend]
  simp [natOfDigits]

theorem natOfDigitsLt {digits : List Char} (all : ∀ c ∈ digits, isDigit c = true) :
    natOfDigits digits < 10 ^ digits.length := by
  induction digits with
  | nil => decide
  | cons c rest ih =>
    obtain ⟨digit, tail⟩ := List.forall_mem_cons.mp all
    have later := ih tail
    have bounds := digitValue digit
    rw [natOfDigitsCons, List.length_cons, Nat.pow_succ]
    have : (c.toNat - 48) * 10 ^ rest.length ≤ 9 * 10 ^ rest.length := Nat.mul_le_mul_right _ (by omega)
    omega

theorem toDigitsCons {n : Nat} (positive : 0 < n) :
    ∃ first rest, Nat.toDigits 10 n = first :: rest ∧ isDigit first = true ∧ first ≠ '0' := by
  cases written : Nat.toDigits 10 n with
  | nil => exact absurd written Nat.toDigits_ne_nil
  | cons first rest =>
    have digits := toDigitsDigits n
    rw [written] at digits
    refine ⟨first, rest, rfl, digits first List.mem_cons_self, ?_⟩
    rintro rfl
    have value : natOfDigits rest = n := by
      rw [← natOfToDigits n, written, ← List.singleton_append, natOfDigitsAppend]
      exact (Nat.zero_add _).symm.trans (by rw [show natOfDigits ['0'] = 0 from rfl, Nat.zero_mul])
    have small : n < 10 ^ rest.length := by
      rw [← value]
      exact natOfDigitsLt fun c member => digits c (List.mem_cons_of_mem _ member)
    cases rest with
    | nil => exact absurd small (by simp; omega)
    | cons second rest =>
      have short := (Nat.length_toDigits_le_iff (by decide) (Nat.succ_pos rest.length)).mpr small
      simp only [written, List.length_cons] at short
      omega

/-! The order of digits. Without zeros in front more digits make a larger number, and of as many digits the first that differ
decide. -/

def trimZeros (digits : List Char) : List Char := digits.dropWhile (· = '0')

theorem trimZerosParts (digits : List Char) : ∃ n, digits = List.replicate n '0' ++ trimZeros digits := by
  refine ⟨(digits.takeWhile (· = '0')).length, ?_⟩
  have zeros : digits.takeWhile (· = '0') = List.replicate (digits.takeWhile (· = '0')).length '0' :=
    List.eq_replicate_of_mem fun c member => by simpa using List.all_eq_true.mp List.all_takeWhile c member
  rw [← zeros, trimZeros, List.takeWhile_append_dropWhile]

theorem natOfTrimZeros (digits : List Char) : natOfDigits (trimZeros digits) = natOfDigits digits := by
  obtain ⟨n, same⟩ := trimZerosParts digits
  conv_rhs => rw [same, natOfDigitsAppend, natOfZeros, Nat.zero_mul, Nat.zero_add]

theorem trimZerosFirst (digits : List Char) : ∀ c ∈ (trimZeros digits).head?, c ≠ '0' := fun c first => by
  have stops := List.head?_dropWhile_not (fun c => decide (c = '0')) digits
  rw [trimZeros] at first
  rw [first] at stops
  simpa using stops

theorem trimZerosDigits {digits : List Char} (all : ∀ c ∈ digits, isDigit c = true) :
    ∀ c ∈ trimZeros digits, isDigit c = true := fun c member => all c ((List.dropWhile_suffix _).mem member)

section

variable {a b : List Char} (digits : ∀ c ∈ a, isDigit c = true) (others : ∀ c ∈ b, isDigit c = true)
include digits others

omit others in
theorem natOfFewer (fewer : a.length < b.length) (first : ∀ c ∈ b.head?, isDigit c = true ∧ c ≠ '0') :
    natOfDigits a < natOfDigits b := by
  cases b with
  | nil => cases fewer
  | cons c rest =>
    obtain ⟨digit, some⟩ := first c rfl
    have positive : 1 ≤ c.toNat - 48 := by
      have apart : c.toNat ≠ '0'.toNat := fun same => some (Char.toNat_inj.mp same)
      have bounds := digitValue digit
      have zero : '0'.toNat = 48 := rfl
      omega
    calc natOfDigits a < 10 ^ a.length := natOfDigitsLt digits
      _ ≤ 10 ^ rest.length := Nat.pow_le_pow_right (by decide) (Nat.le_of_lt_succ fewer)
      _ ≤ (c.toNat - 48) * 10 ^ rest.length := Nat.le_mul_of_pos_left _ positive
      _ ≤ natOfDigits (c :: rest) := by rw [natOfDigitsCons]; exact Nat.le_add_right _ _

theorem natOfLess (same : a.length = b.length) (less : a < b) : natOfDigits a < natOfDigits b := by
  induction a generalizing b with
  | nil =>
    rw [List.eq_nil_of_length_eq_zero same.symm] at less
    cases less
  | cons c rest ih =>
    cases b with
    | nil => cases same
    | cons d more =>
      obtain ⟨digit, tail⟩ := List.forall_mem_cons.mp digits
      obtain ⟨other, tail'⟩ := List.forall_mem_cons.mp others
      have count : rest.length = more.length := Nat.succ.inj same
      rw [natOfDigitsCons, natOfDigitsCons, ← count]
      rcases List.cons_lt_cons_iff.mp less with lower | ⟨rfl, later⟩
      · have lower : c.toNat < d.toNat := lower
        have below := natOfDigitsLt tail
        have bounds := digitValue digit
        calc (c.toNat - 48) * 10 ^ rest.length + natOfDigits rest
            < (c.toNat - 48) * 10 ^ rest.length + 10 ^ rest.length := Nat.add_lt_add_left below _
          _ = (c.toNat - 48 + 1) * 10 ^ rest.length := (Nat.succ_mul _ _).symm
          _ ≤ (d.toNat - 48) * 10 ^ rest.length := Nat.mul_le_mul_right _ (by omega)
          _ ≤ _ := Nat.le_add_right _ _
      · exact Nat.add_lt_add_left (ih tail tail' count later) _

theorem digitsCompared (first : ∀ c ∈ a.head?, c ≠ '0') (other : ∀ c ∈ b.head?, c ≠ '0') :
    ((compare a.length b.length).then (compare (String.ofList a) (String.ofList b))).Compares
      (natOfDigits a) (natOfDigits b) := by
  have less {a b : List Char} : String.ofList a < String.ofList b ↔ a < b := by
    rw [String.lt_iff_toList_lt, String.toList_ofList, String.toList_ofList]
  rcases Nat.lt_trichotomy a.length b.length with fewer | same | more
  · rw [compare_lt_iff_lt.mpr fewer]
    exact natOfFewer digits fewer fun c here => ⟨others c (List.mem_of_mem_head? here), other c here⟩
  · rw [compare_eq_iff_eq.mpr same]
    rcases lt_trichotomy a b with lower | rfl | higher
    · rw [Ordering.eq_then, compare_lt_iff_lt.mpr (less.mpr lower)]
      exact natOfLess digits others same lower
    · rw [Ordering.eq_then, compare_eq_iff_eq.mpr rfl]
      rfl
    · rw [Ordering.eq_then, compare_gt_iff_gt.mpr (less.mpr higher)]
      exact natOfLess others digits same.symm higher
  · rw [compare_gt_iff_gt.mpr more]
    exact natOfFewer others more fun c here => ⟨digits c (List.mem_of_mem_head? here), first c here⟩

end

/-! Digits of one number. -/

structure Whole (digits : List Char) : Prop where
  all : ∀ c ∈ digits, isDigit c = true
  first : digits = ['0'] ∨ ∃ c rest, digits = c :: rest ∧ c ≠ '0'

theorem digitsUnique {a b : List Char} (digits : ∀ c ∈ a, isDigit c = true) (others : ∀ c ∈ b, isDigit c = true)
    (first : ∀ c ∈ a.head?, c ≠ '0') (other : ∀ c ∈ b.head?, c ≠ '0') (same : natOfDigits a = natOfDigits b) :
    a = b := by
  have equal := (digitsCompared digits others first other).eq_eq.mpr same
  have texts := (Ordering.then_eq_eq.mp equal).2
  exact String.ofList_inj.mp (compare_eq_iff_eq.mp texts)

theorem toDigitsWhole {digits : List Char} (whole : Whole digits) : Nat.toDigits 10 (natOfDigits digits) = digits := by
  rcases whole.first with rfl | ⟨c, rest, rfl, nonzero⟩
  · rfl
  · have front : ∀ d ∈ (c :: rest).head?, d ≠ '0' := fun d here => Option.some.inj here ▸ nonzero
    have positive : 0 < natOfDigits (c :: rest) :=
      natOfFewer (List.forall_mem_nil _) (Nat.succ_pos _)
        fun d here => ⟨whole.all d (List.mem_of_mem_head? here), front d here⟩
    obtain ⟨first, others, written, -, some⟩ := toDigitsCons positive
    refine digitsUnique (toDigitsDigits _) whole.all ?_ front (natOfToDigits _)
    rw [written]
    exact fun d here => Option.some.inj here ▸ some

end Conduit.Json
