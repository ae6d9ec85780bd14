import Conduit.Basic

/-! Finite doubles of 64 bits, as the three fields they are stored in.
Every operation is exact arithmetic on naturals followed by one rounding to the nearest double,
a tie going to the even significand, so nothing here rests on the machine's own arithmetic.
There is no infinity and no NaN: an operation that leaves the finite range answers `none`. -/
namespace Conduit

structure Double where
  negative : Bool
  exponent : Fin 2047
  fraction : Fin (2 ^ 52)
  deriving DecidableEq, Repr

namespace Double

def zero : Double := ⟨false, 0, 0⟩

instance : Inhabited Double := ⟨zero⟩

def significand (d : Double) : Nat :=
  if d.exponent.val = 0 then d.fraction.val else 2 ^ 52 + d.fraction.val

def scale (d : Double) : Int := (max d.exponent.val 1 : Nat) - 1075

def isZero (d : Double) : Bool := d.significand = 0

def numerator (d : Double) : Nat := d.significand * 2 ^ d.scale.toNat

def denominator (d : Double) : Nat := 2 ^ (-d.scale).toNat

def roundQuotient (num den : Nat) : Nat :=
  let quotient := num / den
  let twice := 2 * (num % den)
  if twice < den then quotient
  else if den < twice then quotient + 1
  else if quotient % 2 = 0 then quotient else quotient + 1

def scaled (num den : Nat) (shift : Int) : Nat × Nat :=
  (num * 2 ^ (-shift).toNat, den * 2 ^ shift.toNat)

def bestScale (num den : Nat) : Int :=
  let guess : Int := (num.log2 : Int) - (den.log2 : Int) - 52
  let (n, d) := scaled num den guess
  max (if n < 2 ^ 52 * d then guess - 1 else guess) (-1074)

def pack (negative : Bool) (significand : Nat) (scale : Int) : Option Double :=
  if h : significand < 2 ^ 52 then some ⟨negative, 0, ⟨significand, h⟩⟩
  else
    let exponent := (scale + 1075).toNat
    if he : exponent < 2047 then
      if hf : significand - 2 ^ 52 < 2 ^ 52 then some ⟨negative, ⟨exponent, he⟩, ⟨significand - 2 ^ 52, hf⟩⟩
      else none
    else none

def ofRatio (negative : Bool) (num den : Nat) : Option Double :=
  if num = 0 then some { zero with negative }
  else
    let scale := bestScale num den
    let (n, d) := scaled num den scale
    let significand := roundQuotient n d
    if significand = 2 ^ 53 then pack negative (2 ^ 52) (scale + 1)
    else pack negative significand scale

/-- The double nearest to `±digits · 10 ^ power`. `places` bounds the number of digits, so a power
that is out of every double's reach is never computed. -/
def ofDecimal (negative : Bool) (digits : Nat) (places : Nat) (power : Int) : Option Double :=
  if digits = 0 then some { zero with negative }
  else if 400 < power + places then
    if 400 < power then none else ofRatio negative (digits * 10 ^ power.toNat) (10 ^ (-power).toNat)
  else if power + places < -400 then some { zero with negative }
  else ofRatio negative (digits * 10 ^ power.toNat) (10 ^ (-power).toNat)

def ofNat (n : Nat) : Option Double := ofRatio false n 1

def ofInt (n : Int) : Option Double := ofRatio (n < 0) n.natAbs 1

def signedNumerator (d : Double) : Int :=
  if d.negative then -(d.numerator : Int) else d.numerator

def lt (a b : Double) : Bool := a.signedNumerator * b.denominator < b.signedNumerator * a.denominator

def le (a b : Double) : Bool := !lt b a

def same (a b : Double) : Bool := a = b || (a.isZero && b.isZero)

def add (a b : Double) : Option Double :=
  let sum := a.signedNumerator * b.denominator + b.signedNumerator * a.denominator
  if sum = 0 then some { zero with negative := a.negative && b.negative }
  else ofRatio (sum < 0) sum.natAbs (a.denominator * b.denominator)

def isWhole (d : Double) : Bool := d.numerator % d.denominator = 0

end Double

end Conduit

/-! The fewest decimal digits that read back as the same double, and of those the nearest.
A decimal reads back when it lies between the two midpoints to the neighbouring doubles, the
midpoints themselves counting for an even significand. -/
namespace Conduit.Double

structure Decimal where
  digits : Nat
  power : Int
  deriving DecidableEq, Repr

structure Basin where
  low : Nat
  value : Nat
  high : Nat
  unit : Nat
  closed : Bool
  deriving Repr

/-- Quarters of the last place are enough to name both midpoints, also under a power of two, where
the neighbour below is half as far away. -/
def basin (d : Double) : Basin :=
  let up := 2 ^ d.scale.toNat
  let below := if d.fraction.val = 0 && 1 < d.exponent.val then 1 else 2
  { low := (4 * d.significand - below) * up
    value := 4 * d.significand * up
    high := (4 * d.significand + 2) * up
    unit := 4 * d.denominator
    closed := d.significand % 2 = 0 }

def Basin.holds (b : Basin) (t : Nat) (power : Int) : Bool :=
  let x := t * 10 ^ power.toNat * b.unit
  let y := 10 ^ (-power).toNat
  if b.closed then b.low * y ≤ x && x ≤ b.high * y else b.low * y < x && x < b.high * y

def places (n : Nat) : Nat := (Nat.toDigits 10 n).length

def leading (num den : Nat) : Int :=
  if den ≤ num then (places (num / den) : Int) - 1
  else
    let inverse := (den + num - 1) / num
    if inverse ≤ 1 then 0 else -(places (inverse - 1) : Int)

def Basin.onGrid (b : Basin) (power : Int) : Option Decimal :=
  let x := b.value * 10 ^ (-power).toNat
  let y := b.unit * 10 ^ power.toNat
  let t := x / y
  let below := b.holds t power
  let above := b.holds (t + 1) power
  let nearBelow := 2 * (x % y) < y || (2 * (x % y) = y && t % 2 = 0)
  if below && (!above || nearBelow) then some ⟨t, power⟩
  else if above then some ⟨t + 1, power⟩
  else none

def Basin.search (b : Basin) (power : Int) : Nat → Decimal
  | 0 => (b.onGrid power).getD ⟨0, power⟩
  | count + 1 => (b.onGrid power).getD (b.search (power - 1) count)

def Decimal.trim (d : Decimal) : Nat → Decimal
  | 0 => d
  | fuel + 1 =>
    if d.digits ≠ 0 && d.digits % 10 = 0 then Decimal.trim ⟨d.digits / 10, d.power + 1⟩ fuel else d

def shortest (d : Double) : Decimal :=
  if d.isZero then ⟨0, 0⟩
  else
    let b := d.basin
    (b.search (leading b.value b.unit) 17).trim 20

/-! How the digits of a double are laid out as text. -/

structure Layout where
  /-- The exponents of the first digit that are written positionally; all of them for `none`. -/
  positional : Option (Int × Int)
  keepsPoint : Bool
  deriving DecidableEq, Repr

def Layout.json : Layout := ⟨some (-5, 15), true⟩

def Layout.plain : Layout := ⟨none, false⟩

def zeros (n : Nat) : List Char := List.replicate n '0'

def positionalText (keepsPoint : Bool) (digits : List Char) (power : Int) : List Char :=
  if 0 ≤ power then digits ++ zeros power.toNat ++ (if keepsPoint then ['.', '0'] else [])
  else
    let places := (-power).toNat
    if places < digits.length then
      digits.take (digits.length - places) ++ '.' :: digits.drop (digits.length - places)
    else '0' :: '.' :: zeros (places - digits.length) ++ digits

def scientificText (digits : List Char) (exponent : Int) : List Char :=
  let mantissa := match digits with
    | [] => []
    | [d] => [d]
    | d :: ds => d :: '.' :: ds
  mantissa ++ 'e' :: (if exponent < 0 then '-' else '+') :: Nat.toDigits 10 exponent.natAbs

def text (layout : Layout) (d : Double) : List Char :=
  let short := d.shortest
  let digits := Nat.toDigits 10 short.digits
  let exponent := short.power + digits.length - 1
  let magnitude := match layout.positional with
    | none => positionalText layout.keepsPoint digits short.power
    | some (low, high) =>
      if low ≤ exponent && exponent ≤ high then positionalText layout.keepsPoint digits short.power
      else scientificText digits exponent
  if d.negative then '-' :: magnitude else magnitude

end Conduit.Double
