import Conduit.Basic
import Conduit.Text.Class

/-! Instants of time in the notation `2023-11-14T22:13:20.5+02:00`, kept in UTC.
Reading is lenient about blanks around the fields; writing has the form with `Z` and no, three, six or
nine places of the second. -/
namespace Conduit

/-- `nanos` is a thousand million or more during a leap second. -/
structure Instant where
  seconds : Int
  nanos : Nat
  deriving DecidableEq, Repr

namespace Instant

inductive Error where
  | tooShort | tooLong | invalid | outOfRange
  deriving DecidableEq, Repr

def Error.message : Error → String
  | .tooShort => "premature end of input"
  | .tooLong => "trailing input"
  | .invalid => "input contains invalid characters"
  | .outOfRange => "input is out of range"

def epochDays : Int := 719468

/-- Days since the first of January 1970; March is the first month of the counted year. -/
def daysOfDate (year : Int) (month day : Nat) : Int :=
  let y := if month ≤ 2 then year - 1 else year
  let era := Int.fdiv y 400
  let yearOfEra := (y - era * 400).toNat
  let dayOfYear := (153 * ((month + 9) % 12) + 2) / 5 + day - 1
  let dayOfEra := yearOfEra * 365 + yearOfEra / 4 - yearOfEra / 100 + dayOfYear
  era * 146097 + dayOfEra - epochDays

def dateOfDays (days : Int) : Int × Nat × Nat :=
  let z := days + epochDays
  let era := Int.fdiv z 146097
  let dayOfEra := (z - era * 146097).toNat
  let yearOfEra := (dayOfEra - dayOfEra / 1460 + dayOfEra / 36524 - dayOfEra / 146096) / 365
  let dayOfYear := dayOfEra - (365 * yearOfEra + yearOfEra / 4 - yearOfEra / 100)
  let shifted := (5 * dayOfYear + 2) / 153
  let day := dayOfYear - (153 * shifted + 2) / 5 + 1
  let month := if shifted < 10 then shifted + 3 else shifted - 9
  let year := (yearOfEra : Int) + era * 400
  (if month ≤ 2 then year + 1 else year, month, day)

def isLeapYear (year : Int) : Bool := year % 4 = 0 && (year % 100 ≠ 0 || year % 400 = 0)

def daysInMonth (year : Int) (month : Nat) : Nat :=
  if month = 2 then (if isLeapYear year then 29 else 28)
  else if month = 4 ∨ month = 6 ∨ month = 9 ∨ month = 11 then 30 else 31

private def value (digits : List Char) : Nat := digits.foldl (fun n c => n * 10 + (c.toNat - 48)) 0

private def number (most : Nat) (cs : List Char) : Except Error (Nat × List Char) :=
  let digits := (cs.take most).takeWhile Char.isDigit
  if digits.isEmpty then .error (if cs.isEmpty then .tooShort else .invalid)
  else .ok (value digits, cs.drop digits.length)

private def field (low high : Nat) (cs : List Char) : Except Error (Nat × List Char) := do
  let (n, rest) ← number 2 (Text.trimStart cs)
  if low ≤ n ∧ n ≤ high then return (n, rest) else .error .outOfRange

private def mark (c : Char) (cs : List Char) : Except Error (List Char) :=
  match Text.trimStart cs with
  | [] => .error .tooShort
  | d :: rest => if c = d then .ok rest else .error .invalid

private def year (cs : List Char) : Except Error (Int × List Char) := do
  let (n, rest) : Int × List Char ← match Text.trimStart cs with
    | '-' :: rest => (number rest.length rest).map fun y => (-(y.1 : Int), y.2)
    | '+' :: rest => (number rest.length rest).map fun y => ((y.1 : Int), y.2)
    | cs => (number 4 cs).map fun y => ((y.1 : Int), y.2)
  if -2 ^ 31 ≤ n ∧ n < 2 ^ 31 then return (n, rest) else .error .outOfRange

def firstYear : Int := -262143

def lastYear : Int := 262142

def isDate (year : Int) (month day : Nat) : Bool :=
  firstYear ≤ year && year ≤ lastYear && day ≤ daysInMonth year month

private def separator : List Char → Except Error (List Char)
  | [] => .error .tooShort
  | c :: rest => if c = 't' ∨ c = 'T' ∨ c = ' ' then .ok rest else .error .invalid

private def fraction : List Char → Except Error (Nat × List Char)
  | '.' :: rest => do
    let digits := (rest.take 9).takeWhile Char.isDigit
    if digits.isEmpty then .error (if rest.isEmpty then .tooShort else .invalid)
    else return (value digits * 10 ^ (9 - digits.length), rest.dropWhile Char.isDigit)
  | cs => .ok (0, cs)

private def twoDigits : List Char → Except Error (Nat × List Char)
  | a :: b :: rest => if a.isDigit && b.isDigit then .ok (value [a, b], rest) else .error .invalid
  | _ => .error .tooShort

private def offset (cs : List Char) : Except Error (Int × List Char) :=
  match cs with
  | [] => .error .tooShort
  | sign :: rest =>
    if sign = 'z' ∨ sign = 'Z' then .ok (0, rest)
    else if (cs.take 3).map Char.toUpper = ['U', 'T', 'C'] then .ok (0, cs.drop 3)
    else if sign = '+' ∨ sign = '-' ∨ sign = '−' then do
      let (hours, rest) ← twoDigits rest
      let (minutes, rest) ← twoDigits (rest.dropWhile fun c => c = ':' || Text.isBlank c)
      let n : Int := (hours * 3600 + minutes * 60 : Nat)
      if 59 < minutes then .error .outOfRange else return (if sign = '+' then n else -n, rest)
    else .error .invalid

def parseChars (cs : List Char) : Except Error Instant := do
  let (year, cs) ← year cs
  let (month, cs) ← field 1 12 (← mark '-' cs)
  let (day, cs) ← field 1 31 (← mark '-' cs)
  let cs ← separator cs
  let (hour, cs) ← field 0 23 cs
  let (minute, cs) ← field 0 59 (← mark ':' cs)
  let (second, cs) ← field 0 60 (← mark ':' cs)
  let (nanos, cs) ← fraction cs
  let (shift, cs) ← offset (Text.trimStart cs)
  if !(Text.trimStart cs).isEmpty then .error .tooLong
  else if !isDate year month day || 86400 ≤ shift.natAbs then .error .outOfRange
  else
    let leap := second = 60
    let ofDay : Int := (hour * 3600 + minute * 60 + (if leap then 59 else second) : Nat)
    return ⟨daysOfDate year month day * 86400 + ofDay - shift,
      if leap then nanos + 1000000000 else nanos⟩

def parse (s : String) : Except Error Instant := parseChars s.toList

private def padded (width n : Nat) : List Char :=
  let digits := Nat.toDigits 10 n
  List.replicate (width - digits.length) '0' ++ digits

def chars (t : Instant) : List Char :=
  let days := Int.fdiv t.seconds 86400
  let ofDay := (t.seconds - days * 86400).toNat
  let (year, month, day) := dateOfDays days
  let yearText :=
    if 0 ≤ year ∧ year ≤ 9999 then padded 4 year.toNat
    else (if year < 0 then '-' else '+') :: padded 4 year.natAbs
  let leap := 1000000000 ≤ t.nanos
  let nanos := if leap then t.nanos - 1000000000 else t.nanos
  let second := ofDay % 60 + (if leap then 1 else 0)
  let fractionText :=
    if nanos = 0 then []
    else if nanos % 1000000 = 0 then '.' :: padded 3 (nanos / 1000000)
    else if nanos % 1000 = 0 then '.' :: padded 6 (nanos / 1000)
    else '.' :: padded 9 nanos
  yearText ++ '-' :: padded 2 month ++ '-' :: padded 2 day ++ 'T' :: padded 2 (ofDay / 3600)
    ++ ':' :: padded 2 (ofDay / 60 % 60) ++ ':' :: padded 2 second ++ fractionText ++ ['Z']

def text (t : Instant) : String := String.ofList t.chars

end Instant

end Conduit
