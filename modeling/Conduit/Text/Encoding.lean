import Conduit.Basic

/-! Bytes written as text, and bytes that are the text itself: two hexadecimal digits for each byte, in lower
case; the standard alphabet of 64 characters, padded to a multiple of four; UTF-8. -/

namespace Conduit.Text.Hex

inductive DecodeError where
  | oddLength
  | invalid (byte : UInt8) (index : Nat)
  deriving DecidableEq, Repr

def pairText (b : UInt8) : List Char := [Nat.digitChar (b.toNat / 16), Nat.digitChar (b.toNat % 16)]

def encode (bytes : Bytes) : String := String.ofList (bytes.flatMap pairText)

def DecodeError.message : DecodeError → String
  | .oddLength => "Odd number of digits"
  | .invalid byte index =>
    "Invalid character '" ++ String.singleton (Char.ofNat byte.toNat) ++ s!"' at position {index}"

def digit? (b : UInt8) : Option UInt8 :=
  if 48 ≤ b ∧ b ≤ 57 then some (b - 48)
  else if 97 ≤ b ∧ b ≤ 102 then some (b - 87)
  else if 65 ≤ b ∧ b ≤ 70 then some (b - 55)
  else none

def decodePairs (index : Nat) : Bytes → Except DecodeError Bytes
  | high :: low :: rest =>
    match digit? high, digit? low with
    | none, _ => .error (.invalid high index)
    | _, none => .error (.invalid low (index + 1))
    | some h, some l => do return (h * 16 + l) :: (← decodePairs (index + 2) rest)
  | _ => .ok []

def decode (s : String) : Except DecodeError Bytes :=
  let bytes := utf8 s
  if bytes.length % 2 = 1 then .error .oddLength else decodePairs 0 bytes

end Conduit.Text.Hex

namespace Conduit.Text.Base64

def alphabet : List Char :=
  "ABCDEFGHIJKLMNOPQRSTUVWXYZabcdefghijklmnopqrstuvwxyz0123456789+/".toList

private def digit (n : Nat) : Char := alphabet.getD (n % 64) 'A'

def encodeChars : Bytes → List Char
  | [] => []
  | [a] =>
    let n := a.toNat * 65536
    [digit (n / 262144), digit (n / 4096), '=', '=']
  | [a, b] =>
    let n := a.toNat * 65536 + b.toNat * 256
    [digit (n / 262144), digit (n / 4096), digit (n / 64), '=']
  | a :: b :: c :: rest =>
    let n := a.toNat * 65536 + b.toNat * 256 + c.toNat
    digit (n / 262144) :: digit (n / 4096) :: digit (n / 64) :: digit n :: encodeChars rest

def encode (bytes : Bytes) : String := String.ofList (encodeChars bytes)

private def value? (c : Char) : Option Nat :=
  if 'A' ≤ c ∧ c ≤ 'Z' then some (c.toNat - 65)
  else if 'a' ≤ c ∧ c ≤ 'z' then some (c.toNat - 71)
  else if '0' ≤ c ∧ c ≤ '9' then some (c.toNat + 4)
  else if c = '+' then some 62
  else if c = '/' then some 63
  else none

private def byte (n : Nat) : UInt8 := UInt8.ofNat (n % 256)

def decodeChars : List Char → Option Bytes
  | [] => some []
  | [a, b, '=', '='] => do
    let n := (← value? a) * 64 + (← value? b)
    if n % 16 = 0 then some [byte (n / 16)] else none
  | [a, b, c, '='] => do
    let n := ((← value? a) * 64 + (← value? b)) * 64 + (← value? c)
    if n % 4 = 0 then some [byte (n / 1024), byte (n / 4)] else none
  | a :: b :: c :: d :: rest => do
    let n := (((← value? a) * 64 + (← value? b)) * 64 + (← value? c)) * 64 + (← value? d)
    return byte (n / 65536) :: byte (n / 256) :: byte n :: (← decodeChars rest)
  | _ => none

def decode? (s : String) : Option Bytes := decodeChars s.toList

end Conduit.Text.Base64

/-! Where bytes stop being UTF-8, and why. -/
namespace Conduit.Text

structure Utf8Fault where
  index : Nat
  length : Option Nat
  deriving DecidableEq, Repr

def Utf8Fault.message (f : Utf8Fault) : String :=
  match f.length with
  | some n => s!"invalid utf-8 sequence of {n} bytes from index {f.index}"
  | none => s!"incomplete utf-8 byte sequence from index {f.index}"

structure ByteRange where
  low : UInt8
  high : UInt8
  deriving DecidableEq, Repr

def ByteRange.holds (r : ByteRange) (b : UInt8) : Bool := r.low ≤ b && b ≤ r.high

def tailRange : ByteRange := ⟨0x80, 0xBF⟩

/-- What has to follow the first byte of a character. Overlong forms, surrogates and code points
beyond the last one are kept out by the range of the second byte. -/
def followers? (lead : UInt8) : Option (List ByteRange) :=
  if lead < 0x80 then some []
  else if lead < 0xC2 then none
  else if lead < 0xE0 then some [tailRange]
  else if lead = 0xE0 then some [⟨0xA0, 0xBF⟩, tailRange]
  else if lead = 0xED then some [⟨0x80, 0x9F⟩, tailRange]
  else if lead < 0xF0 then some [tailRange, tailRange]
  else if lead = 0xF0 then some [⟨0x90, 0xBF⟩, tailRange, tailRange]
  else if lead < 0xF4 then some [tailRange, tailRange, tailRange]
  else if lead = 0xF4 then some [⟨0x80, 0x8F⟩, tailRange, tailRange]
  else none

def follow (right : Nat) : List ByteRange → Bytes → Except (Option Nat) Bytes
  | [], rest => .ok rest
  | _ :: _, [] => .error none
  | r :: ranges, b :: rest => if r.holds b then follow (right + 1) ranges rest else .error (some right)

theorem length_follow {right : Nat} {ranges : List ByteRange} {bytes rest : Bytes}
    (h : follow right ranges bytes = .ok rest) : rest.length ≤ bytes.length := by
  fun_induction follow right ranges bytes with
  | case1 => simp_all
  | case2 => simp at h
  | case3 right r ranges b bytes _ ih => exact Nat.le_succ_of_le (ih h)
  | case4 => simp at h

def utf8Fault? (index : Nat) : Bytes → Option Utf8Fault
  | [] => none
  | lead :: bytes =>
    match followers? lead with
    | none => some ⟨index, some 1⟩
    | some ranges =>
      match _h : follow 1 ranges bytes with
      | .error length => some ⟨index, length⟩
      | .ok rest => utf8Fault? (index + 1 + ranges.length) rest
termination_by bytes => bytes.length
decreasing_by exact Nat.lt_succ_of_le (length_follow _h)

def lossyChars : Nat → Bytes → List Char
  | 0, _ => []
  | fuel + 1, bytes =>
    match utf8Fault? 0 bytes with
    | none => ((ofUtf8? bytes).getD "").toList
    | some fault =>
      ((ofUtf8? (bytes.take fault.index)).getD "").toList ++ Char.ofNat 0xFFFD ::
        match fault.length with
        | none => []
        | some length => lossyChars fuel (bytes.drop (fault.index + length))

def lossy (bytes : Bytes) : String := String.ofList (lossyChars (bytes.length + 1) bytes)

end Conduit.Text
