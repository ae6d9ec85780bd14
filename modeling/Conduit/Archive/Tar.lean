import Conduit.Text.Class
import Conduit.Basic
import Conduit.Text.Encoding

/-! Tape archives: for each file a header of one block, then its bytes, filled up to whole blocks. -/
namespace Conduit.Tar

structure Entry where
  name : Bytes
  data : Bytes
  deriving DecidableEq, Repr

def blockSize : Nat := 512

def paddingOf (length : Nat) : Nat := (blockSize - length % blockSize) % blockSize

def zeros (count : Nat) : Bytes := List.replicate count 0

def ascii (s : String) : Bytes := s.toList.map fun c => UInt8.ofNat c.toNat

/-! Headers. -/

def octal : Nat → Nat → Bytes
  | 0, _ => []
  | width + 1, n => octal width (n / 8) ++ [UInt8.ofNat (48 + n % 8)]

def binary : Nat → Nat → Bytes
  | 0, _ => []
  | width + 1, n => binary width (n / 256) ++ [UInt8.ofNat (n % 256)]

def sizeField (size : Nat) : Bytes :=
  if size < 8 ^ 11 then octal 11 size ++ [0] else 0x80 :: zeros 3 ++ binary 8 size

def headerFront (name : Bytes) (size : Nat) : Bytes :=
  name ++ zeros (100 - name.length) ++ ascii "0000644" ++ [0] ++ ascii "0000000" ++ [0] ++ ascii "0000000"
    ++ [0] ++ sizeField size ++ octal 11 0 ++ [0]

def headerBack : Bytes := ascii "0" ++ zeros 100 ++ ascii "ustar  " ++ zeros 248

def sum (bytes : Bytes) : Nat := bytes.foldl (fun total b => total + b.toNat) 0

def checkOf (front back : Bytes) : Nat := sum front + 8 * 32 + sum back

def header (name : Bytes) (size : Nat) : Bytes :=
  headerFront name size ++ octal 7 (checkOf (headerFront name size) headerBack) ++ [0] ++ headerBack

def writeEntry (e : Entry) : Bytes := header e.name e.data.length ++ e.data ++ zeros (paddingOf e.data.length)

def write (entries : List Entry) : Bytes := entries.flatMap writeEntry ++ zeros (2 * blockSize)

/-! Reading. -/

inductive Error where
  | partialBlock
  | endInSkip
  | badCheck
  | notNumber (text field name : String)
  | notText (text field name : String)
  | sizeOverflow
  | twoLongNames
  | twoExtensions
  | noMember
  deriving DecidableEq, Repr

def Error.message : Error → String
  | .partialBlock => "failed to read entire block"
  | .endInSkip => "unexpected EOF during skip"
  | .badCheck => "archive header checksum mismatch"
  | .notNumber text field name => s!"numeric field was not a number: {text} when getting {field} for {name}"
  | .notText text field name =>
    s!"numeric field did not have utf-8 text: {text} when getting {field} for {name}"
  | .sizeOverflow => "size overflow"
  | .twoLongNames => "two long name entries describing the same member"
  | .twoExtensions => "two pax extensions entries describing the same member"
  | .noMember => "members found describing a future member but no future member found"

def cutZero (bytes : Bytes) : Bytes := bytes.takeWhile (· ≠ 0)

def slice (header : Bytes) (start count : Nat) : Bytes := (header.drop start).take count

def isGnu (header : Bytes) : Bool := slice header 257 8 = ascii "ustar  " ++ [0]

def isUstar (header : Bytes) : Bool := slice header 257 8 = ascii "ustar" ++ [0] ++ ascii "00"

def headerName (header : Bytes) : Bytes :=
  let name := cutZero (slice header 0 100)
  let front := if isUstar header then cutZero (slice header 345 155) else []
  if front.isEmpty then name else front ++ ascii "/" ++ name

def octalValue? (cs : List Char) : Option Nat :=
  let digits := match cs with
    | '+' :: rest => rest
    | cs => cs
  if digits.isEmpty || !digits.all (fun c => '0' ≤ c && c ≤ '7') then none
  else
    let n := digits.foldl (fun n c => n * 8 + (c.toNat - 48)) 0
    if n < 2 ^ 64 then some n else none

def octalField (header : Bytes) (field : String) (bytes : Bytes) : Except Error Nat :=
  let written := cutZero bytes
  let name := Text.lossy (headerName header)
  match Text.ofUtf8? written with
  | none => .error (.notText (Text.lossy written) field name)
  | some text =>
    match octalValue? (Text.trim text.toList) with
    | some n => .ok n
    | none => .error (.notNumber text field name)

def bigEndian (bytes : Bytes) : Nat := bytes.foldl (fun n b => n * 256 + b.toNat) 0

/-- The size is written in digits, or in binary when the highest bit of its field is set. -/
def sizeOf (header : Bytes) : Except Error Nat :=
  let field := slice header 124 12
  if 128 ≤ (field.headD 0).toNat then .ok (bigEndian (field.drop 4)) else octalField header "size" field

structure Member where
  header : Bytes
  data : Bytes
  rest : Option Bytes
  deriving DecidableEq, Repr

def memberOf (header rest : Bytes) (size : Nat) : Except Error Member :=
  if 2 ^ 64 ≤ size + (blockSize - 1) then .error .sizeOverflow
  else
    let whole := size + paddingOf size
    .ok ⟨header, rest.take size, if rest.length < whole then none else some (rest.drop whole)⟩

def member (bytes : Bytes) (extended : Option Nat) : Except Error (Option Member) :=
  let header := bytes.take blockSize
  if header.isEmpty then .ok none
  else if header.length < blockSize then .error .partialBlock
  else if header.all (· = 0) then .ok none
  else do
    let check ← octalField header "cksum" (slice header 148 8)
    if check % 2 ^ 32 ≠ checkOf (header.take 148) (header.drop 156) then .error .badCheck
    else
      let size ← sizeOf header
      let size := if size = 0 then extended.getD 0 else size
      return some (← memberOf header (bytes.drop blockSize) size)

/-! Members that describe the next one. -/

def splitLines : Bytes → List Bytes
  | [] => [[]]
  | b :: rest =>
    if b = 10 then [] :: splitLines rest
    else
      match splitLines rest with
      | line :: lines => (b :: line) :: lines
      | [] => [[b]]

def extension? (line : Bytes) : Option (Bytes × Bytes) := do
  let length := line.takeWhile (· ≠ 32)
  let rest := (line.dropWhile (· ≠ 32)).drop 1
  let text ← Text.ofUtf8? length
  let count ← Text.natural64? text.toList
  if length.length < line.length && line.length + 1 = count && rest.contains 61 then
    some (rest.takeWhile (· ≠ 61), (rest.dropWhile (· ≠ 61)).drop 1)
  else none

def extensions (data : Bytes) : List (Option (Bytes × Bytes)) :=
  ((splitLines data).takeWhile (· ≠ [])).map extension?

def extended? (key : String) (data : Bytes) : Option Bytes :=
  ((extensions data).filterMap id).lookup (ascii key)

/-- The size that the lines give; a line that cannot be read hides those after it. -/
def extendedSize? (data : Bytes) : Option Nat := do
  let text ← Text.ofUtf8? (← (((extensions data).takeWhile Option.isSome).filterMap id).lookup (ascii "size"))
  Text.natural64? text.toList

structure Announced where
  longName : Option Bytes := none
  longLink : Bool := false
  extensions : Option Bytes := none
  deriving DecidableEq, Repr

def Announced.isEmpty (a : Announced) : Bool := a.longName.isNone && !a.longLink && a.extensions.isNone

def Announced.name (a : Announced) (header : Bytes) : Bytes :=
  match a.longName with
  | some name => if name.getLast? = some 0 then name.dropLast else name
  | none => ((a.extensions.bind (extended? "path")).getD (headerName header))

def Announced.add (a : Announced) (m : Member) : Except Error (Option Announced) :=
  let kind := if isGnu m.header || isUstar m.header then m.header.getD 156 0 else 0
  if kind = 76 then
    if a.longName.isSome then .error .twoLongNames else .ok (some { a with longName := some m.data })
  else if kind = 75 then
    if a.longLink then .error .twoLongNames else .ok (some { a with longLink := true })
  else if kind = 120 then
    if a.extensions.isSome then .error .twoExtensions
    else .ok (some { a with extensions := some m.data })
  else .ok none

def entries (a : Announced) : Nat → Option Bytes → Except Error (List Entry)
  | 0, _ => .ok []
  | _ + 1, none => .error .endInSkip
  | fuel + 1, some bytes => do
    match ← member bytes (a.extensions.bind extendedSize?) with
    | none => if a.isEmpty then return [] else .error .noMember
    | some m =>
      match ← a.add m with
      | some a => entries a fuel m.rest
      | none => return ⟨a.name m.header, m.data⟩ :: (← entries {} fuel m.rest)

def read (bytes : Bytes) : Except Error (List Entry) := entries {} (bytes.length + 2) (some bytes)

end Conduit.Tar
