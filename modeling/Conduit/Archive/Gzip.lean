import Conduit.Basic

/-! Data packed by gzip: a header, deflated data, and a cyclic redundancy check of 32 bits. -/

namespace Conduit.Crc32

def polynomial : UInt32 := 0xEDB88320

def shift (crc : UInt32) : UInt32 := if crc &&& 1 = 1 then (crc >>> 1) ^^^ polynomial else crc >>> 1

def shifted : Nat → UInt32 → UInt32
  | 0, crc => crc
  | n + 1, crc => shifted n (shift crc)

def step (crc : UInt32) (b : UInt8) : UInt32 := shifted 8 (crc ^^^ b.toUInt32)

def checksum (bytes : Bytes) : UInt32 := bytes.foldl step 0xFFFFFFFF ^^^ 0xFFFFFFFF

def littleEndian (width n : Nat) : Bytes := (List.range width).map fun i => UInt8.ofNat (n / 256 ^ i % 256)

def ofLittleEndian : Bytes → Nat
  | [] => 0
  | b :: rest => b.toNat + 256 * ofLittleEndian rest

end Conduit.Crc32

/-! Reading bytes bit by bit, the lowest bit of a byte first. -/
namespace Conduit.Deflate

inductive Error where
  | corrupt
  | incomplete
  | overLimit
  deriving DecidableEq, Repr

def Error.message : Error → String
  | .corrupt => "corrupt deflate stream"
  | .incomplete => "incomplete deflate stream"
  | .overLimit => "too much data"

structure BitSource where
  bits : List Bool := []
  bytes : Bytes
  deriving DecidableEq, Repr

abbrev Taken (α : Type) := α × BitSource

def bitsOf (b : UInt8) : List Bool := (List.range 8).map b.toNat.testBit

namespace BitSource

def left (s : BitSource) : Nat := s.bits.length + 8 * s.bytes.length

def bit : BitSource → Except Error (Taken Bool)
  | ⟨b :: bits, bytes⟩ => .ok (b, ⟨bits, bytes⟩)
  | ⟨[], byte :: bytes⟩ => .ok (byte.toNat.testBit 0, ⟨(bitsOf byte).drop 1, bytes⟩)
  | ⟨[], []⟩ => .error .incomplete

def natural (s : BitSource) : Nat → Except Error (Taken Nat)
  | 0 => .ok (0, s)
  | n + 1 => do
    let (b, s) ← s.bit
    let (high, s) ← s.natural n
    return (2 * high + b.toNat, s)

def take (s : BitSource) (count : Nat) : Except Error (Taken Bytes) :=
  let taken := s.bytes.take count
  if taken.length < count then .error .incomplete else .ok (taken, ⟨[], s.bytes.drop count⟩)

end BitSource

/-! Codes of differing lengths, given by the length of each symbol's code alone: shorter codes come first,
and codes of one length in the order of their symbols. -/

inductive CodeTree where
  | unused
  | leaf (symbol : Nat)
  | node (zero one : CodeTree)
  deriving DecidableEq, Repr

namespace CodeTree

def pairs : List CodeTree → List CodeTree
  | a :: b :: rest => .node a b :: pairs rest
  | [a] => [.node a .unused]
  | [] => []

def leaves (lengths : List Nat) (length : Nat) : List CodeTree :=
  (lengths.zipIdx.filter (·.1 = length)).map fun s => .leaf s.2

def level (lengths : List Nat) (depth : Nat) : Nat → List CodeTree
  | 0 => leaves lengths depth
  | below + 1 => leaves lengths depth ++ pairs (level lengths (depth + 1) below)

def isComplete : CodeTree → Bool
  | .unused => false
  | .leaf _ => true
  | .node zero one => zero.isComplete && one.isComplete

def maxLength : Nat := 15

def ofLengths? (lengths : List Nat) : Option CodeTree :=
  match pairs (level lengths 1 (maxLength - 1)) with
  | [] => some .unused
  | [root] => some root
  | _ => none

/-- Codes that are in use only in part are refused, except for no code at all and for one of one bit. -/
def isUsable : CodeTree → Bool
  | .unused => true
  | .node (.leaf _) .unused => true
  | root => root.isComplete

def decode : CodeTree → BitSource → Except Error (Taken Nat)
  | .unused, _ => .error .corrupt
  | .leaf symbol, s => .ok (symbol, s)
  | .node zero one, s => do
    let (b, s) ← s.bit
    if b then one.decode s else zero.decode s

end CodeTree

/-! Unpacking deflated data: literal bytes, and references to bytes that were unpacked before. -/

def lengthBases : List (Nat × Nat) :=
  [(3, 0), (4, 0), (5, 0), (6, 0), (7, 0), (8, 0), (9, 0), (10, 0), (11, 1), (13, 1), (15, 1), (17, 1),
   (19, 2), (23, 2), (27, 2), (31, 2), (35, 3), (43, 3), (51, 3), (59, 3), (67, 4), (83, 4), (99, 4),
   (115, 4), (131, 5), (163, 5), (195, 5), (227, 5), (258, 0)]

def distanceBases : List (Nat × Nat) :=
  [(1, 0), (2, 0), (3, 0), (4, 0), (5, 1), (7, 1), (9, 2), (13, 2), (17, 3), (25, 3), (33, 4), (49, 4),
   (65, 5), (97, 5), (129, 6), (193, 6), (257, 7), (385, 7), (513, 8), (769, 8), (1025, 9), (1537, 9),
   (2049, 10), (3073, 10), (4097, 11), (6145, 11), (8193, 12), (12289, 12), (16385, 13), (24577, 13)]

abbrev Output := Array UInt8

def byteBack (out : Output) (distance : Nat) : UInt8 :=
  if out.size < distance then 0 else out.getD (out.size - distance) 0

def copyBack (out : Output) (distance : Nat) : Nat → Output
  | 0 => out
  | n + 1 => copyBack (out.push (byteBack out distance)) distance n

def based (bases : List (Nat × Nat)) (symbol : Nat) (s : BitSource) : Except Error (Taken Nat) :=
  match bases[symbol]? with
  | none => .error .corrupt
  | some (base, bits) => do
    let (more, s) ← s.natural bits
    return (base + more, s)

structure Codes where
  literals : CodeTree
  distances : CodeTree
  deriving DecidableEq, Repr

def endOfBlock : Nat := 256

def symbols (codes : Codes) (limit : Nat) : Nat → Output → BitSource → Except Error (Taken Output)
  | 0, _, _ => .error .incomplete
  | fuel + 1, out, s =>
    if limit < out.size then .error .overLimit
    else do
      let (symbol, s) ← codes.literals.decode s
      if symbol < endOfBlock then symbols codes limit fuel (out.push (UInt8.ofNat symbol)) s
      else if symbol = endOfBlock then return (out, s)
      else
        let (length, s) ← based lengthBases (symbol - endOfBlock - 1) s
        let (code, s) ← codes.distances.decode s
        let (distance, s) ← based distanceBases code s
        symbols codes limit fuel (copyBack out distance length) s

def fixedLengths : List Nat :=
  List.replicate 144 8 ++ List.replicate 112 9 ++ List.replicate 24 7 ++ List.replicate 8 8

def codesOf (literals distances : List Nat) : Except Error Codes :=
  match CodeTree.ofLengths? literals, CodeTree.ofLengths? distances with
  | some literals, some distances =>
    if literals.isUsable && distances.isUsable then .ok ⟨literals, distances⟩ else .error .corrupt
  | _, _ => .error .corrupt

def lengthOrder : List Nat := [16, 17, 18, 0, 8, 7, 9, 6, 10, 5, 11, 4, 12, 3, 13, 2, 14, 1, 15]

def naturals (bits : Nat) (s : BitSource) : Nat → Except Error (Taken (List Nat))
  | 0 => .ok ([], s)
  | n + 1 => do
    let (v, s) ← s.natural bits
    let (vs, s) ← naturals bits s n
    return (v :: vs, s)

/-- Code lengths up to a count, `read` being those before, the last first. Three symbols repeat the last
length, or zero. -/
def codeLengths (code : CodeTree) (count : Nat) : Nat → List Nat → BitSource → Except Error (Taken (List Nat))
  | 0, _, _ => .error .incomplete
  | fuel + 1, read, s =>
    if read.length = count then .ok (read.reverse, s)
    else if count < read.length then .error .corrupt
    else do
      let (symbol, s) ← code.decode s
      if symbol < 16 then codeLengths code count fuel (symbol :: read) s
      else if symbol = 16 then
        match read with
        | [] => .error .corrupt
        | last :: _ => do
          let (n, s) ← s.natural 2
          codeLengths code count fuel (List.replicate (n + 3) last ++ read) s
      else
        let (n, s) ← if symbol = 17 then s.natural 3 else s.natural 7
        codeLengths code count fuel (List.replicate (n + if symbol = 17 then 3 else 11) 0 ++ read) s

def ownCodes (s : BitSource) : Except Error (Taken Codes) := do
  let (literals, s) ← s.natural 5
  let (distances, s) ← s.natural 5
  let (lengths, s) ← s.natural 4
  if 29 < literals || 29 < distances then .error .corrupt
  else
    let (lengths, s) ← naturals 3 s (lengths + 4)
    let ordered := lengthOrder.zip lengths
    match CodeTree.ofLengths? ((List.range 19).map fun i => (ordered.lookup i).getD 0) with
    | none => .error .corrupt
    | some code =>
      if !code.isComplete then .error .corrupt
      else do
        let count := literals + 257 + (distances + 1)
        let (all, s) ← codeLengths code count (count + 1) [] s
        let codes ← codesOf (all.take (literals + 257)) (all.drop (literals + 257))
        return (codes, s)

/-- A block of bytes as they are. Those that are there count, even if others are missing. -/
def stored (limit : Nat) (out : Output) (s : BitSource) : Except Error (Taken Output) := do
  let (header, s) ← s.take 4
  match header with
  | [a, b, c, d] =>
    if a ^^^ c ≠ 0xFF || b ^^^ d ≠ 0xFF then .error .corrupt
    else
      let count := a.toNat + 256 * b.toNat
      if limit < out.size + min count s.bytes.length then .error .overLimit
      else
        let (bytes, s) ← s.take count
        return (out ++ bytes, s)
  | _ => .error .corrupt

def block (limit : Nat) (out : Output) (s : BitSource) : Except Error (Taken Output) := do
  let (kind, s) ← s.natural 2
  match kind with
  | 0 => stored limit out s
  | 1 => do symbols (← codesOf fixedLengths (List.replicate 32 5)) limit (s.left + 1) out s
  | 2 => do
    let (codes, s) ← ownCodes s
    symbols codes limit (s.left + 1) out s
  | _ => .error .corrupt

def blocks (limit : Nat) : Nat → Output → BitSource → Except Error (Taken Output)
  | 0, _, _ => .error .incomplete
  | fuel + 1, out, s => do
    let (last, s) ← s.bit
    let (out, s) ← block limit out s
    if limit < out.size then .error .overLimit
    else if last then return (out, s)
    else blocks limit fuel out s

def inflate (limit : Nat) (bytes : Bytes) : Except Error (Bytes × Bytes) := do
  let source : BitSource := ⟨[], bytes⟩
  let (out, rest) ← blocks limit (source.left + 1) #[] source
  return (out.toList, rest.bytes)

/-! Packing without compression. -/

def storedSize : Nat := 65535

def storedBlock (last : Bool) (bytes : Bytes) : Bytes :=
  let low := UInt8.ofNat (bytes.length % 256)
  let high := UInt8.ofNat (bytes.length / 256)
  (if last then 1 else 0) :: low :: high :: (low ^^^ 0xFF) :: (high ^^^ 0xFF) :: bytes

def store (bytes : Bytes) : Bytes :=
  if bytes.length ≤ storedSize then storedBlock true bytes
  else storedBlock false (bytes.take storedSize) ++ store (bytes.drop storedSize)
termination_by bytes.length
decreasing_by simp only [List.length_drop, storedSize] at *; omega

end Conduit.Deflate

namespace Conduit.Gzip

inductive Error where
  | badHeader
  | unexpectedEnd
  | badChecksum
  | data (reason : Deflate.Error)
  deriving DecidableEq, Repr

def Error.message : Error → String
  | .badHeader => "invalid gzip header"
  | .unexpectedEnd => "unexpected end of file"
  | .badChecksum => "corrupt gzip stream does not have a matching checksum"
  | .data reason => reason.message

def magic : Bytes := [0x1F, 0x8B]

def isPacked (bytes : Bytes) : Bool := magic.isPrefixOf bytes

def skip (count : Nat) (bytes : Bytes) : Except Error Bytes :=
  if bytes.length < count then .error .unexpectedEnd else .ok (bytes.drop count)

def skipText (bytes : Bytes) : Except Error Bytes :=
  match bytes.dropWhile (· ≠ 0) with
  | [] => .error .unexpectedEnd
  | _ :: rest => .ok rest

def skipExtra (bytes : Bytes) : Except Error Bytes := do
  skip (Crc32.ofLittleEndian (bytes.take 2)) (← skip 2 bytes)

def skipCheck (bytes rest : Bytes) : Except Error Bytes := do
  let after ← skip 2 rest
  let header := bytes.take (bytes.length - rest.length)
  if Crc32.ofLittleEndian (rest.take 2) = (Crc32.checksum header).toNat % 65536 then return after
  else .error .badChecksum

/-- The bytes after the header. Its flags say which parts it has: from the lowest, a hint about the data,
a check, extra bytes, a name and a comment. -/
def skipHeader (bytes : Bytes) : Except Error Bytes := do
  let rest ← skip 10 bytes
  match bytes with
  | a :: b :: method :: flags :: _ =>
    if [a, b] ≠ magic || method ≠ 8 || flags &&& 0xE0 ≠ 0 then .error .badHeader
    else
      let rest ← if flags &&& 4 ≠ 0 then skipExtra rest else pure rest
      let rest ← if flags &&& 8 ≠ 0 then skipText rest else pure rest
      let rest ← if flags &&& 16 ≠ 0 then skipText rest else pure rest
      if flags &&& 2 ≠ 0 then skipCheck bytes rest else return rest
  | _ => .error .unexpectedEnd

def unpack (limit : Nat) (bytes : Bytes) : Except Error Bytes := do
  let body ← skipHeader bytes
  let (out, rest) ← (Deflate.inflate limit body).mapError .data
  let _ ← skip 8 rest
  if Crc32.ofLittleEndian (rest.take 4) ≠ (Crc32.checksum out).toNat then .error .badChecksum
  else if Crc32.ofLittleEndian ((rest.drop 4).take 4) ≠ out.length % 2 ^ 32 then .error .badChecksum
  else return out

def header : Bytes := magic ++ [8, 0, 0, 0, 0, 0, 0, 255]

def pack (bytes : Bytes) : Bytes :=
  header ++ Deflate.store bytes ++ Crc32.littleEndian 4 (Crc32.checksum bytes).toNat
    ++ Crc32.littleEndian 4 bytes.length

end Conduit.Gzip
