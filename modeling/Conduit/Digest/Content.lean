import Conduit.Basic
import Conduit.Text.Encoding
import Conduit.Json.Shape

/-! The digest SHA-256 of a byte string. -/
namespace Conduit.Sha256

structure State where
  a : UInt32
  b : UInt32
  c : UInt32
  d : UInt32
  e : UInt32
  f : UInt32
  g : UInt32
  h : UInt32
  deriving DecidableEq, Repr

def initial : State :=
  ⟨0x6a09e667, 0xbb67ae85, 0x3c6ef372, 0xa54ff53a, 0x510e527f, 0x9b05688c, 0x1f83d9ab, 0x5be0cd19⟩

def constants : List UInt32 :=
  [0x428a2f98, 0x71374491, 0xb5c0fbcf, 0xe9b5dba5, 0x3956c25b, 0x59f111f1, 0x923f82a4, 0xab1c5ed5,
   0xd807aa98, 0x12835b01, 0x243185be, 0x550c7dc3, 0x72be5d74, 0x80deb1fe, 0x9bdc06a7, 0xc19bf174,
   0xe49b69c1, 0xefbe4786, 0x0fc19dc6, 0x240ca1cc, 0x2de92c6f, 0x4a7484aa, 0x5cb0a9dc, 0x76f988da,
   0x983e5152, 0xa831c66d, 0xb00327c8, 0xbf597fc7, 0xc6e00bf3, 0xd5a79147, 0x06ca6351, 0x14292967,
   0x27b70a85, 0x2e1b2138, 0x4d2c6dfc, 0x53380d13, 0x650a7354, 0x766a0abb, 0x81c2c92e, 0x92722c85,
   0xa2bfe8a1, 0xa81a664b, 0xc24b8b70, 0xc76c51a3, 0xd192e819, 0xd6990624, 0xf40e3585, 0x106aa070,
   0x19a4c116, 0x1e376c08, 0x2748774c, 0x34b0bcb5, 0x391c0cb3, 0x4ed8aa4a, 0x5b9cca4f, 0x682e6ff3,
   0x748f82ee, 0x78a5636f, 0x84c87814, 0x8cc70208, 0x90befffa, 0xa4506ceb, 0xbef9a3f7, 0xc67178f2]

private def rotr (x : UInt32) (n : UInt32) : UInt32 := (x >>> n) ||| (x <<< (32 - n))

private def smallSigma0 (x : UInt32) : UInt32 := rotr x 7 ^^^ rotr x 18 ^^^ (x >>> 3)

private def smallSigma1 (x : UInt32) : UInt32 := rotr x 17 ^^^ rotr x 19 ^^^ (x >>> 10)

private def bigSigma0 (x : UInt32) : UInt32 := rotr x 2 ^^^ rotr x 13 ^^^ rotr x 22

private def bigSigma1 (x : UInt32) : UInt32 := rotr x 6 ^^^ rotr x 11 ^^^ rotr x 25

private def choose (x y z : UInt32) : UInt32 := (x &&& y) ^^^ (~~~x &&& z)

private def majority (x y z : UInt32) : UInt32 := (x &&& y) ^^^ (x &&& z) ^^^ (y &&& z)

def word (a b c d : UInt8) : UInt32 :=
  (a.toUInt32 <<< 24) ||| (b.toUInt32 <<< 16) ||| (c.toUInt32 <<< 8) ||| d.toUInt32

def words : Bytes → List UInt32
  | a :: b :: c :: d :: rest => word a b c d :: words rest
  | _ => []

def extend (schedule : Array UInt32) : Nat → Array UInt32
  | 0 => schedule
  | n + 1 =>
    let t := schedule.size
    extend (schedule.push (smallSigma1 (schedule.getD (t - 2) 0) + schedule.getD (t - 7) 0
      + smallSigma0 (schedule.getD (t - 15) 0) + schedule.getD (t - 16) 0)) n

def round (s : State) (k w : UInt32) : State :=
  let t1 := s.h + bigSigma1 s.e + choose s.e s.f s.g + k + w
  let t2 := bigSigma0 s.a + majority s.a s.b s.c
  ⟨t1 + t2, s.a, s.b, s.c, s.d + t1, s.e, s.f, s.g⟩

def compress (s : State) (block : Bytes) : State :=
  let schedule := (extend (words block).toArray 48).toList
  let r := (constants.zip schedule).foldl (fun s kw => round s kw.1 kw.2) s
  ⟨s.a + r.a, s.b + r.b, s.c + r.c, s.d + r.d, s.e + r.e, s.f + r.f, s.g + r.g, s.h + r.h⟩

def bigEndian (n : Nat) : Nat → Bytes
  | 0 => []
  | count + 1 => UInt8.ofNat (n / 256 ^ count) :: bigEndian n count

def pad (message : Bytes) : Bytes :=
  let zeros := (55 + 64 - message.length % 64) % 64
  message ++ 0x80 :: List.replicate zeros 0 ++ bigEndian (8 * message.length) 8

def blocks (s : State) (bytes : Bytes) : Nat → State
  | 0 => s
  | count + 1 => blocks (compress s (bytes.take 64)) (bytes.drop 64) count

def State.bytes (s : State) : Bytes :=
  [s.a, s.b, s.c, s.d, s.e, s.f, s.g, s.h].flatMap fun w => bigEndian w.toNat 4

def hash (message : Bytes) : Bytes :=
  let padded := pad message
  (blocks initial padded (padded.length / 64)).bytes

def hex (message : Bytes) : String := Text.Hex.encode (hash message)

def Collision (x y : Bytes) : Prop := x ≠ y ∧ hash x = hash y

end Conduit.Sha256

/-! Digests of JSON content, and the identifiers derived from them. What is hashed is the compact text,
so content with the same fields has the same digest however it was written. -/
namespace Conduit

def canonical (v : Json) : String := v.compact

structure ContentHash where
  algorithm : String
  hash : String
  size : Nat
  deriving DecidableEq, Repr

namespace ContentHash

def algorithmName : String := "sha256"

def ofBytes (bytes : Bytes) : ContentHash := ⟨algorithmName, Sha256.hex bytes, bytes.length⟩

def ofContent (v : Json) : ContentHash := ofBytes (Text.utf8 (canonical v))

def toJson (h : ContentHash) : Json :=
  .ofPairs [("algorithm", .str h.algorithm), ("hash", .str h.hash), ("size", .nat h.size)]

def reader : Json.Reader ContentHash where
  shape := .record "ArtifactHash"
    [Json.required "algorithm" .string, Json.required "hash" .string, Json.required "size" (.natural .u64)]
  view v := ⟨v.textAt "algorithm" "", v.textAt "hash" "", v.natAt "size" 0⟩

end ContentHash

def idDigits : Nat := 15

def idLead (kind : String) : Char :=
  match kind.toList with
  | c :: _ => if c.isAlphanum then c.toLower else 'x'
  | [] => 'x'

def deriveId (kind name : String) : String :=
  String.ofList (idLead kind :: (Sha256.hex (Text.utf8 (kind ++ ":" ++ name))).toList.take idDigits)

def flowId (channel : String) : String := deriveId "flow" channel

def nodeId (stage node : String) : String := deriveId "node" (stage ++ ":" ++ node)

end Conduit
