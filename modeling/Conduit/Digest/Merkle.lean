import Conduit.Digest.Content
import Conduit.Json.Shape

/-! Merkle trees over digests. A leaf and a pair are hashed under different leading bytes, and a level
with an odd count pairs its last node with itself. -/
namespace Conduit.Merkle

inductive Error where
  | empty
  | invalidLeaf (index : Nat) (reason : Text.Hex.DecodeError)
  deriving DecidableEq, Repr

def Error.message : Error → String
  | .empty => "merkle tree needs at least one leaf"
  | .invalidLeaf index reason => s!"leaf {index} is not valid hex: {reason.message}"

inductive Side where
  | left
  | right
  deriving DecidableEq, Repr

structure Step where
  hash : String
  side : Side
  deriving DecidableEq, Repr

structure Proof where
  leafIndex : Nat
  leaf : String
  steps : List Step
  deriving DecidableEq, Repr

def Side.name : Side → String
  | .left => "left"
  | .right => "right"

def Side.ofName (name : String) : Side := if name = "left" then .left else .right

def Step.toJson (s : Step) : Json := .ofPairs [("hash", .str s.hash), ("side", .str s.side.name)]

def Step.reader : Json.Reader Step where
  shape := .record "ProofStep"
    [Json.required "hash" .string, Json.required "side" (.choice ["left", "right"])]
  view v := ⟨v.textAt "hash" "", .ofName (v.textAt "side" "")⟩

def Proof.toJson (p : Proof) : Json :=
  .ofPairs [("leafIndex", .nat p.leafIndex), ("leaf", .str p.leaf), ("steps", .arr (p.steps.map Step.toJson))]

def Proof.reader : Json.Reader Proof where
  shape := .record "MerkleProof"
    [Json.required "leafIndex" (.natural .size), Json.required "leaf" .string,
     Json.required "steps" (.list Step.reader.shape)]
  view v := ⟨v.natAt "leafIndex" 0, v.textAt "leaf" "", (v.itemsAt "steps").map Step.reader.view⟩

def hashLeaf (leaf : Bytes) : Bytes := Sha256.hash (0 :: leaf)

def hashPair (left right : Bytes) : Bytes := Sha256.hash (1 :: left ++ right)

def parents : List Bytes → List Bytes
  | [] => []
  | [a] => [hashPair a a]
  | a :: b :: rest => hashPair a b :: parents rest

theorem length_parents : (level : List Bytes) → (parents level).length = (level.length + 1) / 2
  | [] => rfl
  | [_] => by simp [parents]
  | _ :: _ :: rest => by simp only [parents, List.length_cons, length_parents rest]; omega

def levels (level : List Bytes) : List (List Bytes) :=
  if level.length ≤ 1 then [level] else level :: levels (parents level)
termination_by level.length
decreasing_by rw [length_parents]; omega

structure Tree where
  leaves : List String
  base : List Bytes
  deriving DecidableEq, Repr

def hashLeaves (index : Nat) : List String → Except Error (List Bytes)
  | [] => .ok []
  | leaf :: rest =>
    match Text.Hex.decode leaf with
    | .error reason => .error (.invalidLeaf index reason)
    | .ok bytes => do return hashLeaf bytes :: (← hashLeaves (index + 1) rest)

def ofLeaves (leaves : List String) : Except Error Tree :=
  if leaves.isEmpty then .error .empty
  else do return ⟨leaves, ← hashLeaves 0 leaves⟩

def Tree.rootBytes (t : Tree) : Bytes := ((levels t.base).getLast?.bind List.head?).getD []

def Tree.root (t : Tree) : String := Text.Hex.encode t.rootBytes

def siblings (index : Nat) : List (List Bytes) → List Step
  | [] => []
  | [_] => []
  | level :: above =>
    let sibling := if index % 2 = 0 then index + 1 else index - 1
    let hash := (level[sibling]?.or level[index]?).getD []
    ⟨Text.Hex.encode hash, if index % 2 = 0 then .right else .left⟩ :: siblings (index / 2) above

def Tree.proof? (t : Tree) (index : Nat) : Option Proof := do
  let leaf ← t.leaves[index]?
  return ⟨index, leaf, siblings index (levels t.base)⟩

def decodeDigest (s : String) : Option Bytes :=
  match Text.Hex.decode s with
  | .ok bytes => if bytes.length = 32 then some bytes else none
  | .error _ => none

def climb (hash : Bytes) : List Step → Option Bytes
  | [] => some hash
  | step :: rest => do
    let sibling ← decodeDigest step.hash
    match step.side with
    | .right => climb (hashPair hash sibling) rest
    | .left => climb (hashPair sibling hash) rest

def lowerAscii (s : String) : String := String.ofList (s.toList.map Char.toLower)

def verify (leaf : String) (proof : Proof) (root : String) : Bool :=
  match Text.Hex.decode leaf with
  | .error _ => false
  | .ok bytes =>
    match climb (hashLeaf bytes) proof.steps with
    | none => false
    | some top => Text.Hex.encode top = lowerAscii root

end Conduit.Merkle
