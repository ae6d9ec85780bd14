import Conduit.Bundle.Basic

/-! What a bundle holds. -/
namespace Conduit

inductive ContentFault where
  | json (reason : Json.SyntaxError)
  | settings (reason : Settings.Error)
  deriving Repr

def ContentFault.message : ContentFault → String
  | .json reason => reason.message
  | .settings reason => reason.message

inductive BundleError where
  | packing (reason : Gzip.Error)
  | archive (reason : Tar.Error)
  | missing (file : String)
  | malformed (file : String) (fault : ContentFault)
  | tooLarge (limit : Nat)
  | merkle (reason : Merkle.Error)
  deriving Repr

def BundleError.message : BundleError → String
  | .packing reason => s!"I/O error: {reason.message}"
  | .archive reason => s!"I/O error: {reason.message}"
  | .missing file => s!"Bundle is missing {file}"
  | .malformed file fault => s!"Malformed {file}: {fault.message}"
  | .tooLarge limit => s!"Bundle unpacks to more than {limit} bytes"
  | .merkle reason => s!"Merkle tree error: {reason.message}"

structure BundleContents where
  artifacts : Artifacts
  embedded : Option Json
  deriving Repr

namespace Bundle

def unpack (limit : Nat) (bytes : Bytes) : Except BundleError Bytes :=
  if Gzip.isPacked bytes then
    match Gzip.unpack limit bytes with
    | .ok archive => .ok archive
    | .error (.data .overLimit) => .error (.tooLarge limit)
    | .error reason => .error (.packing reason)
  else if limit < bytes.length then .error (.tooLarge limit)
  else .ok bytes

def file? (entries : List Tar.Entry) (name : String) : Option Bytes :=
  (entries.reverse.find? (·.name = Text.utf8 name)).map (·.data)

def readJson (entries : List Tar.Entry) (name : String) : Except BundleError Json :=
  match file? entries name with
  | none => .error (.missing name)
  | some bytes => (Json.parseBytes bytes).mapError fun reason => .malformed name (.json reason)

def readSettings (entries : List Tar.Entry) : Except BundleError Json :=
  match file? entries Artifacts.settingsFile with
  | none => .error (.missing Artifacts.settingsFile)
  | some bytes =>
    (Settings.parse bytes).mapError fun reason => .malformed Artifacts.settingsFile (.settings reason)

def contentsOf (entries : List Tar.Entry) : Except BundleError BundleContents := do
  let settings ← readSettings entries
  let flows ← readJson entries Artifacts.flowsFile
  let manifest ← readJson entries Artifacts.manifestFile
  let credentialsMap ← readJson entries Artifacts.credentialsFile
  let embedded ← match file? entries metadataFile with
    | none => pure none
    | some _ => some <$> readJson entries metadataFile
  return ⟨⟨flows, settings, manifest, credentialsMap⟩, embedded⟩

def read (limit : Nat) (bytes : Bytes) : Except BundleError BundleContents := do
  contentsOf (← (Tar.read (← unpack limit bytes)).mapError .archive)

end Bundle

/-! Checking a bundle: its digests are computed anew, and held against those expected or, if none are,
against those that the bundle carries. -/

inductive Mismatch where
  | bundleHash
  | merkleRoot
  | artifact (name : String)
  | proof (index : Nat)
  | artifacts
  | nothingExpected
  deriving DecidableEq, Repr

def Mismatch.message : Mismatch → String
  | .bundleHash => "bundleHash"
  | .merkleRoot => "merkleRoot"
  | .artifact name => name
  | .proof index => s!"proof[{index}]"
  | .artifacts => "artifacts"
  | .nothingExpected => "no expected hashes and no embedded metadata"

structure VerifyReport where
  bundleHash : String
  merkleRoot : String
  artifacts : ArtifactHashes
  mismatches : List Mismatch
  deriving DecidableEq, Repr

namespace VerifyReport

def valid (r : VerifyReport) : Bool := r.mismatches.isEmpty

def toJson (r : VerifyReport) : Json :=
  .ofPairs
    [("valid", .bool r.valid), ("bundleHash", .str r.bundleHash), ("merkleRoot", .str r.merkleRoot),
     ("artifacts", r.artifacts.toJson), ("mismatches", .strings (r.mismatches.map Mismatch.message))]

end VerifyReport

namespace Bundle

def mismatchesWith (expected : BundleHashes) (bundleHash merkleRoot : String) (found : ArtifactHashes) :
    List Mismatch :=
  (if expected.bundleHash = bundleHash then [] else [.bundleHash])
  ++ (if expected.merkleRoot = merkleRoot then [] else [.merkleRoot])
  ++ (ArtifactHashes.names.zip (expected.artifacts.leaves.zip found.leaves)).filterMap (fun a =>
      if a.2.1 = a.2.2 then none else some (.artifact a.1))
  ++ expected.proofs.filterMap fun p =>
      if Merkle.verify p.leaf p merkleRoot then none else some (.proof p.leafIndex)

def mismatchesWithin (embedded : Option Json) (merkleRoot : String) (found : ArtifactHashes) :
    List Mismatch :=
  match embedded with
  | none => [.nothingExpected]
  | some v =>
    (if v.textAt? "merkleRoot" = some merkleRoot then [] else [.merkleRoot])
    ++ match ArtifactHashes.reader.read (v.valueAt "artifacts") with
      | .ok carried => if carried = found then [] else [.artifacts]
      | .error _ => [.artifacts]

def verify (limit : Nat) (expected : Option BundleHashes) (bytes : Bytes) :
    Except BundleError VerifyReport := do
  let contents ← read limit bytes
  let artifacts := contents.artifacts.hashes
  let tree ← artifacts.tree.mapError .merkle
  let bundleHash := Sha256.hex bytes
  let mismatches := match expected with
    | some e => mismatchesWith e bundleHash tree.root artifacts
    | none => mismatchesWithin contents.embedded tree.root artifacts
  return ⟨bundleHash, tree.root, artifacts, mismatches⟩

end Bundle

end Conduit
