import Conduit.Json.Shape
import Conduit.Artifacts
import Conduit.Digest.Content
import Conduit.Digest.Merkle
import Conduit.Archive.Gzip
import Conduit.Archive.Tar

/-! How the archive of a bundle is packed. -/
namespace Conduit

inductive Compression where
  | gzip | none
  deriving DecidableEq, Repr

namespace Compression

def name : Compression → String
  | .gzip => "gzip"
  | .none => "none"

def ofName (s : String) : Compression := if s = "none" then .none else .gzip

def reader : Json.Reader Compression where
  shape := .choice ["gzip", "none"]
  view v := ofName (v.asString?.getD "")

end Compression

/-! The digests of artifacts, and what is said about a bundle of them. -/

structure ArtifactHashes where
  flows : ContentHash
  settings : ContentHash
  manifest : ContentHash
  credentialsMap : ContentHash
  deriving DecidableEq, Repr

namespace ArtifactHashes

def names : List String := ["flowsJson", "settings", "manifest", "credentialsMap"]

def toList (h : ArtifactHashes) : List ContentHash := [h.flows, h.settings, h.manifest, h.credentialsMap]

def leaves (h : ArtifactHashes) : List String := h.toList.map (·.hash)

def reader : Json.Reader ArtifactHashes where
  shape := .record "ArtifactHashes" (names.map fun name => Json.required name ContentHash.reader.shape)
  view v :=
    let hash (name : String) := ContentHash.reader.view (v.valueAt name)
    ⟨hash "flowsJson", hash "settings", hash "manifest", hash "credentialsMap"⟩

def toJson (h : ArtifactHashes) : Json := .ofPairs (names.zip (h.toList.map ContentHash.toJson))

end ArtifactHashes

def manifestContent : Json → Json
  | .obj fields => .obj (Table.erase fields "buildId")
  | v => v

def Artifacts.hashes (a : Artifacts) : ArtifactHashes :=
  ⟨.ofContent a.flows, .ofContent a.settings, .ofContent (manifestContent a.manifest),
    .ofContent a.credentialsMap⟩

def ArtifactHashes.tree (h : ArtifactHashes) : Except Merkle.Error Merkle.Tree := Merkle.ofLeaves h.leaves

structure BundleHashes where
  artifacts : ArtifactHashes
  bundleHash : String
  merkleRoot : String
  proofs : List Merkle.Proof
  deriving DecidableEq, Repr

namespace BundleHashes

def reader : Json.Reader BundleHashes where
  shape := .record "BundleHashes"
    [Json.required "artifacts" ArtifactHashes.reader.shape, Json.required "bundleHash" .string,
     Json.required "merkleRoot" .string, Json.optional "proofs" (.list Merkle.Proof.reader.shape)]
  view v :=
    ⟨ArtifactHashes.reader.view (v.valueAt "artifacts"), v.textAt "bundleHash" "",
      v.textAt "merkleRoot" "", (v.itemsAt "proofs").map Merkle.Proof.reader.view⟩

def toJson (h : BundleHashes) : Json :=
  .ofSome
    [("artifacts", some h.artifacts.toJson), ("bundleHash", some (.str h.bundleHash)),
     ("merkleRoot", some (.str h.merkleRoot)),
     ("proofs", if h.proofs.isEmpty then none else some (.arr (h.proofs.map Merkle.Proof.toJson)))]

end BundleHashes

structure BundleFile where
  name : String
  size : Nat
  deriving DecidableEq, Repr

def BundleFile.toJson (f : BundleFile) : Json := .ofPairs [("name", .str f.name), ("size", .nat f.size)]

structure BundleMetadata where
  buildId : String
  channelId : String
  compression : Compression
  files : List BundleFile
  size : Nat
  createdAt : Instant
  deriving Repr

def BundleMetadata.toJson (m : BundleMetadata) : Json :=
  .ofPairs
    [("buildId", .str m.buildId), ("channelId", .str m.channelId), ("engineVersion", .str engineVersion),
     ("compression", .str m.compression.name), ("files", .arr (m.files.map BundleFile.toJson)),
     ("size", .nat m.size), ("createdAt", .str m.createdAt.text)]

/-! Bundles: the artifacts as files of one archive, with the digests by which it can be checked. The same
artifacts give the same archive, byte by byte. -/

structure BundleOptions where
  buildId : String
  createdAt : Instant
  compression : Compression
  includeMetadata : Bool
  deriving Repr

structure Bundle where
  bytes : Bytes
  hashes : BundleHashes
  metadata : BundleMetadata
  deriving Repr

namespace Bundle

def metadataFile : String := "bundle.metadata.json"

def formatVersion : String := "1"

def artifactFiles (a : Artifacts) : Table String :=
  Table.ofList
    [(Artifacts.flowsFile, a.flows.pretty), (Artifacts.settingsFile, Settings.render a.settings),
     (Artifacts.manifestFile, a.manifest.pretty), (Artifacts.credentialsFile, a.credentialsMap.pretty)]

def listing (files : Table String) : List BundleFile := files.map fun f => ⟨f.1, f.2.utf8ByteSize⟩

/-- What the archive says about itself; the listing is that of the artifacts alone. -/
def embedded (o : BundleOptions) (a : Artifacts) (hashes : ArtifactHashes) (merkleRoot : String) : Json :=
  .ofPairs
    [("formatVersion", .str formatVersion), ("buildId", .str o.buildId), ("channelId", .str a.channelId),
     ("engineVersion", .str engineVersion), ("createdAt", .str o.createdAt.text),
     ("files", .arr ((listing (artifactFiles a)).map BundleFile.toJson)), ("artifacts", hashes.toJson),
     ("merkleRoot", .str merkleRoot)]

def files (o : BundleOptions) (a : Artifacts) (hashes : ArtifactHashes) (merkleRoot : String) :
    Table String :=
  if o.includeMetadata then
    Table.insert metadataFile (embedded o a hashes merkleRoot).pretty (artifactFiles a)
  else artifactFiles a

def archive (files : Table String) : Bytes :=
  Tar.write (files.map fun f => ⟨Text.utf8 f.1, Text.utf8 f.2⟩)

def packed (compression : Compression) (bytes : Bytes) : Bytes :=
  match compression with
  | .gzip => Gzip.pack bytes
  | .none => bytes

def ofArtifacts (a : Artifacts) (o : BundleOptions) : Except Merkle.Error Bundle := do
  let hashes := a.hashes
  let tree ← hashes.tree
  let files := files o a hashes tree.root
  let bytes := packed o.compression (archive files)
  return {
    bytes
    hashes :=
      { artifacts := hashes, bundleHash := Sha256.hex bytes, merkleRoot := tree.root
        proofs := (List.range tree.leaves.length).filterMap tree.proof? }
    metadata :=
      { buildId := o.buildId, channelId := a.channelId, compression := o.compression
        files := listing files, size := bytes.length, createdAt := o.createdAt } }

end Bundle

end Conduit
