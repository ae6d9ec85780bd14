import Conduit.Bundle.Contents
import Conduit.Proofs.BundleContents
import Conduit.Proofs.JsonMembers
import Conduit.Proofs.MerkleClimbs

/-! What a bundle is checked by: the digests computed of its contents are those that were computed of the
artifacts. -/
namespace Conduit

/-! Digests that are read back. -/

theorem Json.Shape.conformRecord {name : String} {known : List Field} {fields : Fields}
    (each : ∀ f ∈ fields, conformField known f.1 f.2 = .ok (some f.2))
    (all : ∀ f ∈ known, f.1 ∈ Table.names fields) : conform (.record name known) (.obj fields) = .ok (.obj fields) := by
  have complete : missing known fields = none := by
    rw [missing, Option.map_eq_none_iff, List.find?_eq_none]
    intro f member
    obtain ⟨v, found⟩ := (Table.getSome fields f.1).mpr (all f member)
    simp [Table.has, found]
  rw [conform]
  refine Outcome.bindOk.mpr ⟨fields, Outcome.filterMapMSame.mpr fun f member => ?_, by rw [withRequired, complete]⟩
  rw [each f member]
  rfl

theorem Json.Shape.naturalRead (n : Nat) : readNatural .u64 (.nat n) = .ok (.nat n) := by
  have size : (UInt64.ofNat n).toNat < Width.u64.bound := UInt64.toNat_lt _
  rw [Json.nat, Number.ofNat, readNatural, if_pos size]

theorem ContentHash.toJsonSorted (h : ContentHash) :
    h.toJson = .obj [("algorithm", .str h.algorithm), ("hash", .str h.hash), ("size", .nat h.size)] := by
  simp only [toJson, Json.ofPairs, Table.ofList, Table.insert, List.foldl_cons, List.foldl_nil, String.reduceLT,
    String.reduceEq, if_false]

theorem ContentHash.conformToJson (h : ContentHash) :
    reader.shape.conform h.toJson = .ok h.toJson := by
  rw [toJsonSorted]
  refine Json.Shape.conformRecord (fun f member => ?_) (by simp [Json.required, Table.names])
  simp only [List.mem_cons, List.not_mem_nil, or_false] at member
  rcases member with rfl | rfl | rfl
  · rfl
  · rfl
  · simp only [Json.required, Json.Shape.conformField, Json.Shape.conform, Json.Shape.naturalRead]
    rfl

theorem ContentHash.viewToJson {h : ContentHash} (small : h.size < 2 ^ 64) : reader.view h.toJson = h := by
  have size : h.toJson.natAt "size" 0 = h.size := by
    rw [toJsonSorted, Json.natAt]
    change ((Json.nat h.size).asNat?).getD 0 = h.size
    rw [Json.natKept small]
    rfl
  have hash : h.toJson.textAt "hash" "" = h.hash := by
    rw [toJsonSorted]
    rfl
  have algorithm : h.toJson.textAt "algorithm" "" = h.algorithm := by
    rw [toJsonSorted]
    rfl
  simp only [reader, size, hash, algorithm]

theorem ArtifactHashes.toJsonSorted (h : ArtifactHashes) :
    h.toJson = .obj [("credentialsMap", h.credentialsMap.toJson), ("flowsJson", h.flows.toJson),
      ("manifest", h.manifest.toJson), ("settings", h.settings.toJson)] := by
  simp only [toJson, names, toList, Json.ofPairs, Table.ofList, Table.insert, List.map_cons, List.map_nil,
    List.zip_cons_cons, List.zip_nil_right, List.foldl_cons, List.foldl_nil, String.reduceLT, String.reduceEq, if_true,
    if_false]

theorem ArtifactHashes.conformToJson (h : ArtifactHashes) : reader.shape.conform h.toJson = .ok h.toJson := by
  rw [toJsonSorted]
  refine Json.Shape.conformRecord (fun f member => ?_) (by simp [Json.required, names, Table.names])
  simp only [List.mem_cons, List.not_mem_nil, or_false] at member
  have known {name : String} (c : ContentHash) (here : name ∈ names) :
      Json.Shape.conformField (names.map fun name => Json.required name ContentHash.reader.shape) name c.toJson
        = .ok (some c.toJson) := by
    simp only [names, List.mem_cons, List.not_mem_nil, or_false] at here
    rcases here with rfl | rfl | rfl | rfl
    all_goals
      simp [names, Json.required, Json.Shape.conformField, ContentHash.conformToJson c]
  rcases member with rfl | rfl | rfl | rfl
  · exact known h.credentialsMap (by simp [names])
  · exact known h.flows (by simp [names])
  · exact known h.manifest (by simp [names])
  · exact known h.settings (by simp [names])

theorem ArtifactHashes.readToJson {h : ArtifactHashes} (small : ∀ c ∈ h.toList, c.size < 2 ^ 64) :
    reader.read h.toJson = .ok h := by
  have flows := small h.flows (by simp [toList])
  have settings := small h.settings (by simp [toList])
  have manifest := small h.manifest (by simp [toList])
  have credentials := small h.credentialsMap (by simp [toList])
  refine Outcome.bindOk.mpr ⟨_, conformToJson h, ?_⟩
  have view : reader.view h.toJson = h := by
    rw [toJsonSorted]
    change (⟨ContentHash.reader.view h.flows.toJson, ContentHash.reader.view h.settings.toJson,
      ContentHash.reader.view h.manifest.toJson, ContentHash.reader.view h.credentialsMap.toJson⟩ : ArtifactHashes) = h
    rw [ContentHash.viewToJson flows, ContentHash.viewToJson settings, ContentHash.viewToJson manifest,
      ContentHash.viewToJson credentials]
  rw [view]
  rfl

theorem ArtifactHashes.readLeaves (h : ArtifactHashes) :
    ∃ carried, reader.read h.toJson = .ok carried ∧ carried.leaves = h.leaves := by
  refine ⟨_, Outcome.bindOk.mpr ⟨_, conformToJson h, rfl⟩, ?_⟩
  have hash (c : ContentHash) : (ContentHash.reader.view c.toJson).hash = c.hash := by
    rw [ContentHash.toJsonSorted]
    rfl
  rw [toJsonSorted]
  change [(ContentHash.reader.view h.flows.toJson).hash, (ContentHash.reader.view h.settings.toJson).hash,
    (ContentHash.reader.view h.manifest.toJson).hash, (ContentHash.reader.view h.credentialsMap.toJson).hash] = h.leaves
  rw [hash, hash, hash, hash]
  rfl

namespace Bundle

/-! Sizes. A digest counts the bytes of the compact text, of which there are no more than of the file. -/

theorem contentSize (v : Json) : (ContentHash.ofContent v).size = Text.byteCount v.compactChars := by
  rw [ContentHash.ofContent, ContentHash.ofBytes, canonical, Json.compact, Text.byteCountUtf8]

theorem contentWithin (v : Json) : (ContentHash.ofContent v).size ≤ (Text.utf8 v.pretty).length := by
  rw [contentSize, Json.pretty, Text.byteCountUtf8]
  exact Text.byteCountSublist (Json.compactWithin v)

theorem manifestContentWithin (v : Json) :
    (ContentHash.ofContent (manifestContent v)).size ≤ (ContentHash.ofContent v).size := by
  rw [contentSize, contentSize]
  cases v with
  | obj fields =>
    simp only [manifestContent, Json.compactChars]
    exact Text.byteCountSublist (.cons_cons _ ((Json.compactFewer List.filter_sublist).append (.refl _)))
  | _ => exact Nat.le_refl _

variable {o : BundleOptions} {a : Artifacts} {hashes : ArtifactHashes} {root : String}

theorem textWithin {name text : String} (known : name ∈ fileNames)
    (found : (files o a hashes root).get? name = some text) :
    (Text.utf8 text).length ≤ (archive (files o a hashes root)).length := by
  have entry : (⟨Text.utf8 name, Text.utf8 text⟩ : Tar.Entry) ∈ entriesOf (files o a hashes root) :=
    List.mem_map.mpr ⟨(name, text), Table.memOfGet found, rfl⟩
  exact Nat.le_trans (Nat.le_add_right _ _) (Tar.entryWithin entry (fileNamesPlain name known))

theorem hashesWithin : ∀ c ∈ a.hashes.toList, c.size ≤ (archive (files o a hashes root)).length := by
  have artifact {name text : String} (known : name ∈ fileNames) (other : name ≠ metadataFile)
      (found : (artifactFiles a).get? name = some text) :
      (Text.utf8 text).length ≤ (archive (files o a hashes root)).length :=
    textWithin known (by rw [artifactText other, found])
  have flows : (Text.utf8 a.flows.pretty).length ≤ (archive (files o a hashes root)).length :=
    @artifact Artifacts.flowsFile _ (by decide) (by decide) (by rw [artifactFilesSorted]; rfl)
  have settings : (Text.utf8 (Settings.render a.settings)).length ≤ (archive (files o a hashes root)).length :=
    @artifact Artifacts.settingsFile _ (by decide) (by decide) (by rw [artifactFilesSorted]; rfl)
  have manifest : (Text.utf8 a.manifest.pretty).length ≤ (archive (files o a hashes root)).length :=
    @artifact Artifacts.manifestFile _ (by decide) (by decide) (by rw [artifactFilesSorted]; rfl)
  have credentials : (Text.utf8 a.credentialsMap.pretty).length ≤ (archive (files o a hashes root)).length :=
    @artifact Artifacts.credentialsFile _ (by decide) (by decide) (by rw [artifactFilesSorted]; rfl)
  have rendered : (Text.utf8 a.settings.pretty).length ≤ (Text.utf8 (Settings.render a.settings)).length := by
    rw [Settings.render, Text.utf8Append, Text.utf8Append, List.length_append, List.length_append]
    omega
  intro c member
  simp only [ArtifactHashes.toList, Artifacts.hashes, List.mem_cons, List.not_mem_nil, or_false] at member
  rcases member with rfl | rfl | rfl | rfl
  · exact Nat.le_trans (contentWithin _) flows
  · exact Nat.le_trans (contentWithin _) (Nat.le_trans rendered settings)
  · exact Nat.le_trans (manifestContentWithin _) (Nat.le_trans (contentWithin _) manifest)
  · exact Nat.le_trans (contentWithin _) credentials

/-! Checking. -/

theorem ofArtifactsMade {b : Bundle} (made : ofArtifacts a o = .ok b) :
    ∃ tree, a.hashes.tree = .ok tree ∧ b.bytes = packed o.compression (archive (files o a a.hashes tree.root)) ∧
      b.hashes = ⟨a.hashes, Sha256.hex b.bytes, tree.root, (List.range tree.leaves.length).filterMap tree.proof?⟩ := by
  obtain ⟨tree, grown, same⟩ := Outcome.bindOk.mp made
  cases same
  exact ⟨tree, grown, rfl, rfl⟩

theorem madeRead {b : Bundle} (made : ofArtifacts a o = .ok b) {limit : UInt64} {unpacked : Bytes}
    (bytes : packed o.compression unpacked = b.bytes) (within : unpacked.length ≤ limit.toNat) :
    ∃ tree, a.hashes.tree = .ok tree ∧ b.hashes.artifacts = a.hashes ∧ b.hashes.merkleRoot = tree.root
      ∧ (archive (files o a a.hashes tree.root)).length ≤ limit.toNat
      ∧ read limit.toNat b.bytes = contentsOf (entriesOf (files o a a.hashes tree.root)) := by
  obtain ⟨tree, grown, same, hashes⟩ := ofArtifactsMade made
  rw [same] at bytes
  rw [packedInjective bytes] at within
  have entries := readFiles within limit.toNat_lt
  rw [← same] at entries
  exact ⟨tree, grown, by rw [hashes], by rw [hashes], within, entries⟩

theorem mismatchesNone {hashes : BundleHashes}
    (proofs : ∀ p ∈ hashes.proofs, Merkle.verify p.leaf p hashes.merkleRoot = true) :
    mismatchesWith hashes hashes.bundleHash hashes.merkleRoot hashes.artifacts = [] := by
  have all : (hashes.proofs.filterMap fun p =>
      if Merkle.verify p.leaf p hashes.merkleRoot then none else some (Mismatch.proof p.leafIndex)) = [] :=
    List.filterMap_eq_nil_iff.mpr fun p member => if_pos (proofs p member)
  simp [mismatchesWith, all, ArtifactHashes.names, ArtifactHashes.leaves, ArtifactHashes.toList]

theorem verifiedWith {b : Bundle} {limit : Nat} {described : Option Json} (made : ofArtifacts a o = .ok b)
    (read : Bundle.read limit b.bytes = .ok ⟨a, described⟩) :
    ∃ report, verify limit (some b.hashes) b.bytes = .ok report ∧ report.mismatches = [] := by
  obtain ⟨tree, grown, -, hashes⟩ := ofArtifactsMade made
  have accepted : ∀ p ∈ b.hashes.proofs, Merkle.verify p.leaf p b.hashes.merkleRoot = true := by
    rw [hashes]
    intro p member
    obtain ⟨index, -, given⟩ := List.mem_filterMap.mp member
    exact Merkle.proofAccepted grown given
  have none := mismatchesNone accepted
  rw [hashes] at none
  refine ⟨⟨Sha256.hex b.bytes, tree.root, a.hashes, mismatchesWith b.hashes (Sha256.hex b.bytes) tree.root a.hashes⟩, ?_, ?_⟩
  · simp only [verify, read, grown, Outcome.mapErrorPassed, bind, Except.bind, pure, Except.pure]
  · rw [hashes]
    exact none

theorem embeddedRoot : (embedded o a hashes root).field? "merkleRoot" = some (.str root) := by
  simp [embedded, Json.field?, Json.ofPairs, Table.getOfList]

theorem embeddedArtifacts : (embedded o a hashes root).field? "artifacts" = some hashes.toJson := by
  simp [embedded, Json.field?, Json.ofPairs, Table.getOfList]

theorem verifiedWithin {b : Bundle} {limit : Nat} {tree : Merkle.Tree} (grown : a.hashes.tree = .ok tree)
    (small : ∀ c ∈ a.hashes.toList, c.size < 2 ^ 64)
    (read : Bundle.read limit b.bytes = .ok ⟨a, some (embedded o a a.hashes tree.root)⟩) :
    ∃ report, verify limit none b.bytes = .ok report ∧ report.mismatches = [] := by
  have root : (embedded o a a.hashes tree.root).textAt? "merkleRoot" = some tree.root := by
    rw [Json.textAt?, Json.member?, embeddedRoot]
    rfl
  have carried : (embedded o a a.hashes tree.root).valueAt "artifacts" = a.hashes.toJson := by
    rw [Json.valueAt, embeddedArtifacts]
    rfl
  have none : mismatchesWithin (some (embedded o a a.hashes tree.root)) tree.root a.hashes = [] := by
    simp only [mismatchesWithin, root, carried, ArtifactHashes.readToJson small, if_true, List.append_nil]
  refine ⟨⟨Sha256.hex b.bytes, tree.root, a.hashes,
    mismatchesWithin (some (embedded o a a.hashes tree.root)) tree.root a.hashes⟩, ?_, none⟩
  simp only [verify, read, grown, Outcome.mapErrorPassed, bind, Except.bind, pure, Except.pure]

end Bundle

end Conduit
