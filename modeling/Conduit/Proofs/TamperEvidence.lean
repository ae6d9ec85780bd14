import Conduit.Proofs.BundleRoundTrips
import Conduit.Proofs.RepeatedBuilds

/-! What passes for a bundle without being its own. Whatever bytes carry the digests of a bundle, and are accepted
on their own word, have its artifacts, or two texts can be named that share a digest. Nothing is assumed of the
hash function. -/
namespace Conduit

theorem ContentHash.hashInjective {v w : Json} (ordered : v.Ordered) (other : w.Ordered)
    (same : (ofContent v).hash = (ofContent w).hash) :
    v = w ∨ Sha256.Collision (Text.utf8 (canonical v)) (Text.utf8 (canonical w)) := by
  by_cases texts : canonical v = canonical w
  · exact .inl (Json.compactInjective ordered other texts)
  · exact .inr ⟨fun bytes => texts (Text.utf8_injective bytes), Text.Hex.encodeInjective same⟩

theorem ContentHash.hashesInjective {vs ws : List Json} (ordered : ∀ v ∈ vs, v.Ordered) (other : ∀ w ∈ ws, w.Ordered)
    (same : vs.map (fun v => (ofContent v).hash) = ws.map fun w => (ofContent w).hash) :
    vs = ws ∨ ∃ p ∈ vs.zip ws, Sha256.Collision (Text.utf8 (canonical p.1)) (Text.utf8 (canonical p.2)) := by
  induction vs generalizing ws with
  | nil =>
    left
    rw [List.map_nil, eq_comm, List.map_eq_nil_iff] at same
    rw [same]
  | cons v vs ih =>
    cases ws with
    | nil => cases same
    | cons w ws =>
      obtain ⟨here, later⟩ := List.cons_eq_cons.mp same
      obtain ⟨first, others⟩ := List.forall_mem_cons.mp ordered
      obtain ⟨second, rest⟩ := List.forall_mem_cons.mp other
      rcases hashInjective first second here with rfl | collision
      · rcases ih others rest later with rfl | ⟨p, member, collision⟩
        · exact .inl rfl
        · exact .inr ⟨p, List.mem_cons_of_mem _ member, collision⟩
      · exact .inr ⟨(v, w), List.mem_cons_self, collision⟩

namespace Artifacts

def hashed (a : Artifacts) : List Json := [a.flows, a.settings, manifestContent a.manifest, a.credentialsMap]

structure Ordered (a : Artifacts) : Prop where
  flows : a.flows.Ordered
  settings : a.settings.Ordered
  manifest : a.manifest.Ordered
  credentialsMap : a.credentialsMap.Ordered

def CollidesWith (a b : Artifacts) : Prop :=
  ∃ p ∈ a.hashed.zip b.hashed, Sha256.Collision (Text.utf8 (canonical p.1)) (Text.utf8 (canonical p.2))

theorem leavesHashed (a : Artifacts) : a.hashes.leaves = a.hashed.map fun v => (ContentHash.ofContent v).hash := rfl

theorem sameOfContent {v w : Json} (same : manifestContent v = manifestContent w) : v.SameBut "buildId" w := by
  cases v with
  | obj fs =>
    cases w with
    | obj gs =>
      refine .inr ⟨fs, gs, rfl, rfl, fun name other => ?_⟩
      have erased := congrArg (Table.get? · name) (Json.obj.inj same)
      simpa only [Table.getErase, if_neg other] using erased
    | _ => cases same
  | _ =>
    cases w with
    | obj gs => cases same
    | _ => exact .inl same

theorem alikeOfHashed {a b : Artifacts} (same : a.hashed = b.hashed) : a.Alike b := by
  simp only [hashed, List.cons.injEq, and_true] at same
  obtain ⟨flows, settings, manifest, credentials⟩ := same
  exact ⟨flows, settings, sameOfContent manifest, credentials⟩

theorem hashedOrdered {a : Artifacts} (ordered : a.Ordered) : ∀ v ∈ a.hashed, v.Ordered := by
  have content : (manifestContent a.manifest).Ordered := by
    have manifest := ordered.manifest
    cases whole : a.manifest with
    | obj fields =>
      rw [whole, Json.orderedObj] at manifest
      exact Json.orderedObj.mpr ⟨Table.eraseOrdered manifest.1 _,
        fun p member => manifest.2 p (List.mem_of_mem_filter member)⟩
    | _ => rw [whole] at manifest; exact manifest
  simp only [hashed, List.forall_mem_cons]
  exact ⟨ordered.flows, ordered.settings, content, ordered.credentialsMap, List.forall_mem_nil _⟩

theorem alikeOrCollides {a b : Artifacts} (ordered : a.Ordered) (other : b.Ordered)
    (same : a.hashes.leaves = b.hashes.leaves) : a.Alike b ∨ a.CollidesWith b := by
  rw [leavesHashed, leavesHashed] at same
  rcases ContentHash.hashesInjective (hashedOrdered ordered) (hashedOrdered other) same with same | collision
  · exact .inl (alikeOfHashed same)
  · exact .inr collision

end Artifacts

namespace Bundle

/-! What a reader finds has its fields in order. -/

theorem jsonOrdered {entries : List Tar.Entry} {name : String} {v : Json} (found : readJson entries name = .ok v) :
    v.Ordered := by
  unfold readJson at found
  split at found
  · cases found
  next bytes _ =>
    have parsed := Outcome.mapErrorOk.mp found
    unfold Json.parseBytes at parsed
    split at parsed
    · exact (Json.parseFits parsed).1
    · cases parsed

theorem settingsOrdered {entries : List Tar.Entry} {v : Json} (found : readSettings entries = .ok v) : v.Ordered := by
  unfold readSettings at found
  split at found
  · cases found
  next bytes _ =>
    have parsed := Outcome.mapErrorOk.mp found
    unfold Settings.parse Settings.parseText at parsed
    split at parsed
    · split at parsed
      · cases parsed
      · exact (Json.parseFits (Outcome.mapErrorOk.mp parsed)).1
    · cases parsed

theorem readOrdered {limit : Nat} {bytes : Bytes} {contents : BundleContents}
    (found : read limit bytes = .ok contents) : contents.artifacts.Ordered := by
  obtain ⟨archive, -, found⟩ := Outcome.bindOk.mp found
  obtain ⟨entries, -, found⟩ := Outcome.bindOk.mp found
  obtain ⟨settings, readSettings, found⟩ := Outcome.bindOk.mp found
  obtain ⟨flows, readFlows, found⟩ := Outcome.bindOk.mp found
  obtain ⟨manifest, readManifest, found⟩ := Outcome.bindOk.mp found
  obtain ⟨credentials, readCredentials, found⟩ := Outcome.bindOk.mp found
  have same : contents.artifacts = ⟨flows, settings, manifest, credentials⟩ := by
    split at found
    all_goals
      obtain ⟨embedded, -, found⟩ := Outcome.bindOk.mp found
      cases found
      rfl
  rw [same]
  exact ⟨jsonOrdered readFlows, settingsOrdered readSettings, jsonOrdered readManifest, jsonOrdered readCredentials⟩

/-! Checking. -/

theorem verifiedRead {limit : Nat} {bytes : Bytes} {report : VerifyReport}
    (verified : verify limit none bytes = .ok report) :
    ∃ contents tree, read limit bytes = .ok contents ∧ contents.artifacts.hashes.tree = .ok tree
      ∧ report.mismatches = mismatchesWithin contents.embedded tree.root contents.artifacts.hashes := by
  obtain ⟨contents, found, verified⟩ := Outcome.bindOk.mp verified
  obtain ⟨tree, grown, verified⟩ := Outcome.bindOk.mp verified
  cases verified
  exact ⟨contents, tree, found, Outcome.mapErrorOk.mp grown, rfl⟩

theorem carriedLeaves {metadata : Json} {hashes found : ArtifactHashes} {root : String}
    (carried : metadata.field? "artifacts" = some hashes.toJson)
    (none : mismatchesWithin (some metadata) root found = []) : hashes.leaves = found.leaves := by
  obtain ⟨digests, given, leaves⟩ := hashes.readLeaves
  have value : metadata.valueAt "artifacts" = hashes.toJson := by rw [Json.valueAt, carried]; rfl
  have accepted := (List.append_eq_nil_iff.mp none).2
  rw [value, given] at accepted
  by_cases same : digests = found
  · rw [← leaves, same]
  · simp only [if_neg same, List.cons_ne_nil] at accepted

variable {a : Artifacts} {o : BundleOptions} {b : Bundle}

theorem tamperEvident (ordered : a.Ordered) (made : ofArtifacts a o = .ok b) {original : Json}
    (described : b.description a o = some original) {limit : Nat} {bytes : Bytes} {metadata : Json}
    (embedded : (read limit bytes).map (·.embedded) = .ok (some metadata))
    (carried : ∀ name ∈ ["merkleRoot", "artifacts"], metadata.field? name = original.field? name)
    {report : VerifyReport} (verified : verify limit none bytes = .ok report) (valid : report.valid) :
    ∃ contents, read limit bytes = .ok contents ∧ (a.Alike contents.artifacts ∨ a.CollidesWith contents.artifacts) := by
  obtain ⟨contents, tree, found, -, mismatches⟩ := verifiedRead verified
  obtain ⟨grown, -, -, hashes⟩ := ofArtifactsMade made
  rw [found] at embedded
  have itself : contents.embedded = some metadata := Except.ok.inj embedded
  have accepted : mismatchesWithin (some metadata) tree.root contents.artifacts.hashes = [] := by
    rw [← itself, ← mismatches]
    exact List.isEmpty_iff.mp valid
  have digests : metadata.field? "artifacts" = some a.hashes.toJson := by
    obtain ⟨-, rfl⟩ : o.includeMetadata = true ∧ Bundle.embedded o a b.hashes.artifacts b.hashes.merkleRoot = original := by
      simpa [description] using described
    rw [carried "artifacts" (by simp), embeddedArtifacts, hashes]
  exact ⟨contents, found, Artifacts.alikeOrCollides ordered (readOrdered found) (carriedLeaves digests accepted)⟩

def rebuilt : Artifacts :=
  { oneNode with manifest := .ofPairs [("buildId", .str "y"), ("channelId", .str "c")] }

def repacked : BundleOptions := ⟨"y", ⟨1, 0⟩, .none, true⟩

theorem rebuiltAlike : oneNode.Alike rebuilt := by
  refine ⟨rfl, rfl, ?_, rfl⟩
  rw [oneNode, rebuilt]
  exact Json.ofPairsSame (by simp)

theorem rebuiltReadable : rebuilt.Readable := by
  refine ⟨oneNodeReadable.flows, oneNodeReadable.settings, Json.withinMore (@Json.withinPairs 0 _ ?_) (by decide),
    oneNodeReadable.credentialsMap⟩
  exact List.forall_mem_cons.mpr ⟨Json.withinStr 0 _, List.forall_mem_singleton.mpr (Json.withinStr 0 _)⟩

theorem rebuiltTamperEvident : oneNode.Ordered ∧ ∃ b original bytes metadata report,
    ofArtifacts oneNode described = .ok b ∧ b.description oneNode described = some original
      ∧ (read 65536 bytes).map (·.embedded) = .ok (some metadata)
      ∧ (∀ name ∈ ["merkleRoot", "artifacts"], metadata.field? name = original.field? name)
      ∧ verify 65536 none bytes = .ok report ∧ report.valid
      ∧ ∃ contents, read 65536 bytes = .ok contents
        ∧ (oneNode.Alike contents.artifacts ∨ oneNode.CollidesWith contents.artifacts) := by
  have ordered : oneNode.Ordered := ⟨oneNodeReadable.flows.1, oneNodeReadable.settings.1, oneNodeReadable.manifest.1,
    oneNodeReadable.credentialsMap.1⟩
  obtain ⟨b, made⟩ := ofArtifactsSome oneNode described
  obtain ⟨b', made'⟩ := ofArtifactsSome rebuilt repacked
  obtain ⟨tree, grown, bytes, -⟩ := ofArtifactsMade made'
  have room : archiveRoom repacked rebuilt ≤ 65536 := by decide +kernel
  have within := Nat.le_trans (archiveWithin repacked rebuilt grown) room
  have trip := @roundTrip rebuilt repacked b' made' rebuiltReadable 65536 _ bytes.symm within
  obtain ⟨report, verified, valid⟩ := trip.itself
  obtain ⟨artifacts, root, -⟩ := ofArtifactsAlike rebuiltAlike oneNodeReadable.manifest.1 rebuiltReadable.manifest.1 made made'
  have carried : ∀ name ∈ ["merkleRoot", "artifacts"],
      (Bundle.embedded repacked rebuilt b'.hashes.artifacts b'.hashes.merkleRoot).field? name
        = (Bundle.embedded described oneNode b.hashes.artifacts b.hashes.merkleRoot).field? name := by
    intro name member
    simp only [List.mem_cons, List.not_mem_nil, or_false] at member
    rcases member with rfl | rfl
    · rw [embeddedRoot, embeddedRoot, root]
    · rw [embeddedArtifacts, embeddedArtifacts, artifacts]
  have embedded : (read 65536 b'.bytes).map (·.embedded)
      = .ok (some (Bundle.embedded repacked rebuilt b'.hashes.artifacts b'.hashes.merkleRoot)) := by
    have contents : read 65536 b'.bytes = .ok ⟨rebuilt, b'.description rebuilt repacked⟩ := trip.contents
    rw [contents]
    rfl
  exact ⟨ordered, b, _, b'.bytes, _, report, made, rfl, embedded, carried, verified, valid.mpr rfl,
    tamperEvident ordered made rfl embedded carried verified (valid.mpr rfl)⟩

end Bundle

end Conduit
