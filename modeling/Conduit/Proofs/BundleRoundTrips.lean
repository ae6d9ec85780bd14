import Conduit.Proofs.BundleChecks
import Conduit.Proofs.BundleSizes

/-! Bundles are read back. This holds of any artifacts that a reader gets through, and of any options: they need not
come from a compilation. -/
namespace Conduit

structure Artifacts.Readable (a : Artifacts) : Prop where
  flows : a.flows.Readable
  settings : a.settings.Readable
  manifest : a.manifest.Readable
  credentialsMap : a.credentialsMap.Readable

namespace Bundle

def description (b : Bundle) (a : Artifacts) (o : BundleOptions) : Option Json :=
  if o.includeMetadata then some (embedded o a b.hashes.artifacts b.hashes.merkleRoot) else none

structure RoundTrip (b : Bundle) (a : Artifacts) (o : BundleOptions) (limit : Nat) : Prop where
  contents : read limit b.bytes = .ok ⟨a, b.description a o⟩
  included : (b.description a o).isSome ↔ o.includeMetadata
  digests : ∃ report, verify limit (some b.hashes) b.bytes = .ok report ∧ report.valid
  itself : ∃ report, verify limit none b.bytes = .ok report ∧ (report.valid ↔ o.includeMetadata)

variable {a : Artifacts} {o : BundleOptions} {b : Bundle}

theorem descriptionIncluded : (b.description a o).isSome ↔ o.includeMetadata := by
  unfold description
  split <;> simp_all

theorem verifiedNothing {limit : Nat} {tree : Merkle.Tree} {bytes : Bytes} (grown : a.hashes.tree = .ok tree)
    (contents : read limit bytes = .ok ⟨a, none⟩) :
    ∃ report, verify limit none bytes = .ok report ∧ report.mismatches = [.nothingExpected] := by
  refine ⟨⟨Sha256.hex bytes, tree.root, a.hashes, [.nothingExpected]⟩, ?_, rfl⟩
  simp only [verify, contents, grown, Outcome.mapErrorPassed, bind, Except.bind, pure, Except.pure, mismatchesWithin]

theorem roundTrip (made : ofArtifacts a o = .ok b) (readable : a.Readable) {limit : UInt64} {unpacked : Bytes}
    (bytes : packed o.compression unpacked = b.bytes) (within : unpacked.length ≤ limit.toNat) :
    b.RoundTrip a o limit.toNat := by
  obtain ⟨tree, grown, hashes, root, small, entries⟩ := madeRead made bytes within
  have contents : read limit.toNat b.bytes = .ok ⟨a, b.description a o⟩ := by
    rw [entries, contentsRead readable.flows readable.settings readable.manifest readable.credentialsMap
      (embeddedReadable ..), description, hashes, root]
  obtain ⟨matching, checked, same⟩ := verifiedWith made contents
  refine ⟨contents, descriptionIncluded, ⟨matching, checked, by rw [VerifyReport.valid, same]; rfl⟩, ?_⟩
  rw [description, hashes, root] at contents
  cases included : o.includeMetadata with
  | false =>
    rw [included, if_neg (by decide)] at contents
    obtain ⟨report, checked, nothing⟩ := verifiedNothing grown contents
    exact ⟨report, checked, by rw [VerifyReport.valid, nothing]; decide⟩
  | true =>
    rw [included, if_pos rfl] at contents
    have sizes : ∀ h ∈ a.hashes.toList, h.size < 2 ^ 64 := fun h member =>
      Nat.lt_of_le_of_lt (Nat.le_trans (hashesWithin h member) small) limit.toNat_lt
    obtain ⟨report, checked, same⟩ := verifiedWithin grown sizes contents
    exact ⟨report, checked, by rw [VerifyReport.valid, same]; decide⟩

def oneNode : Artifacts where
  flows := .arr [.ofPairs [("id", .str "x"), ("x", .nat 100)]]
  settings := .ofPairs [("flowFile", .str Artifacts.flowsFile)]
  manifest := .ofPairs [("channelId", .str "c")]
  credentialsMap := .obj []

def described : BundleOptions := ⟨"b", ⟨0, 0⟩, .gzip, true⟩

theorem oneNodeReadable : oneNode.Readable := by
  have shallow {n : Nat} {v : Json} (within : v.Within n) (few : n ≤ 127) : v.Readable := Json.withinMore within few
  refine ⟨shallow (Json.withinArr (List.forall_mem_singleton.mpr (@Json.withinPairs 0 _ ?_))) (by decide),
    shallow (@Json.withinPairs 0 _ (List.forall_mem_singleton.mpr (Json.withinStr 0 _))) (by decide),
    shallow (@Json.withinPairs 0 _ (List.forall_mem_singleton.mpr (Json.withinStr 0 _))) (by decide),
    shallow (@Json.withinPairs 0 [] (List.forall_mem_nil _)) (by decide)⟩
  exact List.forall_mem_cons.mpr ⟨Json.withinStr 0 _, List.forall_mem_singleton.mpr (Json.withinNat 0 _)⟩

end Bundle

end Conduit
