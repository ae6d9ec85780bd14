import Conduit.Proofs.AlikeResolvers
import Conduit.Proofs.BundleChecks
import Conduit.Proofs.CompilationReports
import Conduit.Proofs.CompiledBundles
import Conduit.Proofs.StageOutcomes

/-! Building a channel again. What a build has of its own is its id, its time and the way its bundle is packed; none
of these is in the flow, the settings or the credentials, the id alone is in the manifest, and the digests are
computed without it. How long a build takes could only be seen by a nexon that goes stale between two of its lookups:
either as much time passes in both builds, or no lookup hangs on what an earlier one kept. -/
namespace Conduit

def Json.SameBut (name : String) (v w : Json) : Prop :=
  v = w ∨ ∃ fs gs : Fields, v = .obj fs ∧ w = .obj gs ∧ ∀ other, other ≠ name → Table.get? fs other = Table.get? gs other

theorem Json.ofPairsSame {name : String} {ps qs : List (String × Json)}
    (same : ps.filter (fun p => p.1 ≠ name) = qs.filter fun p => p.1 ≠ name) : (ofPairs ps).SameBut name (ofPairs qs) := by
  refine .inr ⟨_, _, rfl, rfl, fun other apart => ?_⟩
  have erased := congrArg (fun pairs => Table.get? (Table.ofList pairs) other) same
  simpa only [← Table.eraseOfList, Table.getErase, if_neg apart] using erased

namespace Channel

theorem outcomesSame [Regex] {found other : List (Except TemplateError Nexon)}
    (same : found.map (·.map Nexon.content) = other.map (·.map Nexon.content)) (context : RenderContext) (index : Nat)
    (stages : List Stage) :
    outcomes context index (stages.zip found) = outcomes context index (stages.zip other) := by
  induction stages generalizing found other index with
  | nil => rfl
  | cons s rest ih =>
    cases found with
    | nil => rw [List.map_nil, eq_comm, List.map_eq_nil_iff] at same; rw [same]
    | cons first found =>
      cases other with
      | nil => cases same
      | cons second other =>
        obtain ⟨here, later⟩ := List.cons_eq_cons.mp same
        rw [List.zip_cons_cons, List.zip_cons_cons, outcomes, outcomes, ih later, outcome, outcome,
          Stage.renderFoundSame here]

theorem manifestSame (c : Channel) (o : GenerationOptions) (id : String) (credentials : CredentialsMap)
    (os : List StageOutcome) (nodeCount : Nat) (placeholders : List String) :
    (c.manifest o credentials os nodeCount placeholders).SameBut "buildId"
      (c.manifest { o with buildId := id } credentials os nodeCount placeholders) := by
  rw [manifest, manifest]
  exact Json.ofPairsSame (by simp [usedTarget])

end Channel

structure Artifacts.Alike (a b : Artifacts) : Prop where
  flows : a.flows = b.flows
  settings : a.settings = b.settings
  manifest : a.manifest.SameBut "buildId" b.manifest
  credentialsMap : a.credentialsMap = b.credentialsMap

theorem Json.contentOfSame {v w : Json} (ordered : v.Ordered) (other : w.Ordered) (same : v.SameBut "buildId" w) :
    manifestContent v = manifestContent w := by
  rcases same with rfl | ⟨fs, gs, rfl, rfl, same⟩
  · rfl
  · have left := (Json.orderedObj.mp ordered).1
    have right := (Json.orderedObj.mp other).1
    refine congrArg Json.obj (Table.orderedSame (Table.eraseOrdered left _) (Table.eraseOrdered right _) fun name => ?_)
    rw [Table.getErase, Table.getErase]
    split
    · rfl
    next other => exact same name other

theorem Artifacts.Alike.hashes {a b : Artifacts} (alike : a.Alike b) (ordered : a.manifest.Ordered)
    (other : b.manifest.Ordered) : a.hashes = b.hashes := by
  rw [Artifacts.hashes, Artifacts.hashes, alike.flows, alike.settings, alike.credentialsMap,
    Json.contentOfSame ordered other alike.manifest]

theorem Channel.generatedAlike [Regex] (c : Channel) (o : GenerationOptions) (id : String)
    {found other : List (Except TemplateError Nexon)}
    (same : found.map (·.map Nexon.content) = other.map (·.map Nexon.content)) :
    (c.generateFrom o found).artifacts.Alike (c.generateFrom { o with buildId := id } other).artifacts := by
  have outcomes : outcomes (c.renderContext { o with buildId := id } (CredentialsMap.ofChannel c)) 0 (c.stages.zip other)
      = outcomes (c.renderContext o (CredentialsMap.ofChannel c)) 0 (c.stages.zip found) :=
    (outcomesSame same _ 0 c.stages).symm
  constructor
  case manifest =>
    simp only [generateFrom, outcomes]
    exact manifestSame c o id _ _ _ _
  all_goals simp only [generateFrom, outcomes]

theorem Bundle.ofArtifactsAlike {a b : Artifacts} (alike : a.Alike b) (ordered : a.manifest.Ordered)
    (other : b.manifest.Ordered) {o o' : BundleOptions} {x y : Bundle}
    (first : ofArtifacts a o = .ok x) (second : ofArtifacts b o' = .ok y) :
    x.hashes.artifacts = y.hashes.artifacts ∧ x.hashes.merkleRoot = y.hashes.merkleRoot
      ∧ x.hashes.proofs = y.hashes.proofs := by
  obtain ⟨tree, grown, -, hashes⟩ := ofArtifactsMade first
  obtain ⟨tree', grown', -, hashes'⟩ := ofArtifactsMade second
  rw [alike.hashes ordered other, grown'] at grown
  cases grown
  rw [hashes, hashes', alike.hashes ordered other]
  exact ⟨rfl, rfl, rfl⟩

/-! Two builds. -/

structure Product.Alike (p q : Product) : Prop where
  artifacts : p.artifacts.Alike q.artifacts
  hashes : p.bundle.hashes.artifacts = q.bundle.hashes.artifacts
  root : p.bundle.hashes.merkleRoot = q.bundle.hashes.merkleRoot
  proofs : p.bundle.hashes.proofs = q.bundle.hashes.proofs

namespace Compiler

structure Alike (c d : Compiler) : Prop where
  mode : c.config.mode = d.config.mode
  sources : c.sources = d.sources
  ttl : c.resolver.cache.ttl = d.resolver.cache.ttl
  empty : c.resolver.cache.entries = []
  emptyToo : d.resolver.cache.entries = []

def Timeless [Regex] (c : Compiler) (channel : Channel) (run run' : BuildRun) : Prop :=
  Clock.SameAges channel.stages.length c.resolver.cache.ttl run.clock run'.clock
    ∨ ∃ files root, c.sources = [.directory files root] ∧ channel.Steady files root

section

variable [Regex] {c d : Compiler}

theorem Alike.found (alike : c.Alike d) {run run' : BuildRun} {channel : Channel}
    (timeless : c.Timeless channel run run') :
    (Channel.findNexons c.sources run.clock c.resolver channel.stages).1.map (·.map Nexon.content)
      = (Channel.findNexons d.sources run'.clock d.resolver channel.stages).1.map (·.map Nexon.content) := by
  rcases timeless with ages | ⟨files, root, directory, steady⟩
  · rw [← alike.sources]
    exact Resolver.foundAlike c.sources channel.stages
      (Resolver.emptyAlike _ _ run.clock run'.clock alike.ttl alike.empty alike.emptyToo) ages
  · rw [← alike.sources, directory, Resolver.foundSteady steady alike.empty, Resolver.foundSteady steady alike.emptyToo]

theorem Alike.generation (alike : c.Alike d) {run run' : BuildRun} {channel : Channel}
    (timeless : c.Timeless channel run run') :
    (c.generation run channel).artifacts.Alike (d.generation run' channel).artifacts := by
  have options : d.generationOptions run' = { c.generationOptions run with buildId := run'.buildId } := by
    rw [generationOptions, generationOptions, alike.mode]
  rw [Compiler.generation, Compiler.generation, options]
  exact channel.generatedAlike (c.generationOptions run) run'.buildId (alike.found timeless)

end

/-! Two stages of one nexon, of which the latest is asked for first, and then its version. -/

attribute [local instance] Pattern.engine

/-- The latest is kept under its version too: while it is, a file that is named for another version is found. -/
example : ((Channel.findNexons [.directory Resolver.mislabelled "nexons"] (.still 0) (.ofTtl 1)
      [{ id := "a", nexonId := "n" }, { id := "b", nexonId := "n", nexonVersion := some "1.0.0" }]).1.map
        (·.toOption.isSome))
    ≠ ((Channel.findNexons [.directory Resolver.mislabelled "nexons"] (fun i => .at i) (.ofTtl 1)
      [{ id := "a", nexonId := "n" }, { id := "b", nexonId := "n", nexonVersion := some "1.0.0" }]).1.map
        (·.toOption.isSome)) := by
  decide +kernel

end Compiler

end Conduit
