import Conduit.Pattern
import Conduit.Proofs.LikeGraphs
import Conduit.Proofs.NodeNames
import Conduit.Proofs.RenderedNodes
import Conduit.Proofs.SeparateNexons
import Mathlib.Data.List.Pairwise

/-! What becomes of the stages of one nexon is of no matter to the others. Two builds whose directories differ in that
nexon alone have the same nodes of every other stage, and warn alike of it; only the wires that lead to the first nodes
of the stages of that nexon are not the same. -/
namespace Conduit

namespace FlowNode

theorem withoutNothing {ids : List String} {n : FlowNode} (none : ∀ port ∈ n.wires, ∀ target ∈ port, target ∉ ids) :
    n.without ids = n := by
  have wires : n.wires.map (targetsWithout ids) = n.wires := by
    conv => rhs; rw [← List.map_id n.wires]
    refine List.map_congr_left fun port member => List.filter_eq_self.mpr fun target leads => ?_
    simpa using none port member target leads
  rw [without, wires]

def firstId? (block : List FlowNode) : Option String := block.head?.map (·.id)

theorem firstIdOfBare {a b : List FlowNode} (same : a.map bare = b.map bare) : firstId? a = firstId? b := by
  rw [firstId?, firstId?, ← List.head?_map, ← List.head?_map, idsOfBare same]

end FlowNode

theorem StageNodes.firstOfNodes (s : StageNodes) : FlowNode.firstId? s.nodes = some s.first.id := by
  rw [FlowNode.firstId?, List.head?_eq_some_head s.nodes_ne_nil]
  rfl

theorem StageNodes.firstAmong (s : StageNodes) : s.first.id ∈ s.nodes.map (·.id) :=
  List.mem_map_of_mem (List.head_mem _)

namespace Channel

def usesNexon (c : Channel) (name stage : String) : Bool := c.stages.any fun s => s.id = stage && s.nexonId = name

def firstsOf (c : Channel) (name : String) (blocks : List (List FlowNode)) : List String :=
  (c.stages.zip (blocks.map FlowNode.firstId?)).filterMap fun p => if p.1.nexonId = name then p.2 else none

variable {c : Channel} {name : String}

theorem usesStage (distinct : c.stageIds.Nodup) {s : Stage} (member : s ∈ c.stages) :
    c.usesNexon name s.id ↔ s.nexonId = name := by
  simp only [usesNexon, List.any_eq_true, Bool.and_eq_true, decide_eq_true_eq]
  constructor
  · rintro ⟨other, among, same, uses⟩
    rw [← List.inj_on_of_nodup_map distinct among member same]
    exact uses
  · exact fun uses => ⟨s, member, rfl, uses⟩

/-! One run. -/

structure Parted (c : Channel) (os : List StageOutcome) : Prop where
  stages : os.map (·.stage) = c.stages
  nodes : ∀ o ∈ os, o.rendered.nodes ≠ []
  distinct : (os.flatMap (·.rendered.nodes.map (·.id))).Nodup
  inside : ∀ o ∈ os, ∀ n ∈ o.rendered.nodes, n.Inside (flowId c.channelId) (o.rendered.nodes.map (·.id))

theorem firstsMember {os : List StageOutcome} (stages : os.map (·.stage) = c.stages) {id : String} :
    id ∈ c.firstsOf name (os.map (·.rendered.nodes))
      ↔ ∃ o ∈ os, o.stage.nexonId = name ∧ FlowNode.firstId? o.rendered.nodes = some id := by
  rw [firstsOf, ← stages, List.map_map, List.zip_map', List.filterMap_map, List.mem_filterMap]
  simp only [Function.comp_apply, Option.ite_none_right_eq_some]

theorem firstsLaid {os : List StageOutcome} {stages : List StageNodes}
    (laid : List.Forall₂ (fun o s => StageOutcome.bare o = StageNodes.bare s) os stages) :
    c.firstsOf name (stages.map (·.nodes)) = c.firstsOf name (os.map (·.rendered.nodes)) := by
  have firsts : (stages.map (·.nodes)).map FlowNode.firstId? = (os.map (·.rendered.nodes)).map FlowNode.firstId? := by
    induction laid with
    | nil => rfl
    | cons here _ ih =>
      have nodes := congrArg BareStage.nodes here
      simp only [List.map_cons, ih]
      exact congrArg (· :: _) (FlowNode.firstIdOfBare nodes.symm)
  rw [firstsOf, firstsOf, firsts]

section

variable {os : List StageOutcome} (parted : c.Parted os)
include parted

theorem Parted.owner {o r : StageOutcome} (member : o ∈ os) (among : r ∈ os) {id : String}
    (own : id ∈ o.rendered.nodes.map (·.id)) (shared : id ∈ r.rendered.nodes.map (·.id)) : o = r := by
  by_contra other
  obtain ⟨-, disjoint⟩ := List.nodup_flatMap.mp parted.distinct
  have symmetric : Std.Symm (Function.onFun List.Disjoint fun o : StageOutcome => o.rendered.nodes.map (·.id)) :=
    ⟨fun _ _ one _ here there => one there here⟩
  exact disjoint.forall member among other own shared

theorem Parted.notFirst {o : StageOutcome} (member : o ∈ os) (other : o.stage.nexonId ≠ name) {id : String}
    (own : id ∈ o.rendered.nodes.map (·.id)) : id ∉ c.firstsOf name (os.map (·.rendered.nodes)) := by
  intro first
  obtain ⟨r, among, uses, first⟩ := (firstsMember parted.stages).mp first
  obtain ⟨n, head, rfl⟩ := Option.map_eq_some_iff.mp first
  have shared : n.id ∈ r.rendered.nodes.map (·.id) := List.mem_map_of_mem (List.mem_of_mem_head? head)
  rw [parted.owner member among own shared] at other
  exact other uses

theorem Parted.without {o : StageOutcome} (member : o ∈ os) (other : o.stage.nexonId ≠ name) :
    o.rendered.nodes.map (FlowNode.without (c.firstsOf name (os.map (·.rendered.nodes)))) = o.rendered.nodes := by
  conv => rhs; rw [← List.map_id o.rendered.nodes]
  refine List.map_congr_left fun n node => FlowNode.withoutNothing fun port wire target leads => ?_
  exact parted.notFirst member other ((parted.inside o member n node).wires port wire target leads)

end

theorem parted [Regex] {document : Json} (valid : (validateChannel document).channel = some c) (o : GenerationOptions)
    {found : List (Except TemplateError Nexon)} (all : found.length = c.stages.length)
    (sound : ∀ n, .ok n ∈ found → n.content.Sound) (apart : c.Apart found) : c.Parted (c.stageOutcomes o found) where
  stages := c.stageOutcomesStages o all
  nodes r member := (c.stageOutcomesWhole o sound r member).nodes
  distinct := stageIdsDistinct valid o all sound apart
  inside := outcomesEvery (fun p _ index => outcomeInside _ index p.1 p.2) 0

/-! Two runs. -/

def SameOther (name : String) (o o' : StageOutcome) : Prop := o.stage = o'.stage ∧ (o.stage.nexonId ≠ name → o = o')

theorem outcomesOther [Regex] {pairs pairs' : List (Stage × Except TemplateError Nexon)}
    (found : List.Forall₂ (Resolver.SameFound name) pairs pairs') (context : RenderContext) (index : Nat) :
    List.Forall₂ (SameOther name) (outcomes context index pairs) (outcomes context index pairs') := by
  induction found generalizing index with
  | nil => exact .nil
  | @cons p p' _ _ here _ ih =>
    obtain ⟨stage, content⟩ := here
    refine .cons ⟨?_, fun other => ?_⟩ (ih (index + 1))
    · rw [outcomeStage, outcomeStage, stage]
    · rw [outcomeStage] at other
      rw [outcome, outcome, Stage.renderFoundSame (content other), stage]

section

variable {os os' : List StageOutcome} (same : List.Forall₂ (SameOther name) os os')
include same

theorem issuesOther (uses : ∀ o ∈ os, c.usesNexon name o.stage.id ↔ o.stage.nexonId = name) :
    (os.flatMap StageOutcome.issues).filter (fun i => !c.usesNexon name i.stage)
      = (os'.flatMap StageOutcome.issues).filter (fun i => !c.usesNexon name i.stage) := by
  have stages (o : StageOutcome) : ∀ i ∈ o.issues, i.stage = o.stage.id := by
    intro i member
    rcases List.mem_append.mp member with replaced | noted
    · obtain ⟨_, -, rfl⟩ := Option.map_eq_some_iff.mp (Option.mem_toList.mp replaced)
      rfl
    · obtain ⟨_, -, rfl⟩ := List.mem_map.mp noted
      rfl
  have dropped (o : StageOutcome) (own : c.usesNexon name o.stage.id) :
      o.issues.filter (fun i => !c.usesNexon name i.stage) = [] := by
    refine List.filter_eq_nil_iff.mpr fun i member => ?_
    rw [stages o i member, own]
    exact Bool.false_ne_true
  induction same with
  | nil => rfl
  | @cons o o' _ _ here _ ih =>
    obtain ⟨first, others⟩ := List.forall_mem_cons.mp uses
    rw [List.flatMap_cons, List.flatMap_cons, List.filter_append, List.filter_append, ih others]
    by_cases own : c.usesNexon name o.stage.id
    · rw [dropped o own, dropped o' (here.1 ▸ own)]
    · rw [here.2 fun uses => own (first.mpr uses)]

theorem unwiredLike (parted : c.Parted os) (parted' : c.Parted os') (distinct : c.stageIds.Nodup) :
    FlowGraph.Like (c.usesNexon name) (c.firstsOf name (os.map (·.rendered.nodes)))
      (c.firstsOf name (os'.map (·.rendered.nodes))) (unwired os) (unwired os') := by
  have stageIn {o : StageOutcome} {os : List StageOutcome} (parted : c.Parted os) (member : o ∈ os) : o.stage ∈ c.stages := by
    rw [← parted.stages]
    exact List.mem_map_of_mem member
  rw [FlowGraph.Like, ← List.forall₂_reverse_iff]
  refine Outcome.matchedAcross ?_ same (unwiredMatched parted.nodes) (unwiredMatched parted'.nodes)
  rintro o o' s s' ⟨stage, other⟩ ⟨member, name₁, nodes, outlets⟩ ⟨member', name₂, nodes', outlets'⟩
  have uses : c.usesNexon name s.stage ↔ o.stage.nexonId = name := name₁ ▸ usesStage distinct (stageIn parted member)
  constructor
  case stage => rw [name₁, name₂, stage]
  case own =>
    intro own
    rw [uses] at own
    rw [firstsMember parted.stages, firstsMember parted'.stages]
    exact ⟨⟨o, member, own, nodes ▸ s.firstOfNodes⟩, o', member', stage ▸ own, nodes' ▸ s'.firstOfNodes⟩
  case ids =>
    intro apart
    rw [uses] at apart
    exact ⟨parted.notFirst member apart (nodes ▸ s.firstAmong),
      parted'.notFirst member' (stage ▸ apart) (nodes' ▸ s'.firstAmong)⟩
  case outlets =>
    intro apart
    rw [uses] at apart
    rw [outlets, outlets', other apart]
  case nodes =>
    intro apart
    rw [uses] at apart
    rw [nodes, nodes', parted.without member apart, parted'.without member' (stage ▸ apart), other apart]

end

/-! Artifacts of two runs. -/

structure Laid (c : Channel) (a : Artifacts) (blocks : List (List FlowNode)) : Prop where
  flow : a.flows = .arr (c.tab :: blocks.flatten.map FlowNode.toJson)
  stages : List.Forall₂ Stage.Owns c.stages blocks

structure Isolated (c : Channel) (name : String) (g g' : Generation)
    (blocks blocks' : List (List FlowNode)) : Prop where
  first : c.Laid g.artifacts blocks
  second : c.Laid g'.artifacts blocks'
  nodes : List.Forall₂ (fun s p => s.nexonId ≠ name →
      p.1.map (FlowNode.without (c.firstsOf name blocks)) = p.2.map (FlowNode.without (c.firstsOf name blocks')))
    c.stages (blocks.zip blocks')
  issues : g.issues.filter (fun i => !c.usesNexon name i.stage) = g'.issues.filter (fun i => !c.usesNexon name i.stage)
  settings : g.artifacts.settings = g'.artifacts.settings
  credentialsMap : g.artifacts.credentialsMap = g'.artifacts.credentialsMap

theorem generatedLaid [Regex] (o : GenerationOptions) {found : List (Except TemplateError Nexon)}
    (all : found.length = c.stages.length) (sound : ∀ n, .ok n ∈ found → n.content.Sound) :
    c.Laid (c.generateFrom o found).artifacts
      ((layEdges (unwired (c.stageOutcomes o found)) c.edges).1.stages.reverse.map (·.nodes)) := by
  have whole := c.stageOutcomesWhole o sound
  have laid := stagesLaid (fun r member => (whole r member).nodes) c.edges
  constructor
  case flow =>
    rw [← List.flatMap_def]
    rfl
  case stages =>
    rw [List.forall₂_map_right_iff, ← c.stageOutcomesStages o all, List.forall₂_map_left_iff]
    refine (Outcome.matchedAmong laid).imp fun r s both => ?_
    exact (whole r both.1).laid (congrArg BareStage.nodes both.2.2).symm

theorem generatedIsolated [Regex] {document : Json} (valid : (validateChannel document).channel = some c)
    (o : GenerationOptions) {found found' : List (Except TemplateError Nexon)} (all : found.length = c.stages.length)
    (all' : found'.length = c.stages.length) (sound : ∀ n, .ok n ∈ found → n.content.Sound)
    (sound' : ∀ n, .ok n ∈ found' → n.content.Sound) (apart : c.Apart found) (apart' : c.Apart found')
    (others : List.Forall₂ (Resolver.SameFound name) (c.stages.zip found) (c.stages.zip found')) :
    ∃ blocks blocks', c.Isolated name (c.generateFrom o found) (c.generateFrom o found') blocks blocks' := by
  have distinct := (validFrom valid).stages
  have parted := parted valid o all sound apart
  have parted' := Channel.parted valid o all' sound' apart'
  have same : List.Forall₂ (SameOther name) (c.stageOutcomes o found) (c.stageOutcomes o found') :=
    outcomesOther others _ 0
  obtain ⟨graphs, wiring⟩ := FlowGraph.laidLike (unwiredLike same parted parted' distinct) c.edges
  have laid := stagesLaid parted.nodes c.edges
  have laid' := stagesLaid parted'.nodes c.edges
  refine ⟨_, _, generatedLaid o all sound, generatedLaid o all' sound', ?_, ?_, rfl, rfl⟩
  · rw [firstsLaid laid, firstsLaid laid', List.zip_map, List.forall₂_map_right_iff, ← parted.stages,
      List.forall₂_map_left_iff]
    have matched := Outcome.matchedZip laid (List.forall₂_reverse_iff.mpr graphs)
    refine List.Forall₂.imp ?_ (Outcome.matchedAmong matched)
    rintro r p ⟨member, -, bare, like⟩ other
    refine like.nodes fun own => other ?_
    have stage : r.stage ∈ c.stages := by
      rw [← parted.stages]
      exact List.mem_map_of_mem member
    rw [← show r.stage.id = p.1.stage from congrArg BareStage.stage bare, usesStage distinct stage] at own
    exact own
  · have issues (found : List (Except TemplateError Nexon)) : (c.generateFrom o found).issues
        = (c.stageOutcomes o found).flatMap StageOutcome.issues
          ++ (layEdges (unwired (c.stageOutcomes o found)) c.edges).2 := rfl
    have uses : ∀ r ∈ c.stageOutcomes o found, c.usesNexon name r.stage.id ↔ r.stage.nexonId = name := by
      intro r member
      refine usesStage distinct ?_
      rw [← parted.stages]
      exact List.mem_map_of_mem member
    rw [issues, issues, List.filter_append, List.filter_append, issuesOther same uses, wiring]

/-- Builds from directories that differ in one nexon, each with a cache of its own that began empty, in which everything is
as old as in the other. -/
theorem stagesIsolated [Regex] {document : Json} (valid : (validateChannel document).channel = some c)
    (o : GenerationOptions)
    {files files' : FileTree} {root : String} (differ : NexonSource.SameBut name files files' root) {ttl : Nat}
    {clock clock' : Clock} (ages : Clock.SameAges c.stages.length ttl clock clock')
    (apart : c.Apart (findNexons [.directory files root] clock (.ofTtl ttl) c.stages).1)
    (apart' : c.Apart (findNexons [.directory files' root] clock' (.ofTtl ttl) c.stages).1) :
    ∃ blocks blocks', c.Isolated name (c.generate o [.directory files root] clock (.ofTtl ttl)).1
      (c.generate o [.directory files' root] clock' (.ofTtl ttl)).1 blocks blocks' := by
  have all (files : FileTree) (clock : Clock) := Resolver.foundLength [.directory files root] clock (.ofTtl ttl) c.stages
  have sound (files : FileTree) (clock : Clock) := (@Resolver.foundHolding _ _ [.directory files root]
    (fun _ _ => Resolver.fetchedSound) c.stages (.ofTtl ttl) clock (Resolver.emptyHolding _ ttl)).1
  exact generatedIsolated valid o (all files clock) (all files' clock') (sound files clock) (sound files' clock') apart
    apart' (Resolver.foundOthers differ c.stages (Resolver.emptyAlike _ _ clock clock' rfl rfl rfl) ages)

attribute [local instance] Pattern.engine in
theorem pairIsolated : ∃ c, (validateChannel pairDocument).channel = some c
    ∧ NexonSource.SameBut "n" (nexonsOfOne bothNexons) (nexonsOfOne [("m", "debug")]) "nexons"
    ∧ Clock.SameAges c.stages.length 1 (.still 0) (.later 5 (.still 0))
    ∧ c.Apart (findNexons (pairSources bothNexons) (.still 0) (.ofTtl 1) c.stages).1
    ∧ c.Apart (findNexons (pairSources [("m", "debug")]) (.later 5 (.still 0)) (.ofTtl 1) c.stages).1
    ∧ ∃ blocks blocks', c.Isolated "n" (c.generate {} (pairSources bothNexons) (.still 0) (.ofTtl 1)).1
      (c.generate {} (pairSources [("m", "debug")]) (.later 5 (.still 0)) (.ofTtl 1)).1 blocks blocks' := by
  have outside : FileTree.SameOutside ["nexons", "n"] (nexonsOfOne bothNexons) (nexonsOfOne [("m", "debug")]) :=
    ⟨rfl, rfl⟩
  have differ : NexonSource.SameBut "n" (nexonsOfOne bothNexons) (nexonsOfOne [("m", "debug")]) "nexons" :=
    @NexonSource.SameBut.ofOutside _ _ _ _ ["nexons"] outside ⟨rfl, rfl⟩ ⟨rfl, rfl⟩
  obtain ⟨c, valid, apart⟩ := pairRendered
  obtain ⟨d, same, apart', -⟩ := @pairChannel [("m", "debug")] (.later 5 (.still 0)) (fun _ => true) (by decide +kernel)
  rw [valid] at same
  cases same
  have ages := Clock.laterAges c.stages.length 1 5 (.still 0)
  exact ⟨c, valid, differ, ages, apart, apart', stagesIsolated valid {} differ ages apart apart'⟩

end Channel

end Conduit
