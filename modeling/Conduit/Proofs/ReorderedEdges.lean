import Conduit.Pattern
import Conduit.Proofs.OutletPorts

/-! The order of the edges is of no matter, and neither is laying them once more. They open no port, and add to a port
only first nodes that it does not lead to yet. -/
namespace Conduit

namespace FlowNode

structure Alike (n n' : FlowNode) : Prop where
  bare : n.bare = n'.bare
  wires : List.Forall₂ List.Perm n.wires n'.wires

theorem Alike.refl (n : FlowNode) : n.Alike n := ⟨rfl, List.forall₂_same.mpr fun _ _ => List.Perm.refl _⟩

/-- A port leads where it was drawn to lead, and then to what was brought and not there before, each once. -/
def Grows (own targets : List String) (Brought : String → Prop) : Prop :=
  ∃ added, targets = own ++ added ∧ added.Nodup ∧ ∀ id ∈ added, id ∉ own ∧ Brought id

variable {more more' : Nat → List String}

theorem wiredAlike (perm : ∀ port, (more port).Perm (more' port)) (n : FlowNode) :
    (n.wired more).Alike (n.wired more') := by
  refine ⟨rfl, List.forall₂_iff_get.mpr ⟨?_, fun i within _ => ?_⟩⟩
  · rw [wiredPorts, wiredPorts]
  · simp only [wired, List.get_eq_getElem, List.getElem_mapIdx]
    exact reachedPerm _ (perm i)

theorem lastWiredAlike (perm : ∀ port, (more port).Perm (more' port)) : (nodes : List FlowNode) →
    List.Forall₂ Alike (lastWired more nodes) (lastWired more' nodes)
  | [] => .nil
  | [last] => .cons (wiredAlike perm last) .nil
  | n :: next :: rest => .cons (.refl n) (lastWiredAlike perm (next :: rest))

theorem lastWiredPorts (more : Nat → List String) : (nodes : List FlowNode) →
    (lastWired more nodes).map (·.wires.length) = nodes.map (·.wires.length)
  | [] => rfl
  | [last] => congrArg ([·]) (last.wiredPorts more)
  | n :: next :: rest => congrArg (n.wires.length :: ·) (lastWiredPorts more (next :: rest))

theorem wiredTwice (n : FlowNode) (more : Nat → List String) :
    (n.wired fun port => more port ++ more port) = n.wired more := by
  have twice (own : List String) (port : Nat) : reached own (more port ++ more port) = reached own (more port) := by
    rw [reached, List.foldl_append]
    exact reachedNothing fun id among => reachedMember.mpr (.inr among)
  simp only [wired, twice]

theorem wiredGrows {n : FlowNode} {port : Nat} {own : List String} (drawn : n.targets port = own)
    {Brought : String → Prop} (brings : ∀ id ∈ more port, Brought id) :
    Grows own ((n.wired more).targets port) Brought := by
  rcases Nat.lt_or_ge port n.wires.length with within | beyond
  · obtain ⟨added, same, distinct, new⟩ := reachedSplit own (more port)
    rw [wiredTargets n more within, drawn, same]
    exact ⟨added, rfl, distinct, fun id among => ⟨((new id).mp among).2, brings id ((new id).mp among).1⟩⟩
  · refine ⟨[], ?_, List.nodup_nil, List.forall_mem_nil _⟩
    rw [noTargets (by rw [wiredPorts]; exact beyond), ← drawn, noTargets beyond, List.append_nil]

end FlowNode

namespace FlowGraph

theorem wiredTwice (g : FlowGraph) (more : String → Nat → List String) :
    (g.wired fun stage port => more stage port ++ more stage port) = g.wired more := by
  simp only [wired, StageNodes.wired, FlowNode.wiredTwice]

theorem wiredPorts (g : FlowGraph) (more : String → Nat → List String) :
    (g.wired more).nodes.map (·.wires.length) = g.nodes.map (·.wires.length) := by
  simp only [nodes, wired, ← List.map_reverse, List.flatMap_map, List.map_flatMap, StageNodes.wiredNodes,
    FlowNode.lastWiredPorts]

variable {g : FlowGraph} (ready : g.Ready)
include ready

theorem Ready.laidPorts (edges : List Edge) :
    (Channel.layEdges g edges).1.nodes.map (·.wires.length) = g.nodes.map (·.wires.length) := by
  rw [ready.laid, wiredPorts]

theorem Ready.laidTwice (edges : List Edge) :
    (Channel.layEdges (Channel.layEdges g edges).1 edges).1 = (Channel.layEdges g edges).1 := by
  have after := ready.wired (g.aims edges)
  rw [ready.laid, after.laid]
  have same : (g.wired (g.aims edges)).aims edges = g.aims edges := by
    funext stage port
    rw [aims, aimWired, aims]
  rw [same, wiredAgain, wiredTwice]

end FlowGraph

namespace Channel

def Brings (c : Channel) (blocks : List (List FlowNode)) (stage id : String) : Prop :=
  ∃ e ∈ c.edges, e.source = stage ∧ ∃ target, (e.target, target) ∈ c.stageIds.zip blocks
    ∧ FlowNode.firstId? target = some id

structure Reordered (c : Channel) (run : Channel → Generation) (edges : List Edge)
    (blocks blocks' : List (List FlowNode)) : Prop where
  flow : (c.withEdges edges).Laid (run (c.withEdges edges)).artifacts blocks'
  nodes : List.Forall₂ (List.Forall₂ FlowNode.Alike) blocks blocks'
  warnings : ((run c).issues.filter (·.code = "generate.wiring")).Perm
    ((run (c.withEdges edges)).issues.filter (·.code = "generate.wiring"))

structure OrderFree (c : Channel) (run : Channel → Generation) (found : List (Except TemplateError Nexon))
    (unlaid : FlowGraph) (blocks : List (List FlowNode)) : Prop where
  flow : c.Laid (run c).artifacts blocks
  reordered : ∀ edges, c.edges.Perm edges → ∃ blocks', c.Reordered run edges blocks blocks'
  targets : List.Forall₂ (fun p block => List.Forall₂ (fun wires n => ∀ port,
      FlowNode.Grows (wires.getD port []) (FlowNode.targets n port) (c.Brings blocks p.1.id))
    (drawnWires (run c).placeholders p.1 p.2) block) (c.stages.zip found) blocks
  ports : ∀ edges, (layEdges unlaid edges).1.nodes.map (·.wires.length) = unlaid.nodes.map (·.wires.length)
  again : (layEdges (layEdges unlaid c.edges).1 c.edges).1 = (layEdges unlaid c.edges).1

theorem Coherent.reordered {c : Channel} (coherent : c.Coherent) {edges : List Edge} (perm : c.edges.Perm edges) :
    (c.withEdges edges).Coherent where
  stages := coherent.stages
  edges := (perm.map _).nodup_iff.mp coherent.edges
  ends e member := coherent.ends e (perm.mem_iff.mpr member)

section

variable [Regex] {c : Channel} (coherent : c.Coherent) (o : GenerationOptions)
  {found : List (Except TemplateError Nexon)}
  (all : found.length = c.stages.length) (sound : ∀ n, .ok n ∈ found → n.content.Sound)
include coherent all sound

theorem generatedReordered {edges : List Edge} (perm : c.edges.Perm edges) :
    c.Reordered (fun d => d.generateFrom o found) edges (wiredBlocks (c.stageOutcomes o found) c.edges)
      (wiredBlocks (c.stageOutcomes o found) edges) := by
  have ready := stageOutcomesReady coherent o all sound
  constructor
  case flow => exact generatedWired (coherent.reordered perm) o all sound
  case nodes =>
    rw [wiredBlocks, wiredBlocks, List.forall₂_map_left_iff, List.forall₂_map_right_iff]
    exact List.forall₂_same.mpr fun r _ => FlowNode.lastWiredAlike (fun port => perm.filterMap _) _
  case warnings =>
    have issues : (c.generateFrom o found).issues = _ := issuesLaid coherent o all sound c.edges
    have wiring := perm.filterMap (unwired (c.stageOutcomes o found)).refusal
    rw [issues, issuesLaid coherent o all sound edges]
    exact (wiring.append_left _).filter _

omit coherent in
theorem aimsBring {r : StageOutcome} {port : Nat} {id : String}
    (aimed : id ∈ (unwired (c.stageOutcomes o found)).aims c.edges r.stage.id port) :
    c.Brings (wiredBlocks (c.stageOutcomes o found) c.edges) r.stage.id id := by
  obtain ⟨e, edge, aims⟩ := List.mem_filterMap.mp aimed
  obtain ⟨leaves, t, target, rfl⟩ := FlowGraph.aimDrawn aims
  obtain ⟨r', among, name, own, -⟩ := unwiredMember (fun r member => (c.stageOutcomesWhole o sound r member).nodes)
    (List.mem_of_find?_eq_some target)
  have reaches : t.stage = e.target := by simpa using List.find?_some target
  have block := c.blockOf o all among c.edges
  rw [← name, reaches] at block
  refine ⟨e, edge, leaves, _, block, ?_⟩
  rw [FlowNode.firstOfLastWired, ← own]
  exact t.firstOfNodes

theorem generatedOrderFree :
    c.OrderFree (fun d => d.generateFrom o found) found (unwired (c.stageOutcomes o found))
      (wiredBlocks (c.stageOutcomes o found) c.edges) := by
  have ready := stageOutcomesReady coherent o all sound
  constructor
  case flow => exact generatedWired coherent o all sound
  case reordered => exact fun edges perm => ⟨_, generatedReordered coherent o all sound perm⟩
  case targets =>
    rw [wiredBlocks, List.forall₂_map_right_iff]
    refine (stageOutcomesPorts coherent o all sound).imp fun p r ports => ?_
    obtain ⟨stage, drawn⟩ := ports
    refine FlowNode.lastWiredEach (fun wires n same port => ?_) (fun wires n same port => ?_) drawn.targets
    · exact ⟨[], by rw [same, List.append_nil], List.nodup_nil, List.forall_mem_nil _⟩
    · refine FlowNode.wiredGrows (same port) fun id aimed => ?_
      rw [← stage]
      exact aimsBring o all sound aimed
  case ports => exact ready.laidPorts
  case again => exact ready.laidTwice c.edges

end

theorem edgesReordered [Regex] {document : Json} {c : Channel}
    (valid : (validateChannel document).channel = some c) (o : GenerationOptions)
    (sources : List NexonSource) (clock : Clock) {s : Resolver} (holding : s.Holding NexonContent.Sound) :
    let found := (findNexons sources clock s c.stages).1
    ∃ blocks, c.OrderFree (fun d => (d.generate o sources clock s).1) found (unwired (c.stageOutcomes o found))
      blocks := by
  intro found
  have coherent := errorsNone.mp (validFrom valid).issues
  have all := Resolver.foundLength sources clock s c.stages
  have sound := (@Resolver.foundHolding _ _ sources (fun _ _ => Resolver.fetchedSound) c.stages s clock holding).1
  obtain ⟨flow, reordered, targets, ports, again⟩ := generatedOrderFree coherent o all sound
  refine ⟨_, flow, fun edges perm => ?_, targets, ports, again⟩
  obtain ⟨blocks', flow', nodes, warnings⟩ := reordered edges perm
  exact ⟨blocks', flow', nodes, warnings⟩

attribute [local instance] Pattern.engine in
theorem pairReordered : ∃ c, (validateChannel pairDocument).channel = some c
    ∧ (Resolver.ofTtl 1).Holding NexonContent.Sound
    ∧ ∃ blocks blocks', c.Reordered (fun d => (d.generate {} (pairSources bothNexons) (.still 0) (.ofTtl 1)).1)
      c.edges.reverse blocks blocks' := by
  have empty := Resolver.emptyHolding NexonContent.Sound 1
  obtain ⟨c, valid, -⟩ := pairRendered
  obtain ⟨blocks, free⟩ := edgesReordered valid {} (pairSources bothNexons) (.still 0) empty
  exact ⟨c, valid, empty, blocks, free.reordered c.edges.reverse (List.reverse_perm c.edges).symm⟩

end Channel

end Conduit
