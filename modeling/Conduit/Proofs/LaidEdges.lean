import Conduit.Flow.Generation
import Conduit.Proofs.Outcomes

/-! What the laying of edges leaves as it was. An edge adds to the wires of one node, and to nothing else; so the
stages of a graph, their nodes and the outlets by which edges find them are those that the graph began with. -/
namespace Conduit

def FlowNode.bare (n : FlowNode) : FlowNode := { n with wires := [] }

structure BareStage where
  stage : String
  nodes : List FlowNode
  outlets : List String

def StageNodes.bare (s : StageNodes) : BareStage := ⟨s.stage, s.nodes.map FlowNode.bare, s.outlets⟩

theorem StageNodes.bareWithLast {s : StageNodes} {n : FlowNode} (same : n.bare = s.last.bare) :
    (s.withLast n).bare = s.bare := by
  have nodes : (s.nodes.dropLast ++ [n]).map FlowNode.bare = s.nodes.map FlowNode.bare := by
    conv => rhs; rw [← List.dropLast_append_getLast s.nodes_ne_nil]
    rw [List.map_append, List.map_append, List.map_singleton, List.map_singleton, same]
    rfl
  rw [bare, bare, withLast, nodes]

theorem StageNodes.bareConnected (s : StageNodes) (port : Nat) (target : String) :
    (s.withLast (s.last.connect port target)).bare = s.bare :=
  bareWithLast rfl

namespace FlowGraph

def bare (g : FlowGraph) : List BareStage := g.stages.map StageNodes.bare

theorem bareUpdated {f : StageNodes → StageNodes} (same : ∀ s, (f s).bare = s.bare) (id : String)
    (stages : List StageNodes) : (updateStage id f stages).map StageNodes.bare = stages.map StageNodes.bare := by
  induction stages with
  | nil => rfl
  | cons s rest ih =>
    rw [updateStage]
    split
    · rw [List.map_cons, List.map_cons, same]
    · rw [List.map_cons, List.map_cons, ih]

theorem bareWired {g wired : FlowGraph} {edge : Edge} (laid : g.connect edge = .ok wired) : wired.bare = g.bare := by
  obtain ⟨c, -, same⟩ := Outcome.bindOk.mp laid
  cases same
  exact bareUpdated (fun s => s.bareConnected c.port c.target) c.stage g.stages

theorem bareLaid (g : FlowGraph) (edges : List Edge) : (Channel.layEdges g edges).1.bare = g.bare := by
  induction edges generalizing g with
  | nil => rfl
  | cons e rest ih =>
    rw [Channel.layEdges]
    split
    next wired laid => rw [ih, bareWired laid]
    next => exact ih g

end FlowGraph

/-! What every node of a graph has. -/

namespace FlowGraph

def Every (P : FlowNode → Prop) (g : FlowGraph) : Prop := ∀ s ∈ g.stages, ∀ n ∈ s.nodes, P n

theorem everyNode {P : FlowNode → Prop} {g : FlowGraph} (every : g.Every P) : ∀ n ∈ g.nodes, P n := by
  intro n member
  obtain ⟨s, stage, here⟩ := List.mem_flatMap.mp member
  exact every s (List.mem_reverse.mp stage) n here

theorem addEvery {P : FlowNode → Prop} {g : FlowGraph} (every : g.Every P) {nodes : List FlowNode}
    (new : ∀ n ∈ nodes, P n) (stage : String) (outlets : List String) : (g.add stage nodes outlets).Every P := by
  unfold add
  split
  · exact every
  · exact List.forall_mem_cons.mpr ⟨new, every⟩

theorem unwiredEvery {P : FlowNode → Prop} {outcomes : List StageOutcome}
    (every : ∀ o ∈ outcomes, ∀ n ∈ o.rendered.nodes, P n) : (Channel.unwired outcomes).Every P := by
  suffices step : ∀ g : FlowGraph, g.Every P →
      (outcomes.foldl (fun g o => g.add o.stage.id o.rendered.nodes o.rendered.outlets) g).Every P by
    exact step {} (List.forall_mem_nil _)
  induction outcomes with
  | nil => exact fun g known => known
  | cons o rest ih =>
    obtain ⟨here, others⟩ := List.forall_mem_cons.mp every
    exact fun g known => ih others _ (addEvery known here _ _)

def firstIds (g : FlowGraph) : List String := g.stages.map (·.first.id)

theorem firstOfBare (s : StageNodes) : s.bare.nodes.head?.map (·.id) = some s.first.id := by
  rw [StageNodes.bare, List.head?_map, List.head?_eq_some_head s.nodes_ne_nil]
  rfl

theorem firstIdsOfBare {g h : FlowGraph} (same : g.bare = h.bare) : g.firstIds = h.firstIds := by
  have ids (g : FlowGraph) : g.firstIds.map some = g.bare.map fun b => b.nodes.head?.map (·.id) := by
    simp only [firstIds, bare, List.map_map, Function.comp_def, firstOfBare]
  exact List.map_injective_iff.mpr (fun _ _ => Option.some.inj) ((ids g).trans (same ▸ (ids h).symm))

theorem memUpdate {id : String} {f : StageNodes → StageNodes} {stages : List StageNodes} {s : StageNodes}
    (member : s ∈ updateStage id f stages) : s ∈ stages ∨ ∃ old ∈ stages, s = f old := by
  induction stages with
  | nil => cases member
  | cons first rest ih =>
    rw [updateStage] at member
    split at member
    · rcases List.mem_cons.mp member with rfl | later
      · exact .inr ⟨first, List.mem_cons_self, rfl⟩
      · exact .inl (List.mem_cons_of_mem _ later)
    · rcases List.mem_cons.mp member with rfl | later
      · exact .inl List.mem_cons_self
      · rcases ih later with before | ⟨old, before, same⟩
        · exact .inl (List.mem_cons_of_mem _ before)
        · exact .inr ⟨old, List.mem_cons_of_mem _ before, same⟩

theorem connectionTarget {g : FlowGraph} {edge : Edge} {c : Connection} (made : g.connection edge = .ok c) :
    c.stage = edge.source ∧ c.target ∈ g.firstIds := by
  unfold connection at made
  split at made
  · cases made
  · split at made
    · cases made
    next target found =>
      obtain ⟨port, -, same⟩ := Outcome.bindOk.mp made
      cases same
      exact ⟨rfl, List.mem_map_of_mem (List.mem_of_find?_eq_some found)⟩

variable {P : FlowNode → Prop} {Known : String → Prop}
  (keeps : ∀ n port target, Known target → P n → P (n.connect port target))
include keeps

theorem wiredEvery {g : FlowGraph} {c : Connection} (known : Known c.target) (every : g.Every P) :
    (g.wire c).Every P := by
  intro s member n node
  rcases memUpdate member with before | ⟨old, before, rfl⟩
  · exact every s before n node
  · rcases List.mem_append.mp node with front | last
    · exact every old before n (List.dropLast_subset _ front)
    · rw [List.mem_singleton.mp last]
      exact keeps _ _ _ known (every old before old.last (List.getLast_mem _))

theorem laidEvery {g : FlowGraph} (known : ∀ id ∈ g.firstIds, Known id) (every : g.Every P) (edges : List Edge) :
    (Channel.layEdges g edges).1.Every P := by
  induction edges generalizing g with
  | nil => exact every
  | cons e rest ih =>
    rw [Channel.layEdges]
    split
    next wired laid =>
      have bare := bareWired laid
      obtain ⟨c, made, same⟩ := Outcome.bindOk.mp laid
      cases same
      refine ih ?_ (wiredEvery keeps (known _ (connectionTarget made).2) every)
      rw [firstIdsOfBare bare]
      exact known
    next => exact ih known every

end FlowGraph

/-! Edges between stages of the graph. -/

def WiringError.EndsKnown : WiringError → Prop
  | .unknownSource _ => False
  | .unknownTarget _ => False
  | .outOfRange .. => True
  | .unknownOutlet .. => True

namespace FlowGraph

def stageIds (g : FlowGraph) : List String := g.bare.map (·.stage)

theorem stageFound {g : FlowGraph} {id : String} (known : id ∈ g.stageIds) : ∃ s, g.stage? id = some s := by
  obtain ⟨b, stage, rfl⟩ := List.mem_map.mp known
  obtain ⟨s, member, rfl⟩ := List.mem_map.mp stage
  exact Option.isSome_iff_exists.mp (List.find?_isSome.mpr ⟨s, member, decide_eq_true rfl⟩)

theorem portKnown {s : StageNodes} {edge : Edge} {reason : WiringError} (refused : port s edge = .error reason) :
    reason.EndsKnown := by
  simp only [port] at refused
  split at refused
  · cases refused
  · split at refused <;> cases refused
    trivial
  · split at refused <;> cases refused
    trivial

theorem connectKnown {g : FlowGraph} {edge : Edge} {reason : WiringError} (source : edge.source ∈ g.stageIds)
    (target : edge.target ∈ g.stageIds) (refused : g.connect edge = .error reason) : reason.EndsKnown := by
  obtain ⟨first, source⟩ := stageFound source
  obtain ⟨second, target⟩ := stageFound target
  simp only [connect, connection, source, target] at refused
  cases ported : port first edge with
  | ok i => simp [ported, bind, Except.bind, pure, Except.pure] at refused
  | error e =>
    simp only [ported, bind, Except.bind, Except.error.injEq] at refused
    rw [← refused]
    exact portKnown ported

theorem laidKnown {g : FlowGraph} {edges : List Edge}
    (known : ∀ e ∈ edges, e.source ∈ g.stageIds ∧ e.target ∈ g.stageIds) :
    ∀ i ∈ (Channel.layEdges g edges).2, ∃ stage reason, i = .unwired stage reason ∧ reason.EndsKnown := by
  induction edges generalizing g with
  | nil => exact List.forall_mem_nil _
  | cons e rest ih =>
    obtain ⟨⟨source, target⟩, others⟩ := List.forall_mem_cons.mp known
    rw [Channel.layEdges]
    split
    next wired laid =>
      -- the wired graph has the same stages, so the edges that follow still find theirs
      refine ih fun edge member => ?_
      rw [stageIds, bareWired laid]
      exact others edge member
    next reason refused =>
      exact List.forall_mem_cons.mpr ⟨⟨e.source, reason, rfl, connectKnown source target refused⟩, ih others⟩

end FlowGraph

end Conduit
