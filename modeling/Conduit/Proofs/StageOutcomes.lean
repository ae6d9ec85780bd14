import Conduit.Proofs.LaidEdges
import Conduit.Proofs.RenderedNodes
import Conduit.Proofs.SoundNexons

/-! What each stage comes to: the nodes of its nexon, under ids of the stage's own, or one node in their place. No
stage comes to nothing, so each has its nodes in the graph, and keeps them while edges are laid. -/
namespace Conduit

theorem FlowNode.idsOfBare {a b : List FlowNode} (same : a.map bare = b.map bare) : a.map (·.id) = b.map (·.id) := by
  have ids (nodes : List FlowNode) : nodes.map (·.id) = (nodes.map bare).map (·.id) := by rw [List.map_map]; rfl
  rw [ids a, ids b, same]

/-! What is rendered depends on what a nexon is, and not on who found it. -/

section

variable {n m : Nexon} (same : n.content = m.content)
include same

theorem Nexon.manifestSame : n.manifest = m.manifest := congrArg (·.manifest) same

theorem Nexon.keySame : n.key = m.key := by rw [key, key, manifestSame same]

theorem Nexon.compatibleSame (target : Target) : n.compatible target = m.compatible target := by
  rw [compatible, compatible, manifestSame same, keySame same]

theorem Stage.renderSame [Regex] (s : Stage) (context : RenderContext) (origin : Position) :
    s.render context origin n = s.render context origin m := by
  have nodes : n.nodes = m.nodes := congrArg (·.nodes) same
  rw [render, render, Nexon.compatibleSame same, Nexon.manifestSame same, Nexon.keySame same, nodes]

end

theorem Stage.renderFoundSame [Regex] {found other : Except TemplateError Nexon}
    (same : found.map Nexon.content = other.map Nexon.content) (s : Stage) (context : RenderContext) (origin : Position) :
    s.renderFound context origin found = s.renderFound context origin other := by
  cases found with
  | error reason =>
    cases other with
    | error reason' => cases same; rfl
    | ok m => cases same
  | ok n =>
    cases other with
    | error reason => cases same
    | ok m => exact renderSame (Except.ok.inj same) s context origin

structure Stage.Owns (s : Stage) (block : List FlowNode) : Prop where
  nodes : block ≠ []
  own : ∀ n ∈ block, ∃ template, n.id = nodeId s.id template

structure FlowNode.Inside (flow : String) (known : List String) (n : FlowNode) : Prop where
  id : n.id ∈ known
  flow : n.flow = flow
  wires : ∀ port ∈ n.wires, ∀ target ∈ port, target ∈ known

theorem FlowNode.Inside.among {n : FlowNode} {flow : String} {known more : List String} (inside : n.Inside flow known)
    (within : known ⊆ more) : n.Inside flow more :=
  ⟨within inside.id, inside.flow, fun port member target leads => within (inside.wires port member target leads)⟩

namespace StageOutcome

def bare (o : StageOutcome) : BareStage := ⟨o.stage.id, o.rendered.nodes.map FlowNode.bare, o.rendered.outlets⟩

structure Whole (flow : String) (o : StageOutcome) : Prop where
  nodes : o.rendered.nodes ≠ []
  own : ∀ n ∈ o.rendered.nodes, ∃ template, n.id = nodeId o.stage.id template
  replaced : ∀ reason, o.failure = some reason →
    ∃ origin, o.rendered.nodes = [Placeholder.node o.stage flow origin reason.message]

theorem Whole.laid {flow : String} {o : StageOutcome} (whole : o.Whole flow) {block : List FlowNode}
    (laid : block.map FlowNode.bare = o.rendered.nodes.map FlowNode.bare) : o.stage.Owns block := by
  refine ⟨fun none => whole.nodes ?_, fun n member => ?_⟩
  · rw [none, List.map_nil, eq_comm, List.map_eq_nil_iff] at laid
    exact laid
  · have id : n.id ∈ o.rendered.nodes.map (·.id) := by
      rw [← FlowNode.idsOfBare laid]
      exact List.mem_map_of_mem member
    obtain ⟨m, node, same⟩ := List.mem_map.mp id
    obtain ⟨template, own⟩ := whole.own m node
    exact ⟨template, same.symm.trans own⟩

end StageOutcome

namespace Channel

section

variable [Regex]

theorem outcomeWhole (context : RenderContext) (index : Nat) (s : Stage) {found : Except TemplateError Nexon}
    (sound : ∀ n, found = .ok n → n.content.Sound) : (outcome context index s found).Whole context.flow := by
  simp only [outcome]
  split
  next rendered made =>
    cases found with
    | error reason => cases made
    | ok n =>
      have ids := Stage.renderIds made
      constructor
      case nodes =>
        intro none
        rw [show rendered.nodes = [] from none, List.map_nil, eq_comm, List.map_eq_nil_iff] at ids
        exact (sound n rfl).nodes ids
      case own =>
        intro node member
        have listed : node.id ∈ rendered.nodes.map (·.id) := List.mem_map_of_mem member
        rw [ids] at listed
        obtain ⟨t, -, same⟩ := List.mem_map.mp listed
        exact ⟨t.id, same.symm⟩
      case replaced =>
        rintro reason ⟨⟩
  next reason _ =>
    constructor
    case nodes => exact List.cons_ne_nil _ _
    case own => exact List.forall_mem_singleton.mpr ⟨"fallback", rfl⟩
    case replaced =>
      rintro _ ⟨⟩
      exact ⟨_, rfl⟩

theorem outcomeInside (context : RenderContext) (index : Nat) (s : Stage) (found : Except TemplateError Nexon) :
    ∀ n ∈ (outcome context index s found).rendered.nodes,
      n.Inside context.flow ((outcome context index s found).rendered.nodes.map (·.id)) := by
  simp only [outcome]
  split
  next rendered made =>
    cases found with
    | error reason => cases made
    | ok nexon =>
      intro n member
      obtain ⟨t, -, from'⟩ := Outcome.matchedMember (Stage.renderMade made) member
      refine ⟨List.mem_map_of_mem member, from'.flow, fun port wire target leads => ?_⟩
      obtain ⟨node, template, rfl⟩ := from'.wires port wire target leads
      rw [Stage.renderIds made]
      obtain ⟨t, among, rfl⟩ := List.mem_map.mp template
      exact List.mem_map_of_mem among
  next reason _ =>
    refine List.forall_mem_singleton.mpr ⟨List.mem_singleton_self _, rfl, ?_⟩
    exact List.forall_mem_singleton.mpr (List.forall_mem_nil _)

theorem outcomesIndexed (context : RenderContext) (index : Nat) (pairs : List (Stage × Except TemplateError Nexon)) :
    outcomes context index pairs = (pairs.zipIdx index).map fun p => outcome context p.2 p.1.1 p.1.2 := by
  induction pairs generalizing index with
  | nil => rfl
  | cons p rest ih => rw [outcomes, ih, List.zipIdx_cons, List.map_cons]

theorem outcomesMatched (context : RenderContext) (index : Nat) (pairs : List (Stage × Except TemplateError Nexon)) :
    List.Forall₂ (fun p o => ∃ place, o = outcome context place p.1 p.2) pairs (outcomes context index pairs) := by
  induction pairs generalizing index with
  | nil => exact .nil
  | cons p rest ih => exact .cons ⟨index, rfl⟩ (ih (index + 1))

theorem outcomesEvery {P : StageOutcome → Prop} {context : RenderContext}
    {pairs : List (Stage × Except TemplateError Nexon)}
    (every : ∀ p ∈ pairs, ∀ index, P (outcome context index p.1 p.2)) (index : Nat) :
    ∀ o ∈ outcomes context index pairs, P o := by
  rw [outcomesIndexed]
  intro o member
  obtain ⟨⟨p, place⟩, listed, rfl⟩ := List.mem_map.mp member
  exact every p (List.fst_mem_of_mem_zipIdx listed) place

theorem outcomesWhole (context : RenderContext) {pairs : List (Stage × Except TemplateError Nexon)}
    (sound : ∀ p ∈ pairs, ∀ n, p.2 = .ok n → n.content.Sound) (index : Nat) :
    ∀ o ∈ outcomes context index pairs, o.Whole context.flow :=
  outcomesEvery (fun p member place => outcomeWhole context place p.1 (sound p member)) index

theorem outcomeStage (context : RenderContext) (index : Nat) (s : Stage) (found : Except TemplateError Nexon) :
    (outcome context index s found).stage = s := by
  simp only [outcome]
  split <;> rfl

theorem outcomesStages (context : RenderContext) (index : Nat) (pairs : List (Stage × Except TemplateError Nexon)) :
    (outcomes context index pairs).map (·.stage) = pairs.map (·.1) := by
  induction pairs generalizing index with
  | nil => rfl
  | cons p rest ih =>
    rw [outcomes, List.map_cons, List.map_cons, ih, outcomeStage]

end

theorem unwiredStages {β : Type} (f : String → List FlowNode → List String → β) {outcomes : List StageOutcome}
    (nodes : ∀ o ∈ outcomes, o.rendered.nodes ≠ []) :
    (unwired outcomes).stages.map (fun s => f s.stage s.nodes s.outlets)
      = (outcomes.map fun o => f o.stage.id o.rendered.nodes o.rendered.outlets).reverse := by
  suffices step : ∀ g : FlowGraph,
      (outcomes.foldl (fun g o => g.add o.stage.id o.rendered.nodes o.rendered.outlets) g).stages.map
          (fun s => f s.stage s.nodes s.outlets)
        = (outcomes.map fun o => f o.stage.id o.rendered.nodes o.rendered.outlets).reverse
          ++ g.stages.map (fun s => f s.stage s.nodes s.outlets) by
    simpa [unwired] using step {}
  induction outcomes with
  | nil => exact fun g => rfl
  | cons o rest ih =>
    intro g
    obtain ⟨here, others⟩ := List.forall_mem_cons.mp nodes
    rw [List.foldl_cons, ih others, FlowGraph.add, dif_neg here, List.map_cons, @List.map_cons StageOutcome,
      List.reverse_cons, List.append_assoc]
    rfl

theorem unwiredMatched {os : List StageOutcome} (nodes : ∀ o ∈ os, o.rendered.nodes ≠ []) :
    List.Forall₂ (fun o s =>
        o ∈ os ∧ s.stage = o.stage.id ∧ s.nodes = o.rendered.nodes ∧ s.outlets = o.rendered.outlets)
      os (unwired os).stages.reverse := by
  have stages := unwiredStages (fun stage nodes outlets => (stage, nodes, outlets)) nodes
  rw [← List.reverse_eq_iff, ← List.map_reverse, eq_comm] at stages
  have matched := List.forall₂_eq_eq_eq.symm ▸ stages
  rw [List.forall₂_map_left_iff, List.forall₂_map_right_iff] at matched
  refine (Outcome.matchedAmong matched).imp fun o s both => ?_
  obtain ⟨member, -, same⟩ := both
  simp only [Prod.mk.injEq] at same
  exact ⟨member, same.1.symm, same.2.1.symm, same.2.2.symm⟩

theorem bareUnwired {outcomes : List StageOutcome} (nodes : ∀ o ∈ outcomes, o.rendered.nodes ≠ []) :
    (unwired outcomes).bare = (outcomes.map StageOutcome.bare).reverse :=
  unwiredStages (fun stage nodes outlets => BareStage.mk stage (nodes.map FlowNode.bare) outlets) nodes

theorem stagesLaid {os : List StageOutcome} (nodes : ∀ o ∈ os, o.rendered.nodes ≠ []) (edges : List Edge) :
    List.Forall₂ (fun o s => StageOutcome.bare o = StageNodes.bare s) os
      (layEdges (unwired os) edges).1.stages.reverse := by
  have bare : os.map StageOutcome.bare = (layEdges (unwired os) edges).1.stages.reverse.map StageNodes.bare := by
    rw [List.map_reverse, ← FlowGraph.bare, FlowGraph.bareLaid, bareUnwired nodes, List.reverse_reverse]
  have matched := List.forall₂_eq_eq_eq.symm ▸ bare
  rwa [List.forall₂_map_left_iff, List.forall₂_map_right_iff] at matched

theorem blocksLaid {os : List StageOutcome} (nodes : ∀ o ∈ os, o.rendered.nodes ≠ []) (edges : List Edge) :
    ∃ blocks, (layEdges (unwired os) edges).1.nodes = blocks.flatten
      ∧ List.Forall₂ (fun o block => block.map FlowNode.bare = o.rendered.nodes.map FlowNode.bare) os blocks := by
  refine ⟨(layEdges (unwired os) edges).1.stages.reverse.map (·.nodes), ?_, ?_⟩
  · rw [FlowGraph.nodes, List.flatMap]
  · rw [List.forall₂_map_right_iff]
    exact (stagesLaid nodes edges).imp fun o s same => (congrArg BareStage.nodes same).symm

variable [Regex]

def stageOutcomes (c : Channel) (o : GenerationOptions) (found : List (Except TemplateError Nexon)) :
    List StageOutcome :=
  outcomes (c.renderContext o (CredentialsMap.ofChannel c)) 0 (c.stages.zip found)

theorem stageOutcomesStages (c : Channel) (o : GenerationOptions) {found : List (Except TemplateError Nexon)}
    (all : found.length = c.stages.length) : (c.stageOutcomes o found).map (·.stage) = c.stages := by
  rw [stageOutcomes, outcomesStages]
  exact List.map_fst_zip (Nat.le_of_eq all.symm)

theorem stageOutcomesIds (c : Channel) (o : GenerationOptions) {found : List (Except TemplateError Nexon)}
    (all : found.length = c.stages.length) : (c.stageOutcomes o found).map (·.stage.id) = c.stageIds := by
  rw [stageIds, ← c.stageOutcomesStages o all, List.map_map]
  rfl

theorem stageOutcomesWhole (c : Channel) (o : GenerationOptions) {found : List (Except TemplateError Nexon)}
    (sound : ∀ n, .ok n ∈ found → n.content.Sound) : ∀ r ∈ c.stageOutcomes o found, r.Whole (flowId c.channelId) := by
  refine outcomesWhole _ (fun p member n same => ?_) 0
  exact sound n (same ▸ (List.of_mem_zip member).2)

end Channel

end Conduit
