import Conduit.Pattern
import Conduit.Proofs.NodeNames
import Conduit.Proofs.RenderedNodes
import Conduit.Proofs.ReplacedStages

/-! A flow is closed: its nodes have ids of their own, belong to its tab and lead only to one another, and those of
one stage stand together. Nodes of a nexon may have any type but a blank one, that of a tab too; so the tab of the flow
is the only one just when no nexon that was rendered brings another. -/
namespace Conduit

/-! Nodes that lead only to known ones. -/

namespace FlowNode

variable {flow : String} {known : List String} {n : FlowNode}

theorem portConnected {port : Nat} {target other : String} {targets : List String}
    (member : targets ∈ (n.connect port target).wires) (leads : other ∈ targets) :
    other = target ∨ ∃ before ∈ n.wires, other ∈ before := by
  have padding {before : List String} (padded : before ∈ FlowNode.padded (port + 1) n.wires) (leads : other ∈ before) :
      ∃ before ∈ n.wires, other ∈ before := by
    rcases List.mem_append.mp padded with own | empty
    · exact ⟨before, own, leads⟩
    · rw [List.eq_of_mem_replicate empty] at leads
      cases leads
  obtain ⟨place, within, rfl⟩ := List.mem_iff_getElem.mp member
  simp only [connect, List.getElem_modify] at leads
  split at leads
  · split at leads
    · exact .inr (padding (List.getElem_mem _) leads)
    · rcases List.mem_append.mp leads with before | new
      · exact .inr (padding (List.getElem_mem _) before)
      · exact .inl (List.mem_singleton.mp new)
  · exact .inr (padding (List.getElem_mem _) leads)

theorem Inside.connected (inside : n.Inside flow known) (port : Nat) {target : String} (among : target ∈ known) :
    (n.connect port target).Inside flow known := by
  refine ⟨inside.id, inside.flow, fun targets member other leads => ?_⟩
  rcases portConnected member leads with rfl | ⟨before, own, leads⟩
  · exact among
  · exact inside.wires before own other leads

end FlowNode

namespace Channel

theorem laidInside {flow : String} {os : List StageOutcome}
    (inside : ∀ o ∈ os, ∀ n ∈ o.rendered.nodes, n.Inside flow (o.rendered.nodes.map (·.id))) (edges : List Edge) :
    ∀ n ∈ (layEdges (unwired os) edges).1.nodes, n.Inside flow (os.flatMap (·.rendered.nodes.map (·.id))) := by
  have every : (unwired os).Every (·.Inside flow (os.flatMap (·.rendered.nodes.map (·.id)))) :=
    FlowGraph.unwiredEvery fun o member n node =>
      (inside o member n node).among fun id among => List.mem_flatMap.mpr ⟨o, member, among⟩
  have firsts : ∀ id ∈ (unwired os).firstIds, id ∈ os.flatMap (·.rendered.nodes.map (·.id)) := by
    intro id first
    obtain ⟨s, stage, rfl⟩ := List.mem_map.mp first
    exact (every s stage s.first (List.head_mem _)).id
  exact FlowGraph.everyNode (FlowGraph.laidEvery (fun _ port _ known own => own.connected port known) firsts every edges)

theorem blocksOfBare {β : Type} {f : FlowNode → β} (own : ∀ n, f n.bare = f n) {os : List StageOutcome}
    {blocks : List (List FlowNode)}
    (laid : List.Forall₂ (fun o block => block.map FlowNode.bare = o.rendered.nodes.map FlowNode.bare) os blocks) :
    blocks.flatten.map f = os.flatMap (·.rendered.nodes.map f) := by
  have ofBare (nodes : List FlowNode) : nodes.map f = (nodes.map FlowNode.bare).map f := by
    rw [List.map_map]
    exact List.map_congr_left fun n _ => (own n).symm
  induction laid with
  | nil => rfl
  | cons here _ ih => rw [List.flatten_cons, List.map_append, List.flatMap_cons, ih, ofBare, here, ← ofBare]

end Channel

/-! Elements of the document. -/

def Json.isTab (e : Json) : Bool := e.textAt? "type" = some "tab"

def Artifacts.elements (a : Artifacts) : List Json := a.flows.asArray?.getD []

namespace FlowNode

theorem toJsonId (n : FlowNode) : n.toJson.textAt? "id" = some n.id := by
  simp [toJson, Json.textAt?, Json.member?, Json.field?, Table.getInsert, Json.asString?]

theorem toJsonFlow (n : FlowNode) : n.toJson.textAt? "z" = some n.flow := by
  simp [toJson, Json.textAt?, Json.member?, Json.field?, Table.getInsert, Json.asString?]

theorem toJsonTab (n : FlowNode) : n.toJson.isTab = decide (n.type = "tab") := by
  simp [toJson, Json.isTab, Json.textAt?, Json.member?, Json.field?, Table.getInsert, Json.asString?]

theorem toJsonWires (n : FlowNode) : n.toJson.field? "wires" = some (.arr (n.wires.map .strings)) := by
  simp [toJson, Json.field?, Table.getInsert]

end FlowNode

theorem flowIdNotNode (channel stage node : String) : flowId channel ≠ nodeId stage node := by
  intro same
  have leads := congrArg (fun id : String => id.toList.head?) same
  simp only [flowId, nodeId, deriveId, String.toList_ofList, List.head?_cons] at leads
  exact absurd leads (by decide)

namespace Channel

structure ClosedFlow (c : Channel) (a : Artifacts) (blocks : List (List Json)) : Prop where
  flow : a.flows = .arr (c.tab :: blocks.flatten)
  tab : c.tab.isTab ∧ c.tab.textAt? "id" = some (flowId c.channelId)
  within : ∀ e ∈ blocks.flatten, e.textAt? "z" = some (flowId c.channelId)
  distinct : ((c.tab :: blocks.flatten).map (·.textAt? "id")).Nodup
  wires : ∀ e ∈ blocks.flatten, ∃ ports : List (List String), e.field? "wires" = some (.arr (ports.map .strings))
    ∧ ∀ port ∈ ports, ∀ target ∈ port, ∃ n ∈ blocks.flatten, n.textAt? "id" = some target
  stages : List.Forall₂ (fun s block => block ≠ [] ∧ ∀ e ∈ block, ∃ node, e.textAt? "id" = some (nodeId s.id node))
    c.stages blocks
  counted : a.manifest.field? "nodeCount" = some (.nat blocks.flatten.length)

structure OneTab (a : Artifacts) : Prop where
  only : ∀ e ∈ a.elements.tail, e.isTab = false
  counted : a.manifest.field? "nodeCount" = some (.nat (a.elements.countP fun e => !e.isTab))

def TabFree (c : Channel) (found : List (Except TemplateError Nexon)) (placeholders : List String) : Prop :=
  ∀ p ∈ c.stages.zip found, p.1.id ∉ placeholders → ∀ n, p.2 = .ok n → ∀ t ∈ n.nodes, t.type ≠ "tab"

theorem tabElement (c : Channel) : c.tab.isTab ∧ c.tab.textAt? "id" = some (flowId c.channelId) := by
  simp [tab, Json.isTab, Json.textAt?, Json.member?, Json.field?, Json.ofPairs, Table.getOfList, Json.asString?]

theorem elementsDistinct (c : Channel) {nodes : List FlowNode} (own : ∀ n ∈ nodes, ∃ stage node, n.id = nodeId stage node)
    (distinct : (nodes.map (·.id)).Nodup) :
    ((c.tab :: nodes.map FlowNode.toJson).map (·.textAt? "id")).Nodup := by
  have named : (nodes.map FlowNode.toJson).map (·.textAt? "id") = (nodes.map (·.id)).map some := by
    simp only [List.map_map, Function.comp_def, FlowNode.toJsonId]
  rw [List.map_cons, named, c.tabElement.2]
  refine List.nodup_cons.mpr ⟨fun member => ?_, distinct.map (Option.some_injective _)⟩
  obtain ⟨id, among, same⟩ := List.mem_map.mp member
  rw [Option.some.inj same] at among
  obtain ⟨n, member, same⟩ := List.mem_map.mp among
  obtain ⟨stage, node, id⟩ := own n member
  exact flowIdNotNode _ _ _ (same.symm.trans id)

theorem nodesCounted (c : Channel) (o : GenerationOptions) (credentials : CredentialsMap) (os : List StageOutcome)
    (count : Nat) (placeholders : List String) :
    (c.manifest o credentials os count placeholders).field? "nodeCount" = some (.nat count) := by
  simp [manifest, Json.field?, Json.ofPairs, Table.getOfList]

section

variable [Regex]

theorem generatedClosed {document : Json} {c : Channel} (valid : (validateChannel document).channel = some c)
    (o : GenerationOptions) {found : List (Except TemplateError Nexon)} (all : found.length = c.stages.length)
    (sound : ∀ n, .ok n ∈ found → n.content.Sound) (apart : c.Apart found) :
    ∃ blocks, c.ClosedFlow (c.generateFrom o found).artifacts blocks := by
  have whole := c.stageOutcomesWhole o sound
  obtain ⟨blocks, nodes, laid⟩ := blocksLaid (fun r member => (whole r member).nodes) c.edges
  have ids : blocks.flatten.map (·.id) = (c.stageOutcomes o found).flatMap (·.rendered.nodes.map (·.id)) :=
    blocksOfBare (fun _ => rfl) laid
  have inside : ∀ n ∈ blocks.flatten, n.Inside (flowId c.channelId) (blocks.flatten.map (·.id)) := by
    rw [ids, ← nodes]
    exact laidInside (outcomesEvery (fun p _ index => outcomeInside _ index p.1 p.2) 0) c.edges
  have elements : (blocks.map (·.map FlowNode.toJson)).flatten = blocks.flatten.map FlowNode.toJson := by
    rw [List.map_flatten]
  have matched : List.Forall₂ (fun r block => r.stage.Owns block) (c.stageOutcomes o found) blocks := by
    refine (Outcome.matchedAmong laid).imp fun r block both => ?_
    exact (whole r both.1).laid both.2.2
  refine ⟨blocks.map (·.map FlowNode.toJson), ?_⟩
  constructor
  case flow =>
    rw [elements, ← nodes]
    rfl
  case tab => exact c.tabElement
  case within =>
    rw [elements, List.forall_mem_map]
    exact fun n member => n.toJsonFlow.trans (congrArg some (inside n member).flow)
  case distinct =>
    rw [elements]
    refine c.elementsDistinct (fun n member => ?_) (by rw [ids]; exact stageIdsDistinct valid o all sound apart)
    obtain ⟨block, here, node⟩ := List.mem_flatten.mp member
    obtain ⟨r, -, own⟩ := Outcome.matchedMember matched here
    obtain ⟨template, id⟩ := own.own n node
    exact ⟨_, _, id⟩
  case wires =>
    rw [elements, List.forall_mem_map]
    intro n member
    refine ⟨n.wires, n.toJsonWires, fun port wire target leads => ?_⟩
    obtain ⟨m, among, same⟩ := List.mem_map.mp ((inside n member).wires port wire target leads)
    exact ⟨m.toJson, List.mem_map_of_mem among, m.toJsonId.trans (congrArg some same)⟩
  case stages =>
    rw [List.forall₂_map_right_iff, ← c.stageOutcomesStages o all, List.forall₂_map_left_iff]
    refine matched.imp fun r block own => ⟨fun none => own.nodes (List.map_eq_nil_iff.mp none), ?_⟩
    rw [List.forall_mem_map]
    intro n member
    obtain ⟨node, id⟩ := own.own n member
    exact ⟨node, n.toJsonId.trans (congrArg some id)⟩
  case counted =>
    rw [elements, List.length_map, ← nodes]
    exact c.nodesCounted o _ _ _ _

theorem outcomeTabs (context : RenderContext) (index : Nat) (s : Stage) (found : Except TemplateError Nexon) :
    (∀ n ∈ (outcome context index s found).rendered.nodes, n.type ≠ "tab")
      ↔ ((outcome context index s found).failure = none → ∀ n, found = .ok n → ∀ t ∈ n.nodes, t.type ≠ "tab") := by
  simp only [outcome]
  split
  next rendered made =>
    cases found with
    | error reason => cases made
    | ok nexon =>
      rw [← @List.forall_mem_map _ _ FlowNode.type _ (· ≠ "tab"), Stage.renderTypes made, List.forall_mem_map]
      exact ⟨fun none _ n same => (by cases same; exact none), fun none => none rfl nexon rfl⟩
  next reason _ =>
    refine ⟨fun _ failed => (by cases failed), fun _ => List.forall_mem_singleton.mpr ?_⟩
    exact Placeholder.notTab s.nexonId

theorem tabFree {c : Channel} (distinct : c.stageIds.Nodup) (o : GenerationOptions)
    {found : List (Except TemplateError Nexon)} (all : found.length = c.stages.length) :
    (∀ r ∈ c.stageOutcomes o found, ∀ n ∈ r.rendered.nodes, n.type ≠ "tab")
      ↔ c.TabFree found (c.generateFrom o found).placeholders := by
  have member {p : Stage × Except TemplateError Nexon} {place : Nat} (here : (p, place) ∈ (c.stages.zip found).zipIdx) :
      outcome (c.renderContext o (CredentialsMap.ofChannel c)) place p.1 p.2 ∈ c.stageOutcomes o found := by
    rw [stageOutcomes, outcomesIndexed]
    exact List.mem_map_of_mem (f := fun p => outcome _ p.2 p.1.1 p.1.2) here
  have listed {p : Stage × Except TemplateError Nexon} {place : Nat} (here : (p, place) ∈ (c.stages.zip found).zipIdx) :
      p.1.id ∉ (c.generateFrom o found).placeholders
        ↔ (outcome (c.renderContext o (CredentialsMap.ofChannel c)) place p.1 p.2).failure = none := by
    have one := StageOutcome.listedOne ((c.stageOutcomesIds o all).symm ▸ distinct) (member here)
    rw [outcomeStage] at one
    rw [Option.eq_none_iff_forall_ne_some, ← not_exists]
    exact not_congr one
  constructor
  · intro none p inside fine
    obtain ⟨place, within, rfl⟩ := List.getElem_of_mem inside
    have here := List.mk_mem_zipIdx_iff_getElem?.mpr (List.getElem?_eq_getElem within)
    exact (outcomeTabs _ place _ _).mp (none _ (member here)) ((listed here).mp fine)
  · intro free r among
    rw [stageOutcomes, outcomesIndexed] at among
    obtain ⟨⟨p, place⟩, here, rfl⟩ := List.mem_map.mp among
    exact (outcomeTabs _ place _ _).mpr fun fine => free p (List.fst_mem_of_mem_zipIdx here) ((listed here).mpr fine)

theorem oneTab {c : Channel} (distinct : c.stageIds.Nodup) (o : GenerationOptions)
    {found : List (Except TemplateError Nexon)} (all : found.length = c.stages.length)
    (sound : ∀ n, .ok n ∈ found → n.content.Sound) :
    OneTab (c.generateFrom o found).artifacts ↔ c.TabFree found (c.generateFrom o found).placeholders := by
  obtain ⟨blocks, nodes, laid⟩ := blocksLaid (fun r member => (c.stageOutcomesWhole o sound r member).nodes) c.edges
  have elements : (c.generateFrom o found).artifacts.elements = c.tab :: blocks.flatten.map FlowNode.toJson := by
    rw [← nodes]
    rfl
  have tabs : (∀ n ∈ blocks.flatten, n.type ≠ "tab")
      ↔ ∀ r ∈ c.stageOutcomes o found, ∀ n ∈ r.rendered.nodes, n.type ≠ "tab" := by
    have types := @blocksOfBare _ FlowNode.type (fun _ => rfl) _ _ laid
    rw [← @List.forall_mem_map _ _ FlowNode.type _ (· ≠ "tab"), types, List.forall_mem_flatMap]
    simp only [List.forall_mem_map]
  rw [← c.tabFree distinct o all, ← tabs]
  constructor
  · intro one n member
    have only := one.only n.toJson (by rw [elements]; exact List.mem_map_of_mem member)
    simpa [FlowNode.toJsonTab] using only
  · intro none
    have others : ∀ e ∈ blocks.flatten.map FlowNode.toJson, e.isTab = false := by
      rw [List.forall_mem_map]
      exact fun n member => n.toJsonTab.trans (decide_eq_false (none n member))
    refine ⟨by rw [elements]; exact others, ?_⟩
    have count : (c.generateFrom o found).artifacts.elements.countP (fun e => !e.isTab) = blocks.flatten.length := by
      rw [elements, List.countP_cons_of_neg (by simp [c.tabElement.1]), List.countP_eq_length.mpr, List.length_map]
      exact fun e member => by rw [others e member]; rfl
    rw [count, ← nodes]
    exact c.nodesCounted o _ _ _ _

theorem flowClosed {document : Json} {c : Channel} (valid : (validateChannel document).channel = some c)
    (o : GenerationOptions) (sources : List NexonSource) (clock : Clock) {s : Resolver}
    (holding : s.Holding NexonContent.Sound) (apart : c.Apart (findNexons sources clock s c.stages).1) :
    (∃ blocks, c.ClosedFlow (c.generate o sources clock s).1.artifacts blocks)
      ∧ (OneTab (c.generate o sources clock s).1.artifacts
        ↔ c.TabFree (findNexons sources clock s c.stages).1 (c.generate o sources clock s).1.placeholders) := by
  have all := Resolver.foundLength sources clock s c.stages
  have sound := (@Resolver.foundHolding _ _ sources (fun _ _ => Resolver.fetchedSound) c.stages s clock holding).1
  exact ⟨generatedClosed valid o all sound apart, oneTab (validFrom valid).stages o all sound⟩

end

attribute [local instance] Pattern.engine in
theorem pairClosed : ∃ c, (validateChannel pairDocument).channel = some c
    ∧ (Resolver.ofTtl 1).Holding NexonContent.Sound
    ∧ c.Apart (findNexons (pairSources bothNexons) (.still 0) (.ofTtl 1) c.stages).1
    ∧ (∃ blocks, c.ClosedFlow
      (c.generate {} (pairSources bothNexons) (.still 0) (.ofTtl 1)).1.artifacts blocks)
    ∧ (OneTab (c.generate {} (pairSources bothNexons) (.still 0) (.ofTtl 1)).1.artifacts
      ↔ c.TabFree (findNexons (pairSources bothNexons) (.still 0) (.ofTtl 1) c.stages).1
        (c.generate {} (pairSources bothNexons) (.still 0) (.ofTtl 1)).1.placeholders) := by
  have empty := Resolver.emptyHolding NexonContent.Sound 1
  obtain ⟨c, valid, apart⟩ := pairRendered
  exact ⟨c, valid, empty, apart, flowClosed valid {} _ (.still 0) empty apart⟩

attribute [local instance] Pattern.engine in
theorem tabInTab : ¬ ∀ (document : Json) (c : Channel) (o : GenerationOptions) (files : FileTree) (root : String)
    (clock : Clock) (ttl : Nat), (validateChannel document).channel = some c →
      c.Apart (findNexons [.directory files root] clock (.ofTtl ttl) c.stages).1 →
      (∃ blocks, c.ClosedFlow (c.generate o [.directory files root] clock (.ofTtl ttl)).1.artifacts blocks)
        ∧ OneTab (c.generate o [.directory files root] clock (.ofTtl ttl)).1.artifacts := by
  intro one
  obtain ⟨c, valid, apart, tabs⟩ := @pairChannel [("m", "debug"), ("n", "tab")] (.still 0) (fun c =>
    (c.generate {} (pairSources [("m", "debug"), ("n", "tab")]) (.still 0)
      (.ofTtl 1)).1.artifacts.elements.tail.any (·.isTab))
    (by decide +kernel)
  obtain ⟨e, member, tab⟩ := List.any_eq_true.mp tabs
  rw [(one _ c {} _ "nexons" (.still 0) 1 valid apart).2.only e member] at tab
  cases tab

end Channel

end Conduit
