import Conduit.Proofs.LaidPorts

/-! Edges by numbered outlets. What bounds the number are the ports of the last node of the source: those that the
manifest declares, or those that the nexon wired if there are more. So the manifest alone bounds it just when the
number is below what is declared, or not below what is wired. -/
namespace Conduit

def WiringError.edge : WiringError → String
  | .unknownSource edge => edge
  | .unknownTarget edge => edge
  | .outOfRange edge .. => edge
  | .unknownOutlet edge .. => edge

def FlowIssue.names (edge : String) : FlowIssue → Bool
  | .unwired _ reason => reason.edge = edge
  | _ => false

theorem StageOutcome.issuesNameNone (o : StageOutcome) (edge : String) : ∀ i ∈ o.issues, i.names edge = false := by
  intro i member
  rcases List.mem_append.mp member with replaced | noted
  · obtain ⟨_, -, rfl⟩ := Option.map_eq_some_iff.mp (Option.mem_toList.mp replaced)
    rfl
  · obtain ⟨_, -, rfl⟩ := List.mem_map.mp noted
    rfl

namespace FlowGraph

variable {g : FlowGraph}

theorem connectionNames {e : Edge} {reason : WiringError} (refused : g.connection e = .error reason) :
    reason.edge = e.id := by
  unfold connection at refused
  split at refused
  · cases refused
    rfl
  · split at refused
    · cases refused
      rfl
    · rcases Outcome.bindError.mp refused with ported | ⟨_, -, passed⟩
      · simp only [port] at ported
        split at ported
        · cases ported
        · split at ported <;> cases ported
          rfl
        · split at ported <;> cases ported
          rfl
      · cases passed

theorem refusalNames {e : Edge} {i : FlowIssue} (refused : g.refusal e = some i) (edge : String) :
    i.names edge = decide (e.id = edge) := by
  unfold refusal at refused
  split at refused
  · cases refused
  next reason led =>
    cases refused
    have made : g.connection e = .error reason := by
      unfold lead at led
      cases made : g.connection e with
      | ok c => rw [made] at led; cases led
      | error other => rw [made] at led; cases led; rfl
    rw [FlowIssue.names, connectionNames made]

theorem refusedOthers {edges : List Edge} {edge : String} (others : ∀ e ∈ edges, e.id ≠ edge) :
    (edges.filterMap g.refusal).filter (·.names edge) = [] := by
  refine List.filter_eq_nil_iff.mpr fun i member => ?_
  obtain ⟨e, among, refused⟩ := List.mem_filterMap.mp member
  rw [refusalNames refused, decide_eq_true_eq]
  exact others e among

theorem refusedOne {edges : List Edge} (distinct : (edges.map (·.id)).Nodup) {e : Edge} (member : e ∈ edges) :
    (edges.filterMap g.refusal).filter (·.names e.id) = (g.refusal e).toList := by
  obtain ⟨before, after, rfl⟩ := List.append_of_mem member
  rw [List.map_append, List.map_cons, List.nodup_middle, ← List.map_append] at distinct
  have others := (List.nodup_cons.mp distinct).1
  have apart : ∀ other ∈ before ++ after, other.id ≠ e.id := fun other among same =>
    others (same ▸ List.mem_map_of_mem among)
  obtain ⟨early, late⟩ := List.forall_mem_append.mp apart
  rw [List.filterMap_append, List.filter_append, refusedOthers early, List.nil_append, List.filterMap_cons]
  cases refused : g.refusal e with
  | none => exact refusedOthers late
  | some i =>
    have own : i.names e.id = true := (refusalNames refused e.id).trans (decide_eq_true rfl)
    exact (List.filter_cons_of_pos own).trans (congrArg _ (refusedOthers late))

end FlowGraph

namespace Channel

def withEdges (c : Channel) (edges : List Edge) : Channel := { c with edges }

def Leads (c : Channel) (blocks : List (List FlowNode)) (e : Edge) (port : Nat) : Prop :=
  ∃ source target, (e.source, source) ∈ c.stageIds.zip blocks ∧ (e.target, target) ∈ c.stageIds.zip blocks
    ∧ ∃ last ∈ source.getLast?, ∃ id ∈ FlowNode.firstId? target, id ∈ last.targets port

/-- An edge by a numbered outlet is laid without a warning when the number is below a bound; else it is warned of once,
and the nodes are after it what they were before. -/
structure BoundedBy (c : Channel) (run : Channel → Generation) (blocks : List (List FlowNode)) (e : Edge)
    (outlet bound : Nat) : Prop where
  accepted : c.Leads blocks e outlet ∧ (run c).issues.filter (·.names e.id) = [] ↔ outlet < bound
  refused : bound ≤ outlet → ((run c).issues.filter (·.names e.id)).length = 1
    ∧ ∀ before after, c.edges = before ++ e :: after →
      (run (c.withEdges (before ++ [e]))).artifacts.flows = (run (c.withEdges before)).artifacts.flows

theorem BoundedBy.sameBound {c : Channel} {run : Channel → Generation} {blocks : List (List FlowNode)} {e : Edge}
    {outlet bound other : Nat} (bounded : c.BoundedBy run blocks e outlet bound) :
    c.BoundedBy run blocks e outlet other ↔ (outlet < other ↔ outlet < bound) := by
  constructor
  · exact fun also => also.accepted.symm.trans bounded.accepted
  · exact fun same => ⟨bounded.accepted.trans same.symm, fun beyond => bounded.refused (by omega)⟩

section

variable [Regex] {c : Channel} (coherent : c.Coherent) (o : GenerationOptions)
  {found : List (Except TemplateError Nexon)}
  (all : found.length = c.stages.length) (sound : ∀ n, .ok n ∈ found → n.content.Sound)
include coherent all sound

theorem issuesLaid (edges : List Edge) : ((c.withEdges edges).generateFrom o found).issues
    = (c.stageOutcomes o found).flatMap StageOutcome.issues
      ++ edges.filterMap (unwired (c.stageOutcomes o found)).refusal := by
  have issues : ((c.withEdges edges).generateFrom o found).issues
      = (c.stageOutcomes o found).flatMap StageOutcome.issues
        ++ (layEdges (unwired (c.stageOutcomes o found)) edges).2 := rfl
  rw [issues, (stageOutcomesReady coherent o all sound).laid]

theorem issuesNamed {e : Edge} (edge : e ∈ c.edges) :
    (c.generateFrom o found).issues.filter (·.names e.id) = ((unwired (c.stageOutcomes o found)).refusal e).toList := by
  have issues : (c.generateFrom o found).issues = _ := issuesLaid coherent o all sound c.edges
  have none : ((c.stageOutcomes o found).flatMap StageOutcome.issues).filter (·.names e.id) = [] := by
    refine List.filter_eq_nil_iff.mpr fun i member => ?_
    obtain ⟨r, -, here⟩ := List.mem_flatMap.mp member
    rw [r.issuesNameNone e.id i here]
    exact Bool.false_ne_true
  rw [issues, List.filter_append, none, List.nil_append, FlowGraph.refusedOne coherent.edges edge]

theorem ledThere {e : Edge} (edge : e ∈ c.edges) {port : Nat} {id : String}
    (led : (unwired (c.stageOutcomes o found)).lead e = .ok (port, id)) :
    c.Leads (wiredBlocks (c.stageOutcomes o found) c.edges) e port := by
  have nodes : ∀ r ∈ c.stageOutcomes o found, r.rendered.nodes ≠ [] := fun r member =>
    (c.stageOutcomesWhole o sound r member).nodes
  obtain ⟨connection, made, same⟩ := Outcome.mapOk.mp led
  cases same
  obtain ⟨-, ⟨s, source, ported⟩, t, target, reaches⟩ := FlowGraph.connectionDrawn made
  have inside := List.mem_of_find?_eq_some source
  obtain ⟨r, among, name, own, -⟩ := unwiredMember nodes inside
  obtain ⟨r', among', name', own', -⟩ := unwiredMember nodes (List.mem_of_find?_eq_some target)
  have leaves : s.stage = e.source := by simpa using List.find?_some source
  have reached : t.stage = e.target := by simpa using List.find?_some target
  have aims : (unwired (c.stageOutcomes o found)).aim e.source connection.port e = some t.first.id := by
    rw [FlowGraph.aim, led]
    exact (if_pos ⟨rfl, rfl⟩).trans (congrArg some reaches)
  have here := c.blockOf o all among c.edges
  have there := c.blockOf o all among' c.edges
  rw [← name, leaves] at here
  rw [← name', reached] at there
  refine ⟨_, _, here, there, s.last.wired ((unwired (c.stageOutcomes o found)).aims c.edges e.source), ?_,
    t.first.id, ?_, ?_⟩
  · rw [FlowNode.lastOfLastWired, ← own, List.getLast?_eq_some_getLast s.nodes_ne_nil]
    rfl
  · rw [FlowNode.firstOfLastWired, ← own']
    exact t.firstOfNodes
  · have within := ((stageOutcomesReady coherent o all sound).ported s inside).within ported
    rw [FlowNode.wiredTargets _ _ within, FlowNode.reachedMember]
    exact .inr (List.mem_filterMap.mpr ⟨e, edge, aims⟩)

theorem edgeBounded {e : Edge} (edge : e ∈ c.edges) {p : Stage × Except TemplateError Nexon}
    (pair : p ∈ c.stages.zip found) (leaves : p.1.id = e.source) {i : Nat} (numbered : e.outlet = some (.index i)) :
    c.BoundedBy (fun d => d.generateFrom o found) (wiredBlocks (c.stageOutcomes o found) c.edges) e i
      (max (declaredPorts (c.generateFrom o found).placeholders p.1 p.2)
        (lastPorts (drawnWires (c.generateFrom o found).placeholders p.1 p.2))) := by
  have nodes : ∀ r ∈ c.stageOutcomes o found, r.rendered.nodes ≠ [] := fun r member =>
    (c.stageOutcomesWhole o sound r member).nodes
  have ready := stageOutcomesReady coherent o all sound
  have named := issuesNamed coherent o all sound edge
  obtain ⟨r, source, stage, ports⟩ := Outcome.matchedMember (stageOutcomesPorts coherent o all sound).flip pair
  obtain ⟨r', target, reaches⟩ : ∃ r' ∈ c.stageOutcomes o found, r'.stage.id = e.target := by
    have known := (coherent.ends e edge).2
    rw [← c.stageOutcomesIds o all] at known
    exact List.mem_map.mp known
  obtain ⟨s, inside, name, own⟩ := unwiredStage nodes source
  obtain ⟨t, inside', name', -⟩ := unwiredStage nodes target
  have led := ready.leadIndex inside inside' (name.trans (stage ▸ leaves)) (name'.trans reaches) numbered
  rw [← ports.count own]
  by_cases within : i < s.last.wires.length
  · rw [if_pos within] at led
    have silent : (unwired (c.stageOutcomes o found)).refusal e = none := by rw [FlowGraph.refusal, led]
    rw [silent] at named
    refine ⟨iff_of_true ⟨ledThere coherent o all sound edge led, named⟩ within, fun beyond => ?_⟩
    exact absurd within (Nat.not_lt.mpr beyond)
  · rw [if_neg within] at led
    have warned : (unwired (c.stageOutcomes o found)).refusal e
        = some (.unwired e.source (.outOfRange e.id e.source s.last.wires.length i)) := by rw [FlowGraph.refusal, led]
    rw [warned] at named
    refine ⟨iff_of_false (fun both => ?_) within, fun _ => ⟨congrArg List.length named, fun before after _ => ?_⟩⟩
    · cases named.symm.trans both.2
    · have flows (edges : List Edge) : ((c.withEdges edges).generateFrom o found).artifacts.flows
          = .arr (c.tab :: (layEdges (unwired (c.stageOutcomes o found)) edges).1.nodes.map FlowNode.toJson) := rfl
      simp only [flows, ready.laid, FlowGraph.aimsIdle led]

end

theorem outletsBounded [Regex] {document : Json} {c : Channel}
    (valid : (validateChannel document).channel = some c) (o : GenerationOptions)
    (sources : List NexonSource) (clock : Clock) {s : Resolver} (holding : s.Holding NexonContent.Sound) :
    let run (d : Channel) : Generation := (d.generate o sources clock s).1
    ∃ blocks, c.Laid (run c).artifacts blocks
      ∧ ∀ e ∈ c.edges, ∀ p ∈ c.stages.zip (findNexons sources clock s c.stages).1, p.1.id = e.source →
        ∀ i, e.outlet = some (.index i) →
          let declared := declaredPorts (run c).placeholders p.1 p.2
          let wired := lastPorts (drawnWires (run c).placeholders p.1 p.2)
          c.BoundedBy run blocks e i (max declared wired)
            ∧ (c.BoundedBy run blocks e i declared ↔ i < declared ∨ wired ≤ i) := by
  intro run
  have coherent := errorsNone.mp (validFrom valid).issues
  have all := Resolver.foundLength sources clock s c.stages
  have sound := (@Resolver.foundHolding _ _ sources (fun _ _ => Resolver.fetchedSound) c.stages s clock holding).1
  refine ⟨_, generatedWired coherent o all sound, fun e edge p pair leaves i numbered => ?_⟩
  intro declared wired
  have reached := edgeBounded coherent o all sound edge pair leaves numbered
  have bounded : c.BoundedBy run _ e i (max declared wired) := ⟨reached.accepted, reached.refused⟩
  exact ⟨bounded, bounded.sameBound.trans (by omega)⟩

/-! A nexon without outlets whose node has two ports, and an edge by the second. -/

attribute [local instance] Pattern.engine

def wideDocument : Json :=
  let stage (id : String) : Json :=
    .ofPairs [("id", .str id), ("nexonId", .str "n"), ("nexonVersion", .str "1.0.0")]
  .ofPairs
    [("channelId", .str "c"), ("title", .str "t"), ("stages", .arr [stage "a", stage "b"]),
     ("edges", .arr [.ofPairs [("id", .str "e"),
        ("from", .ofPairs [("stageId", .str "a"), ("outlet", .nat 1)]), ("to", .ofPairs [("stageId", .str "b")])]])]

def wideNexons : FileTree where
  nodes := [(["nexons", "n", "1.0.0.json"], .file (Text.utf8 (Json.compact (.ofPairs
    [("manifest", .ofPairs [("id", .str "n"), ("version", .str "1.0.0"), ("title", .str "N"),
        ("capabilities", .ofPairs []), ("parameters", .ofPairs [])]),
     ("template", .arr [.ofPairs
        [("id", .str "x"), ("type", .str "debug"), ("wires", .arr [.arr [], .arr []])]])]))))]

def wideSources : List NexonSource := [.directory wideNexons "nexons"]

def wideRun (c : Channel) : Generation := (c.generate {} wideSources (.still 0) (.ofTtl 1)).1

theorem wideLaid : ∃ c, (validateChannel wideDocument).channel = some c
    ∧ ∃ e ∈ c.edges, ∃ p ∈ c.stages.zip (findNexons wideSources (.still 0) (.ofTtl 1) c.stages).1, p.1.id = e.source
      ∧ e.outlet = some (.index 1) ∧ declaredPorts (wideRun c).placeholders p.1 p.2 = 1
      ∧ lastPorts (drawnWires (wideRun c).placeholders p.1 p.2) = 2
      ∧ (wideRun c).issues.filter (·.names e.id) = [] := by
  have checked : (validateChannel wideDocument).channel.any fun c => c.edges.any fun e =>
      (c.stages.zip (findNexons wideSources (.still 0) (.ofTtl 1) c.stages).1).any fun p => p.1.id = e.source
        && e.outlet = some (.index 1) && declaredPorts (wideRun c).placeholders p.1 p.2 = 1
        && lastPorts (drawnWires (wideRun c).placeholders p.1 p.2) = 2
        && ((wideRun c).issues.filter (·.names e.id)).isEmpty := by decide +kernel
  obtain ⟨c, valid, checked⟩ := (Option.any_eq_true _ _).mp checked
  obtain ⟨e, edge, checked⟩ := List.any_eq_true.mp checked
  obtain ⟨p, pair, checked⟩ := List.any_eq_true.mp checked
  simp only [Bool.and_eq_true, decide_eq_true_eq, List.isEmpty_iff] at checked
  obtain ⟨⟨⟨⟨leaves, numbered⟩, declared⟩, wired⟩, silent⟩ := checked
  exact ⟨c, valid, e, edge, p, pair, leaves, numbered, declared, wired, silent⟩

theorem wideBounded : ∃ c, (validateChannel wideDocument).channel = some c
    ∧ (Resolver.ofTtl 1).Holding NexonContent.Sound
    ∧ ∃ blocks, ∃ e ∈ c.edges, c.BoundedBy wideRun blocks e 1 2 := by
  obtain ⟨c, valid, e, edge, p, pair, leaves, numbered, declared, wired, -⟩ := wideLaid
  have empty := Resolver.emptyHolding NexonContent.Sound 1
  obtain ⟨blocks, -, each⟩ := outletsBounded valid {} wideSources (.still 0) empty
  have bounded := (each e edge p pair leaves 1 numbered).1
  simp only [wideRun] at declared wired
  rw [declared, wired] at bounded
  exact ⟨c, valid, empty, blocks, e, edge, bounded⟩

theorem wideUnbounded : ¬ ∀ (document : Json) (c : Channel) (o : GenerationOptions) (sources : List NexonSource)
    (clock : Clock) (ttl : Nat), (validateChannel document).channel = some c →
      let run (d : Channel) : Generation := (d.generate o sources clock (.ofTtl ttl)).1
      ∃ blocks, c.Laid (run c).artifacts blocks
        ∧ ∀ e ∈ c.edges, ∀ p ∈ c.stages.zip (findNexons sources clock (.ofTtl ttl) c.stages).1, p.1.id = e.source →
          ∀ i, e.outlet = some (.index i) →
            c.BoundedBy run blocks e i (declaredPorts (run c).placeholders p.1 p.2) := by
  intro bounded
  obtain ⟨c, valid, e, edge, p, pair, leaves, numbered, declared, -, silent⟩ := wideLaid
  obtain ⟨blocks, -, each⟩ := bounded wideDocument c {} wideSources (.still 0) 1 valid
  have once := ((each e edge p pair leaves 1 numbered).refused (Nat.le_of_eq declared)).1
  exact absurd (once.symm.trans (congrArg List.length silent)) (by decide)

end Channel

end Conduit
