import Conduit.Proofs.IsolatedStages
import Conduit.Proofs.ReplacedStages
import Mathlib.Data.List.GetD

/-! The laying of edges in closed form. Every stage of a flow has a port for each of its outlets, so no edge opens
one. Where an edge leads is then settled before any edge is laid, and the edges add to each port the targets that
it does not have yet. -/
namespace Conduit

/-! Targets of a port. -/

namespace FlowNode

def reached (own more : List String) : List String := more.foldl (fun targets target => newTarget target targets) own

theorem reachedSplit (own more : List String) :
    ∃ added, reached own more = own ++ added ∧ added.Nodup ∧ ∀ id, id ∈ added ↔ id ∈ more ∧ id ∉ own := by
  induction more using List.reverseRecOn with
  | nil => exact ⟨[], (List.append_nil own).symm, List.nodup_nil, by simp⟩
  | append_singleton more target ih =>
    obtain ⟨added, same, distinct, new⟩ := ih
    have last : reached own (more ++ [target]) = newTarget target (own ++ added) := by
      rw [reached, List.foldl_append, ← same]
      rfl
    rw [last, newTarget]
    split
    next there =>
      refine ⟨added, rfl, distinct, fun id => ?_⟩
      simp only [List.contains_eq_mem, List.mem_append, decide_eq_true_eq, new] at there
      rw [new, List.mem_append, List.mem_singleton]
      constructor
      · rintro ⟨among, other⟩
        exact ⟨.inl among, other⟩
      · rintro ⟨among | rfl, other⟩
        · exact ⟨among, other⟩
        · exact there.resolve_left other
    next absent =>
      simp only [List.contains_eq_mem, List.mem_append, decide_eq_true_eq, not_or] at absent
      obtain ⟨notOwn, notAdded⟩ := absent
      refine ⟨added ++ [target], List.append_assoc .., ?_, fun id => ?_⟩
      · exact List.nodup_append.mpr ⟨distinct, List.nodup_singleton _, by
          rintro id among _ last rfl
          exact notAdded (List.mem_singleton.mp last ▸ among)⟩
      · rw [List.mem_append, List.mem_singleton, List.mem_append, List.mem_singleton, new]
        constructor
        · rintro (⟨among, other⟩ | rfl)
          · exact ⟨.inl among, other⟩
          · exact ⟨.inr rfl, notOwn⟩
        · rintro ⟨among | rfl, other⟩
          · exact .inl ⟨among, other⟩
          · exact .inr rfl

theorem reachedMember {own more : List String} {id : String} : id ∈ reached own more ↔ id ∈ own ∨ id ∈ more := by
  obtain ⟨added, same, -, new⟩ := reachedSplit own more
  rw [same, List.mem_append, new]
  tauto

theorem reachedNothing {own more : List String} (there : ∀ id ∈ more, id ∈ own) : reached own more = own := by
  obtain ⟨added, same, -, new⟩ := reachedSplit own more
  have none : added = [] := List.eq_nil_iff_forall_not_mem.mpr fun id among =>
    ((new id).mp among).2 (there id ((new id).mp among).1)
  rw [same, none, List.append_nil]

theorem reachedPerm (own : List String) {more more' : List String} (perm : more.Perm more') :
    (reached own more).Perm (reached own more') := by
  obtain ⟨added, same, distinct, new⟩ := reachedSplit own more
  obtain ⟨added', same', distinct', new'⟩ := reachedSplit own more'
  rw [same, same']
  refine List.Perm.append_left own ((List.perm_ext_iff_of_nodup distinct distinct').mpr fun id => ?_)
  rw [new, new', perm.mem_iff]

def wired (n : FlowNode) (more : Nat → List String) : FlowNode :=
  { n with wires := n.wires.mapIdx fun port own => reached own (more port) }

theorem wiredPorts (n : FlowNode) (more : Nat → List String) : (n.wired more).wires.length = n.wires.length :=
  List.length_mapIdx

theorem wiredNothing (n : FlowNode) : n.wired (fun _ => []) = n := by
  have wires : n.wires.mapIdx (fun _ own => reached own []) = n.wires :=
    List.ext_getElem List.length_mapIdx fun i _ _ => List.getElem_mapIdx
  rw [wired, wires]

theorem wiredAgain (n : FlowNode) (more later : Nat → List String) :
    (n.wired more).wired later = n.wired fun port => more port ++ later port := by
  simp only [wired, List.mapIdx_mapIdx, reached, List.foldl_append, Function.comp_def]

theorem connectWired {n : FlowNode} {port : Nat} (within : port < n.wires.length) (target : String) :
    n.connect port target = n.wired fun at' => if at' = port then [target] else [] := by
  have whole : padded (port + 1) n.wires = n.wires := by
    rw [padded, Nat.sub_eq_zero_of_le within, List.replicate_zero, List.append_nil]
  have wires : n.wires.modify port (newTarget target)
      = n.wires.mapIdx fun at' own => reached own (if at' = port then [target] else []) := by
    refine List.ext_getElem (by simp) fun i _ _ => ?_
    rw [List.getElem_modify, List.getElem_mapIdx]
    by_cases here : i = port
    · rw [if_pos here.symm, if_pos here]
      rfl
    · rw [if_neg (Ne.symm here), if_neg here]
      rfl
  rw [connect, whole]
  exact congrArg (fun wires => ({ n with wires } : FlowNode)) wires

theorem wiredTargets (n : FlowNode) (more : Nat → List String) {port : Nat} (within : port < n.wires.length) :
    (n.wired more).targets port = reached (n.targets port) (more port) := by
  rw [targets, targets, List.getD_eq_getElem _ _ (by rw [wiredPorts]; exact within), List.getD_eq_getElem _ _ within]
  exact List.getElem_mapIdx

theorem noTargets {n : FlowNode} {port : Nat} (beyond : n.wires.length ≤ port) : n.targets port = [] :=
  List.getD_eq_default _ _ beyond

def lastWired (more : Nat → List String) : List FlowNode → List FlowNode
  | [] => []
  | [last] => [last.wired more]
  | n :: next :: rest => n :: lastWired more (next :: rest)

theorem lastWiredFront (more : Nat → List String) : (nodes : List FlowNode) → (some : nodes ≠ []) →
    nodes.dropLast ++ [(nodes.getLast some).wired more] = lastWired more nodes
  | [_], _ => rfl
  | n :: next :: rest, _ => congrArg (n :: ·) (lastWiredFront more (next :: rest) (List.cons_ne_nil _ _))

theorem lastOfLastWired (more : Nat → List String) (nodes : List FlowNode) :
    (lastWired more nodes).getLast? = nodes.getLast?.map (·.wired more) := by
  by_cases none : nodes = []
  · rw [none]
    rfl
  · rw [← lastWiredFront more nodes none, List.getLast?_concat, List.getLast?_eq_some_getLast none]
    rfl

theorem firstOfLastWired (more : Nat → List String) : (nodes : List FlowNode) →
    firstId? (lastWired more nodes) = firstId? nodes
  | [] => rfl
  | [_] => rfl
  | _ :: _ :: _ => rfl

theorem lastWiredEach {α : Type} {R S : α → FlowNode → Prop} {more : Nat → List String} (stays : ∀ a n, R a n → S a n)
    (wired : ∀ a n, R a n → S a (n.wired more)) {items : List α} {nodes : List FlowNode}
    (each : List.Forall₂ R items nodes) : List.Forall₂ S items (lastWired more nodes) := by
  induction each with
  | nil => exact .nil
  | cons here later ih =>
    cases later with
    | nil => exact .cons (wired _ _ here) .nil
    | cons next rest => exact .cons (stays _ _ here) ih

end FlowNode

/-! Stages. -/

namespace StageNodes

@[simp] theorem lastOfWithLast (s : StageNodes) (n : FlowNode) : (s.withLast n).last = n :=
  List.getLast_append_singleton _

@[simp] theorem withLastAgain (s : StageNodes) (n m : FlowNode) : (s.withLast n).withLast m = s.withLast m := by
  simp only [withLast, List.dropLast_concat]

@[simp] theorem withLastSame (s : StageNodes) : s.withLast s.last = s := by
  simp only [withLast, last, List.dropLast_append_getLast]

def wired (s : StageNodes) (more : Nat → List String) : StageNodes := s.withLast (s.last.wired more)

theorem wiredNothing (s : StageNodes) : s.wired (fun _ => []) = s := by
  rw [wired, FlowNode.wiredNothing, withLastSame]

theorem wiredAgain (s : StageNodes) (more later : Nat → List String) :
    (s.wired more).wired later = s.wired fun port => more port ++ later port := by
  rw [wired, wired, lastOfWithLast, withLastAgain, FlowNode.wiredAgain, wired]

theorem wiredNodes (s : StageNodes) (more : Nat → List String) :
    (s.wired more).nodes = FlowNode.lastWired more s.nodes :=
  FlowNode.lastWiredFront more s.nodes s.nodes_ne_nil

theorem wiredFirst (s : StageNodes) (more : Nat → List String) : (s.wired more).first.id = s.first.id :=
  firstWithLast rfl

def Ported (s : StageNodes) : Prop := max s.outlets.length 1 ≤ s.last.wires.length

theorem wiredPorted (s : StageNodes) (more : Nat → List String) : (s.wired more).Ported ↔ s.Ported := by
  rw [Ported, Ported, wired, lastOfWithLast, FlowNode.wiredPorts]
  rfl

theorem wiredPort (s : StageNodes) (more : Nat → List String) (e : Edge) :
    FlowGraph.port (s.wired more) e = FlowGraph.port s e := by
  have ports : (s.wired more).last.portCount = s.last.portCount := by
    rw [FlowNode.portCount, FlowNode.portCount, wired, lastOfWithLast, FlowNode.wiredPorts]
  simp only [FlowGraph.port, ports]
  rfl

theorem Ported.within {s : StageNodes} (ported : s.Ported) {e : Edge} {i : Nat} (found : FlowGraph.port s e = .ok i) :
    i < s.last.wires.length := by
  rw [Ported] at ported
  simp only [FlowGraph.port] at found
  split at found
  · cases found
    omega
  · split at found
    next bound =>
      cases found
      rw [FlowNode.portCount] at bound
      omega
    next => cases found
  · split at found
    next place =>
      cases found
      have bound : i < s.outlets.length := (List.findIdx?_eq_some_iff_findIdx_eq.mp place).1
      omega
    next => cases found

end StageNodes

/-! Graphs. -/

namespace FlowGraph

def wired (g : FlowGraph) (more : String → Nat → List String) : FlowGraph :=
  ⟨g.stages.map fun s => s.wired (more s.stage)⟩

theorem wiredNothing (g : FlowGraph) : g.wired (fun _ _ => []) = g := by
  simp only [wired, StageNodes.wiredNothing, List.map_id']

theorem wiredAgain (g : FlowGraph) (more later : String → Nat → List String) :
    (g.wired more).wired later = g.wired fun stage port => more stage port ++ later stage port := by
  simp only [wired, List.map_map]
  congr 1
  exact List.map_congr_left fun s _ => s.wiredAgain (more s.stage) (later s.stage)

theorem wiredStage? (g : FlowGraph) (more : String → Nat → List String) (id : String) :
    (g.wired more).stage? id = (g.stage? id).map fun s => s.wired (more s.stage) := by
  rw [stage?, wired, List.find?_map]
  rfl

structure Ready (g : FlowGraph) : Prop where
  distinct : (g.stages.map (·.stage)).Nodup
  ported : ∀ s ∈ g.stages, s.Ported

theorem Ready.wired {g : FlowGraph} (ready : g.Ready) (more : String → Nat → List String) : (g.wired more).Ready := by
  constructor
  · rw [FlowGraph.wired, List.map_map]
    exact ready.distinct
  · rw [FlowGraph.wired, List.forall_mem_map]
    exact fun s member => (s.wiredPorted _).mpr (ready.ported s member)

def lead (g : FlowGraph) (e : Edge) : Except WiringError (Nat × String) :=
  (g.connection e).map fun c => (c.port, c.target)

/-- Where an edge leads does not depend on the edges laid before it. -/
theorem leadWired (g : FlowGraph) (more : String → Nat → List String) (e : Edge) :
    (g.wired more).lead e = g.lead e := by
  simp only [lead, connection, wiredStage?]
  cases g.stage? e.source with
  | none => rfl
  | some s =>
    cases g.stage? e.target with
    | none => rfl
    | some t =>
      simp only [Option.map_some, StageNodes.wiredPort, StageNodes.wiredFirst]
      cases port s e <;> rfl

def aim (g : FlowGraph) (stage : String) (port : Nat) (e : Edge) : Option String :=
  match g.lead e with
  | .ok (leaves, target) => if e.source = stage ∧ leaves = port then some target else none
  | .error _ => none

def aims (g : FlowGraph) (edges : List Edge) (stage : String) (port : Nat) : List String :=
  edges.filterMap (g.aim stage port)

theorem aimsIdle {g : FlowGraph} {e : Edge} {reason : WiringError} (refused : g.lead e = .error reason)
    (before : List Edge) : g.aims (before ++ [e]) = g.aims before := by
  have idle (stage : String) (port : Nat) : g.aim stage port e = none := by rw [aim, refused]
  funext stage port
  rw [aims, List.filterMap_append, List.filterMap_cons_none (idle stage port), List.filterMap_nil, List.append_nil, aims]

def refusal (g : FlowGraph) (e : Edge) : Option FlowIssue :=
  match g.lead e with
  | .ok _ => none
  | .error reason => some (.unwired e.source reason)

theorem aimWired (g : FlowGraph) (more : String → Nat → List String) : (g.wired more).aim = g.aim := by
  funext stage port e
  rw [aim, aim, leadWired]

theorem refusalWired (g : FlowGraph) (more : String → Nat → List String) : (g.wired more).refusal = g.refusal := by
  funext e
  rw [refusal, refusal, leadWired]

theorem updatedOnly {id : String} {f : StageNodes → StageNodes} {stages : List StageNodes}
    (distinct : (stages.map (·.stage)).Nodup) :
    updateStage id f stages = stages.map fun s => if s.stage = id then f s else s := by
  induction stages with
  | nil => rfl
  | cons s rest ih =>
    obtain ⟨fresh, distinct⟩ := List.nodup_cons.mp distinct
    rw [updateStage, List.map_cons]
    split
    next same =>
      have others : rest.map (fun s => if s.stage = id then f s else s) = rest := by
        conv => rhs; rw [← List.map_id rest]
        refine List.map_congr_left fun r member => if_neg fun also => fresh ?_
        exact List.mem_map.mpr ⟨r, member, also.trans same.symm⟩
      rw [others]
    next => rw [ih distinct]

structure Drawn (g : FlowGraph) (e : Edge) (c : Connection) : Prop where
  stage : c.stage = e.source
  port : ∃ s, g.stage? e.source = some s ∧ port s e = .ok c.port
  target : ∃ t, g.stage? e.target = some t ∧ c.target = t.first.id

theorem connectionDrawn {g : FlowGraph} {e : Edge} {c : Connection} (made : g.connection e = .ok c) : g.Drawn e c := by
  unfold connection at made
  split at made
  · cases made
  next s source =>
    split at made
    · cases made
    next t target =>
      obtain ⟨i, ported, same⟩ := Outcome.bindOk.mp made
      cases same
      exact ⟨rfl, ⟨s, source, ported⟩, t, target, rfl⟩

theorem Ready.wire {g : FlowGraph} (ready : g.Ready) {e : Edge} {c : Connection} (made : g.connection e = .ok c) :
    g.wire c = g.wired fun stage port => if e.source = stage ∧ c.port = port then [c.target] else [] := by
  obtain ⟨same, ⟨source, found, ported⟩, -⟩ := connectionDrawn made
  rw [FlowGraph.wire, same, updatedOnly ready.distinct, FlowGraph.wired]
  congr 1
  refine List.map_congr_left fun s member => ?_
  by_cases here : s.stage = e.source
  · have only : s = source := by
      have stage : source.stage = e.source := by simpa using List.find?_some found
      exact List.inj_on_of_nodup_map ready.distinct member (List.mem_of_find?_eq_some found) (here.trans stage.symm)
    have within := (ready.ported source (only ▸ member)).within ported
    rw [if_pos here, StageNodes.wired, only, FlowNode.connectWired within]
    simp only [← only, here, true_and, eq_comm]
  · have nothing (port : Nat) : (if e.source = s.stage ∧ c.port = port then [c.target] else []) = [] :=
      if_neg fun both => here both.1.symm
    rw [if_neg here, funext nothing, StageNodes.wiredNothing]

theorem Ready.laid {g : FlowGraph} (ready : g.Ready) (edges : List Edge) :
    Channel.layEdges g edges = (g.wired (g.aims edges), edges.filterMap g.refusal) := by
  induction edges generalizing g with
  | nil => exact Prod.ext g.wiredNothing.symm rfl
  | cons e rest ih =>
    rw [Channel.layEdges]
    cases made : g.connection e with
    | error reason =>
      have led : g.lead e = .error reason := by rw [lead, made]; rfl
      have refused : g.connect e = .error reason := by rw [connect, made]; rfl
      have idle (stage : String) (port : Nat) : g.aim stage port e = none := by rw [aim, led]
      have warned : g.refusal e = some (.unwired e.source reason) := by rw [refusal, led]
      have same : g.aims (e :: rest) = g.aims rest :=
        funext fun stage => funext fun port => List.filterMap_cons_none (idle stage port)
      simp only [refused, ih ready, same, List.filterMap_cons_some warned]
    | ok c =>
      have led : g.lead e = .ok (c.port, c.target) := by rw [lead, made]; rfl
      have connected : g.connect e = .ok (g.wire c) := by rw [connect, made]; rfl
      have silent : g.refusal e = none := by rw [refusal, led]
      have brings (stage : String) (port : Nat) :
          g.aim stage port e = if e.source = stage ∧ c.port = port then some c.target else none := by rw [aim, led]
      rw [connected, ready.wire made]
      simp only [ih (ready.wired _), wiredAgain, aims, aimWired, refusalWired, List.filterMap_cons_none silent]
      congr 2
      funext stage port
      rw [aims, List.filterMap_cons, brings]
      split_ifs <;> rfl

end FlowGraph

/-! Ports of a stage before any edge is laid. -/

theorem FlowNode.paddedTargets (n : FlowNode) (ports port : Nat) :
    ({ n with wires := padded ports n.wires } : FlowNode).targets port = n.targets port := by
  rw [targets, targets, padded]
  rcases Nat.lt_or_ge port n.wires.length with own | new
  · exact List.getD_append _ _ _ _ own
  · rw [List.getD_append_right _ _ _ _ new, List.getD_eq_default _ _ new, List.getD_eq_getElem?_getD,
      List.getElem?_replicate]
    split <;> rfl

theorem withOutletPortsLast (outlets : List String) : (nodes : List FlowNode) →
    (withOutletPorts outlets nodes).getLast?.map (·.wires.length)
      = nodes.getLast?.map fun last => max (max outlets.length 1) last.wires.length
  | [] => rfl
  | [last] => congrArg some (FlowNode.length_padded _ _)
  | n :: next :: rest => by
    have later := withOutletPortsLast outlets (next :: rest)
    rw [withOutletPorts, List.getLast?_cons_cons]
    cases same : withOutletPorts outlets (next :: rest) with
    | nil => cases rest <;> cases same
    | cons first others =>
      rw [List.getLast?_cons_cons, ← same]
      exact later
    · exact List.cons_ne_nil _ _

theorem NodeTemplate.renderWires [Regex] {context : RenderContext} {s : Stage} {origin : Position} {known : List String}
    {index : Nat} {t : NodeTemplate} {n : FlowNode} {notes : List String}
    (inside : ∀ port ∈ t.wires, ∀ target ∈ port, target ∈ known)
    (rendered : t.render context s origin known index = .ok (n, notes)) :
    n.wires = t.wires.map (·.map (nodeId s.id)) := by
  simp only [render] at rendered
  split at rendered
  next =>
    have same := (Prod.mk.inj (Except.ok.inj rendered)).1
    subst same
    refine List.map_congr_left fun port member => congrArg _ (List.filter_eq_self.mpr fun target leads => ?_)
    simpa using inside port member target leads
  next => cases rendered

theorem NexonContent.Sound.inside [Regex] {c : NexonContent} (sound : c.Sound) :
    ∀ t ∈ c.nodes, ∀ port ∈ t.wires, ∀ target ∈ port, target ∈ c.nodes.map (·.id) := by
  intro t member port wire target leads
  have none := List.flatMap_eq_nil_iff.mp sound.wires t member
  rw [List.map_eq_nil_iff, List.filter_eq_nil_iff] at none
  have known := none target (List.mem_flatten.mpr ⟨port, wire, leads⟩)
  have known : target ∈ nodeIds c.nodes := by simpa using known
  exact (List.mem_filter.mp known).1

namespace Channel

def drawnWires (placeholders : List String) (s : Stage) : Except TemplateError Nexon → List (List (List String))
  | .ok n => if s.id ∈ placeholders then [[[]]] else n.nodes.map fun t => t.wires.map (·.map (nodeId s.id))
  | .error _ => [[[]]]

def declaredPorts (placeholders : List String) (s : Stage) : Except TemplateError Nexon → Nat
  | .ok n => if s.id ∈ placeholders then 1 else max n.manifest.outlets.length 1
  | .error _ => 1

end Channel

structure StageOutcome.Ports (o : StageOutcome) (drawn : List (List (List String))) (declared : Nat) : Prop where
  outlets : max o.rendered.outlets.length 1 = declared
  targets : List.Forall₂ (fun wires n => ∀ port, FlowNode.targets n port = wires.getD port []) drawn o.rendered.nodes
  last : o.rendered.nodes.getLast?.map (·.wires.length) = drawn.getLast?.map fun wires => max declared wires.length

def lastPorts (wires : List (List (List String))) : Nat := (wires.getLast?.map (·.length)).getD 0

theorem StageOutcome.Ports.count {o : StageOutcome} {drawn : List (List (List String))} {declared : Nat}
    (ports : o.Ports drawn declared) {s : StageNodes} (same : s.nodes = o.rendered.nodes) :
    s.last.wires.length = max declared (lastPorts drawn) := by
  have last := ports.last
  rw [← same, List.getLast?_eq_some_getLast s.nodes_ne_nil, Option.map_some, eq_comm, Option.map_eq_some_iff] at last
  obtain ⟨wires, found, count⟩ := last
  rw [lastPorts, found]
  exact count.symm

theorem Stage.renderPorts [Regex] {s : Stage} {context : RenderContext} {origin : Position} {n : Nexon}
    {r : RenderedStage} (sound : n.content.Sound) (rendered : s.render context origin n = .ok r) :
    (StageOutcome.mk s r none).Ports (n.nodes.map fun t => t.wires.map (·.map (nodeId s.id)))
      (max n.manifest.outlets.length 1) := by
  obtain ⟨params, nodes, source⟩ := renderSource rendered
  obtain ⟨more, filled⟩ := source.filled
  have each := ((List.forall₂_and_left n.nodes nodes).mpr ⟨sound.inside, NodeTemplate.renderAllEach filled⟩).imp
    fun t node ⟨inside, index, notes, made⟩ => NodeTemplate.renderWires inside made
  constructor
  case outlets => rw [source.outlets]
  case targets =>
    rw [source.nodes, List.forall₂_map_left_iff]
    refine withOutletPortsEach (fun t node ports same port => ?_) _ (each.imp fun t node same port => ?_)
    · rw [FlowNode.paddedTargets, same]
    · rw [FlowNode.targets, same]
  case last =>
    have wires : List.Forall₂ (· = ·) (n.nodes.map fun t => t.wires.map (·.map (nodeId s.id)))
        (nodes.map (·.wires)) := by
      rw [List.forall₂_map_left_iff, List.forall₂_map_right_iff]
      exact each.imp fun t node same => same.symm
    rw [List.forall₂_eq_eq_eq] at wires
    rw [source.nodes, withOutletPortsLast, wires, List.getLast?_map, Option.map_map]
    rfl

namespace Channel

theorem outcomePorts [Regex] (context : RenderContext) (index : Nat) {s : Stage} {found : Except TemplateError Nexon}
    {placeholders : List String} (sound : ∀ n, found = .ok n → n.content.Sound)
    (listed : s.id ∈ placeholders ↔ ∃ reason, (outcome context index s found).failure = some reason) :
    (outcome context index s found).Ports (drawnWires placeholders s found) (declaredPorts placeholders s found) := by
  simp only [outcome] at listed ⊢
  split at listed
  next rendered made =>
    have shown : s.id ∉ placeholders := by simpa using listed
    cases found with
    | error reason => cases made
    | ok n =>
      rw [drawnWires, declaredPorts, if_neg shown, if_neg shown]
      exact Stage.renderPorts (sound n rfl) made
  next reason _ =>
    have replaced : s.id ∈ placeholders := listed.mpr ⟨reason, rfl⟩
    have one : drawnWires placeholders s found = [[[]]] ∧ declaredPorts placeholders s found = 1 := by
      cases found with
      | error _ => exact ⟨rfl, rfl⟩
      | ok n => exact ⟨if_pos replaced, if_pos replaced⟩
    rw [one.1, one.2]
    exact ⟨rfl, .cons (fun port => rfl) .nil, rfl⟩

end Channel

/-! The flow. -/

namespace FlowGraph

theorem Ready.stage? {g : FlowGraph} (ready : g.Ready) {s : StageNodes} (member : s ∈ g.stages) :
    g.stage? s.stage = some s := by
  have known : s.stage ∈ g.stageIds := List.mem_map_of_mem (f := BareStage.stage) (List.mem_map_of_mem member)
  obtain ⟨t, found⟩ := stageFound known
  have same : t.stage = s.stage := by simpa using List.find?_some found
  rw [found, List.inj_on_of_nodup_map ready.distinct (List.mem_of_find?_eq_some found) member same]

theorem Ready.leadIndex {g : FlowGraph} (ready : g.Ready) {s t : StageNodes} (source : s ∈ g.stages)
    (target : t ∈ g.stages) {e : Edge} (leaves : s.stage = e.source) (reaches : t.stage = e.target) {i : Nat}
    (numbered : e.outlet = some (.index i)) :
    g.lead e = if i < s.last.wires.length then .ok (i, t.first.id)
      else .error (.outOfRange e.id e.source s.last.wires.length i) := by
  have ports : s.last.portCount = s.last.wires.length := by
    have ported := ready.ported s source
    rw [StageNodes.Ported] at ported
    rw [FlowNode.portCount]
    omega
  rw [lead, connection, ← leaves, ready.stage? source, ← reaches, ready.stage? target]
  simp only [port, numbered, ports, leaves]
  split <;> rfl

theorem aimDrawn {g : FlowGraph} {stage : String} {port : Nat} {e : Edge} {id : String}
    (aims : g.aim stage port e = some id) :
    e.source = stage ∧ ∃ t, g.stage? e.target = some t ∧ id = t.first.id := by
  unfold aim at aims
  split at aims
  next leaves target led =>
    obtain ⟨⟨from', -⟩, same⟩ := Option.ite_none_right_eq_some.mp aims
    cases same
    obtain ⟨c, made, same⟩ := Outcome.mapOk.mp led
    cases same
    exact ⟨from', (connectionDrawn made).target⟩
  next => cases aims

end FlowGraph

namespace Channel

def wiredBlocks (os : List StageOutcome) (edges : List Edge) : List (List FlowNode) :=
  os.map fun o => FlowNode.lastWired ((unwired os).aims edges o.stage.id) o.rendered.nodes

section

variable {os : List StageOutcome} (nodes : ∀ o ∈ os, o.rendered.nodes ≠ []) (distinct : (os.map (·.stage.id)).Nodup)
  (ported : ∀ o ∈ os, ∃ drawn declared, o.Ports drawn declared)
include nodes

theorem unwiredMember {s : StageNodes} (member : s ∈ (unwired os).stages) :
    ∃ o ∈ os, s.stage = o.stage.id ∧ s.nodes = o.rendered.nodes ∧ s.outlets = o.rendered.outlets := by
  obtain ⟨o, among, -, drawn⟩ := Outcome.matchedMember (unwiredMatched nodes) (List.mem_reverse.mpr member)
  exact ⟨o, among, drawn⟩

theorem unwiredStage {o : StageOutcome} (member : o ∈ os) :
    ∃ s ∈ (unwired os).stages, s.stage = o.stage.id ∧ s.nodes = o.rendered.nodes := by
  obtain ⟨s, among, -, stage, nodes, -⟩ := Outcome.matchedMember (unwiredMatched nodes).flip member
  exact ⟨s, List.mem_reverse.mp among, stage, nodes⟩

include distinct ported

theorem unwiredReady : (unwired os).Ready := by
  constructor
  · rw [unwiredStages (fun stage _ _ => stage) nodes]
    exact List.nodup_reverse.mpr distinct
  · intro s member
    obtain ⟨o, among, -, same, outlets⟩ := unwiredMember nodes member
    obtain ⟨drawn, declared, ports⟩ := ported o among
    rw [StageNodes.Ported, outlets, ports.outlets, ports.count same]
    exact Nat.le_max_left _ _

theorem blocksWired (edges : List Edge) :
    (layEdges (unwired os) edges).1.stages.reverse.map (·.nodes) = wiredBlocks os edges := by
  have stages := unwiredStages (fun stage nodes _ =>
    FlowNode.lastWired ((unwired os).aims edges stage) nodes) nodes
  rw [(unwiredReady nodes distinct ported).laid, FlowGraph.wired, List.map_reverse, List.map_map]
  simp only [Function.comp_def, StageNodes.wiredNodes, stages, List.reverse_reverse, wiredBlocks]

end

variable [Regex] {c : Channel} (coherent : c.Coherent) (o : GenerationOptions)
  {found : List (Except TemplateError Nexon)}
  (all : found.length = c.stages.length) (sound : ∀ n, .ok n ∈ found → n.content.Sound)
include coherent all sound

theorem stageOutcomesPorts :
    List.Forall₂ (fun p r => r.stage = p.1
        ∧ r.Ports (drawnWires (c.generateFrom o found).placeholders p.1 p.2)
          (declaredPorts (c.generateFrom o found).placeholders p.1 p.2))
      (c.stages.zip found) (c.stageOutcomes o found) := by
  have distinct : ((c.stageOutcomes o found).map (·.stage.id)).Nodup := by
    rw [c.stageOutcomesIds o all]
    exact coherent.stages
  have each := outcomesMatched (c.renderContext o (CredentialsMap.ofChannel c)) 0 (c.stages.zip found)
  refine (Outcome.matchedAmong each).imp fun p r ⟨pair, member, place, same⟩ => ?_
  have stage : r.stage = p.1 := by rw [same, outcomeStage]
  have listed := StageOutcome.listedOne distinct member
  rw [stage] at listed
  refine ⟨stage, ?_⟩
  subst same
  exact outcomePorts _ place (fun n found => sound n (found ▸ (List.of_mem_zip pair).2)) listed

theorem stageOutcomesReady : (unwired (c.stageOutcomes o found)).Ready := by
  refine unwiredReady (fun r member => (c.stageOutcomesWhole o sound r member).nodes) ?_ fun r member => ?_
  · rw [c.stageOutcomesIds o all]
    exact coherent.stages
  · obtain ⟨p, -, -, ports⟩ := Outcome.matchedMember (stageOutcomesPorts coherent o all sound) member
    exact ⟨_, _, ports⟩

theorem generatedWired :
    c.Laid (c.generateFrom o found).artifacts (wiredBlocks (c.stageOutcomes o found) c.edges) := by
  rw [← blocksWired (fun r member => (c.stageOutcomesWhole o sound r member).nodes) ?_ fun r member => ?_]
  · exact generatedLaid o all sound
  · rw [c.stageOutcomesIds o all]
    exact coherent.stages
  · obtain ⟨p, -, -, ports⟩ := Outcome.matchedMember (stageOutcomesPorts coherent o all sound) member
    exact ⟨_, _, ports⟩

omit coherent sound in
theorem blockOf {r : StageOutcome} (member : r ∈ c.stageOutcomes o found) (edges : List Edge) :
    (r.stage.id, FlowNode.lastWired ((unwired (c.stageOutcomes o found)).aims edges r.stage.id) r.rendered.nodes)
      ∈ c.stageIds.zip (wiredBlocks (c.stageOutcomes o found) edges) := by
  rw [← c.stageOutcomesIds o all, wiredBlocks, List.zip_map']
  exact List.mem_map.mpr ⟨r, member, rfl⟩

end Channel

end Conduit
