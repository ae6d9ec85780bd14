import Conduit.Proofs.LaidEdges

/-! Two graphs of which some stages are not compared. Edges may reach those, and may leave them, in one graph and not
in the other; the other stages still lead to the same nodes, but for the first nodes of stages that are not compared. -/
namespace Conduit

/-! Nodes apart from some of their wires. -/

def targetsWithout (ids targets : List String) : List String := targets.filter fun target => !ids.contains target

def FlowNode.without (ids : List String) (n : FlowNode) : FlowNode :=
  { n with wires := n.wires.map (targetsWithout ids) }

namespace FlowNode

theorem modifyMapped {α β : Type} {f : α → β} {g : α → α} {h : β → β} (commutes : ∀ a, f (g a) = h (f a)) (i : Nat)
    (items : List α) : (items.modify i g).map f = (items.map f).modify i h := by
  induction items generalizing i with
  | nil => cases i <;> rfl
  | cons a rest ih =>
    cases i with
    | zero => simp only [List.modify_zero_cons, List.map_cons, commutes]
    | succ i => simp only [List.modify_succ_cons, List.map_cons, ih]

variable {ids : List String} {n : FlowNode} {target : String}

theorem withoutPorts (ids : List String) (n : FlowNode) : (n.without ids).wires.length = n.wires.length := by
  rw [without, List.length_map]

theorem paddedWithout (ids : List String) (ports : Nat) (wires : List (List String)) :
    (padded ports wires).map (targetsWithout ids) = padded ports (wires.map (targetsWithout ids)) := by
  rw [padded, padded, List.map_append, List.map_replicate, List.length_map]
  rfl

def newTarget (target : String) (targets : List String) : List String :=
  if targets.contains target then targets else targets ++ [target]

theorem newTargetOther (other : target ∉ ids) (targets : List String) :
    targetsWithout ids (newTarget target targets) = newTarget target (targetsWithout ids targets) := by
  have among : (targetsWithout ids targets).contains target = targets.contains target := by
    simp [targetsWithout, other]
  rw [newTarget, newTarget, among]
  split
  · rfl
  · simp [targetsWithout, other]

theorem newTargetOwn (own : target ∈ ids) (targets : List String) :
    targetsWithout ids (newTarget target targets) = targetsWithout ids targets := by
  rw [newTarget]
  split
  · rfl
  · simp [targetsWithout, own]

theorem connectOther (other : target ∉ ids) (port : Nat) :
    (n.connect port target).without ids = (n.without ids).connect port target := by
  have wires := modifyMapped (newTargetOther other) port (padded (port + 1) n.wires)
  rw [paddedWithout] at wires
  exact congrArg (fun wires => ({ n with wires } : FlowNode)) wires

theorem connectOwn (own : target ∈ ids) (port : Nat) :
    (n.connect port target).without ids = { n.without ids with wires := padded (port + 1) (n.without ids).wires } := by
  have wires := @modifyMapped _ _ _ _ (fun targets => targets) (newTargetOwn own) port (padded (port + 1) n.wires)
  have same : ((padded (port + 1) n.wires).map (targetsWithout ids)).modify port (fun targets => targets)
      = (padded (port + 1) n.wires).map (targetsWithout ids) := List.modify_id _ _
  rw [same, paddedWithout] at wires
  exact congrArg (fun wires => ({ n with wires } : FlowNode)) wires

end FlowNode

/-! Stages that are alike. -/

section

variable {apart : String → Bool} {firsts firsts' : List String}

/-- Stages of one name, alike unless they are set apart. The first nodes of those that are, and of no others, are
among the firsts of their graph. -/
structure StageNodes.Like (apart : String → Bool) (firsts firsts' : List String) (s s' : StageNodes) : Prop where
  stage : s.stage = s'.stage
  own : apart s.stage → s.first.id ∈ firsts ∧ s'.first.id ∈ firsts'
  ids : ¬ apart s.stage → s.first.id ∉ firsts ∧ s'.first.id ∉ firsts'
  outlets : ¬ apart s.stage → s.outlets = s'.outlets
  nodes : ¬ apart s.stage → s.nodes.map (FlowNode.without firsts) = s'.nodes.map (FlowNode.without firsts')

namespace StageNodes

theorem firstWithLast {s : StageNodes} {n : FlowNode} (same : n.bare = s.last.bare) :
    (s.withLast n).first.id = s.first.id := by
  have first := FlowGraph.firstOfBare (s.withLast n)
  rw [bareWithLast same, FlowGraph.firstOfBare] at first
  exact (Option.some.inj first).symm

theorem firstWired (s : StageNodes) (port : Nat) (target : String) :
    (s.withLast (s.last.connect port target)).first.id = s.first.id :=
  firstWithLast rfl

variable {s s' : StageNodes}

theorem Like.flip (like : Like apart firsts firsts' s s') : Like apart firsts' firsts s' s where
  stage := like.stage.symm
  own here := (like.own (like.stage ▸ here)).symm
  ids other := (like.ids (like.stage ▸ other)).symm
  outlets other := (like.outlets (like.stage ▸ other)).symm
  nodes other := (like.nodes (like.stage ▸ other)).symm

theorem Like.firstSame (like : Like apart firsts firsts' s s') (other : ¬ apart s.stage) :
    s.first.id = s'.first.id := by
  have id (s : StageNodes) (ids : List String) :
      (s.nodes.map (FlowNode.without ids)).head?.map (·.id) = some s.first.id := by
    rw [List.head?_map, List.head?_eq_some_head s.nodes_ne_nil]
    rfl
  have heads := congrArg (·.head?.map (·.id)) (like.nodes other)
  exact Option.some.inj ((id s firsts).symm.trans (heads.trans (id s' firsts')))

theorem Like.lastSame (like : Like apart firsts firsts' s s') (other : ¬ apart s.stage) :
    s.last.without firsts = s'.last.without firsts' := by
  have last (s : StageNodes) (ids : List String) :
      (s.nodes.map (FlowNode.without ids)).getLast? = some (s.last.without ids) := by
    rw [List.getLast?_map, List.getLast?_eq_some_getLast s.nodes_ne_nil]
    rfl
  have lasts := congrArg List.getLast? (like.nodes other)
  exact Option.some.inj ((last s firsts).symm.trans (lasts.trans (last s' firsts')))

theorem Like.port (like : Like apart firsts firsts' s s') (other : ¬ apart s.stage) (edge : Edge) :
    FlowGraph.port s edge = FlowGraph.port s' edge := by
  have ports : s.last.portCount = s'.last.portCount := by
    rw [FlowNode.portCount, FlowNode.portCount, ← FlowNode.withoutPorts firsts, ← FlowNode.withoutPorts firsts' s'.last,
      like.lastSame other]
  simp only [FlowGraph.port, ports, like.outlets other]

def Ends (firsts firsts' : List String) (target target' : String) : Prop :=
  target ∈ firsts ∧ target' ∈ firsts' ∨ target = target' ∧ target ∉ firsts ∧ target' ∉ firsts'

theorem Like.wired (like : Like apart firsts firsts' s s') (other : ¬ apart s.stage) (port : Nat)
    {target target' : String} (ends : Ends firsts firsts' target target') :
    Like apart firsts firsts' (s.withLast (s.last.connect port target)) (s'.withLast (s'.last.connect port target')) := by
  have last : (s.last.connect port target).without firsts = (s'.last.connect port target').without firsts' := by
    rcases ends with ⟨own, own'⟩ | ⟨rfl, one, one'⟩
    · rw [FlowNode.connectOwn own, FlowNode.connectOwn own', like.lastSame other]
    · rw [FlowNode.connectOther one, FlowNode.connectOther one', like.lastSame other]
  have front : s.nodes.dropLast.map (FlowNode.without firsts) = s'.nodes.dropLast.map (FlowNode.without firsts') := by
    rw [List.map_dropLast, List.map_dropLast, like.nodes other]
  constructor
  case stage => exact like.stage
  case own => exact fun here => absurd here other
  case ids =>
    rw [firstWired, firstWired]
    exact fun _ => like.ids other
  case outlets => exact fun _ => like.outlets other
  case nodes =>
    intro _
    rw [withLast, withLast, List.map_append, List.map_append, front, List.map_singleton, List.map_singleton, last]

theorem Like.wiredOwn (like : Like apart firsts firsts' s s') (own : apart s.stage) (port : Nat) (target : String) :
    Like apart firsts firsts' (s.withLast (s.last.connect port target)) s' := by
  constructor
  case stage => exact like.stage
  case own =>
    rw [firstWired]
    exact like.own
  all_goals exact fun other => absurd own other

end StageNodes

/-! Graphs that are alike. -/

namespace FlowGraph

def Like (apart : String → Bool) (firsts firsts' : List String) (g g' : FlowGraph) : Prop :=
  List.Forall₂ (StageNodes.Like apart firsts firsts') g.stages g'.stages

variable {g g' : FlowGraph}

theorem Like.flip (like : Like apart firsts firsts' g g') : Like apart firsts' firsts g' g :=
  (List.Forall₂.imp (fun _ _ one => one.flip) like).flip

theorem Like.found (like : Like apart firsts firsts' g g') (id : String) :
    g.stage? id = none ∧ g'.stage? id = none ∨ ∃ s s', g.stage? id = some s ∧ g'.stage? id = some s'
      ∧ StageNodes.Like apart firsts firsts' s s' ∧ s.stage = id := by
  have among {stages stages' : List StageNodes}
      (like : List.Forall₂ (StageNodes.Like apart firsts firsts') stages stages') :
      stages.find? (·.stage = id) = none ∧ stages'.find? (·.stage = id) = none
        ∨ ∃ s s', stages.find? (·.stage = id) = some s ∧ stages'.find? (·.stage = id) = some s'
          ∧ StageNodes.Like apart firsts firsts' s s' ∧ s.stage = id := by
    induction like with
    | nil => exact .inl ⟨rfl, rfl⟩
    | @cons s s' _ _ here _ ih =>
      rw [List.find?_cons, List.find?_cons, ← here.stage]
      split
      next same => exact .inr ⟨s, s', rfl, rfl, here, by simpa using same⟩
      next => exact ih
  exact among like

theorem updatedLike {id : String} {f f' : StageNodes → StageNodes}
    (step : ∀ s s', StageNodes.Like apart firsts firsts' s s' → s.stage = id →
      StageNodes.Like apart firsts firsts' (f s) (f' s'))
    {stages stages' : List StageNodes} (like : List.Forall₂ (StageNodes.Like apart firsts firsts') stages stages') :
    List.Forall₂ (StageNodes.Like apart firsts firsts') (updateStage id f stages) (updateStage id f' stages') := by
  induction like with
  | nil => exact .nil
  | cons here later ih =>
    rw [updateStage, updateStage, ← here.stage]
    split
    next same => exact .cons (step _ _ here same) later
    next => exact .cons here ih

theorem updatedNothing (id : String) (stages : List StageNodes) : updateStage id (fun s => s) stages = stages := by
  induction stages with
  | nil => rfl
  | cons s rest ih =>
    rw [updateStage, ih]
    exact ite_self _

theorem Like.connectOwn (like : Like apart firsts firsts' g g') {edge : Edge} (own : apart edge.source)
    {wired : FlowGraph} (laid : g.connect edge = .ok wired) : Like apart firsts firsts' wired g' := by
  obtain ⟨c, made, same⟩ := Outcome.bindOk.mp laid
  cases same
  rw [← (connectionTarget made).1] at own
  have both := @updatedLike apart firsts firsts' c.stage (fun s => s.withLast (s.last.connect c.port c.target))
    (fun s => s) (fun s s' like here => like.wiredOwn (here ▸ own) c.port c.target) g.stages g'.stages like
  rw [updatedNothing] at both
  exact both

theorem wiredLike (like : Like apart firsts firsts' g g') {source : String} (other : ¬ apart source) (port : Nat)
    {target target' : String} (ends : StageNodes.Ends firsts firsts' target target') (isNew isNew' : Bool) :
    Like apart firsts firsts' (g.wire ⟨source, port, target, isNew⟩) (g'.wire ⟨source, port, target', isNew'⟩) :=
  updatedLike (fun _ _ like here => like.wired (here ▸ other) port ends) like

theorem endsLike {s s' : StageNodes} (like : StageNodes.Like apart firsts firsts' s s') :
    StageNodes.Ends firsts firsts' s.first.id s'.first.id := by
  by_cases own : apart s.stage
  · exact .inl (like.own own)
  · exact .inr ⟨like.firstSame own, like.ids own⟩

theorem Like.connectOther (like : Like apart firsts firsts' g g') {edge : Edge} (other : ¬ apart edge.source) :
    (∃ reason, g.connect edge = .error reason ∧ g'.connect edge = .error reason)
      ∨ ∃ wired wired', g.connect edge = .ok wired ∧ g'.connect edge = .ok wired'
        ∧ Like apart firsts firsts' wired wired' := by
  rcases like.found edge.source with ⟨none, none'⟩ | ⟨s, s', source, source', left, same⟩
  · exact .inl ⟨.unknownSource edge.id, by rw [connect, connection, none]; rfl, by rw [connect, connection, none']; rfl⟩
  rcases like.found edge.target with ⟨none, none'⟩ | ⟨r, r', target, target', reached, -⟩
  · refine .inl ⟨.unknownTarget edge.id, ?_, ?_⟩
    · simp only [connect, connection, source, none]
      rfl
    · simp only [connect, connection, source', none']
      rfl
  have ports := left.port (same ▸ other) edge
  cases ported : port s' edge with
  | error reason =>
    refine .inl ⟨reason, ?_, ?_⟩
    · simp only [connect, connection, source, target, ports, ported]
      rfl
    · simp only [connect, connection, source', target', ported]
      rfl
  | ok i =>
    refine .inr ⟨_, _, ?_, ?_, wiredLike like other i (endsLike reached) (s.last.lacks i r.first.id)
      (s'.last.lacks i r'.first.id)⟩
    · simp only [connect, connection, source, target, ports, ported]
      rfl
    · simp only [connect, connection, source', target', ported]
      rfl

theorem Like.layOwn (like : Like apart firsts firsts' g g') {edge : Edge} (own : apart edge.source) (rest : List Edge) :
    ∃ next, Like apart firsts firsts' next g' ∧ (Channel.layEdges g (edge :: rest)).1 = (Channel.layEdges next rest).1
      ∧ (Channel.layEdges g (edge :: rest)).2.filter (fun i => !apart i.stage)
        = (Channel.layEdges next rest).2.filter (fun i => !apart i.stage) := by
  rw [Channel.layEdges]
  split
  next wired laid => exact ⟨wired, like.connectOwn own laid, rfl, rfl⟩
  next reason _ =>
    have dropped : (!apart (FlowIssue.unwired edge.source reason).stage) = false := by rw [FlowIssue.stage, own]; rfl
    exact ⟨g, like, rfl, List.filter_cons_of_neg (by rw [dropped]; exact Bool.false_ne_true)⟩

theorem laidLike (like : Like apart firsts firsts' g g') (edges : List Edge) :
    Like apart firsts firsts' (Channel.layEdges g edges).1 (Channel.layEdges g' edges).1
      ∧ (Channel.layEdges g edges).2.filter (fun i => !apart i.stage)
        = (Channel.layEdges g' edges).2.filter (fun i => !apart i.stage) := by
  induction edges generalizing g g' with
  | nil => exact ⟨like, rfl⟩
  | cons edge rest ih =>
    by_cases own : apart edge.source
    · obtain ⟨next, first, graph, issues⟩ := like.layOwn own rest
      obtain ⟨next', second, graph', issues'⟩ := first.flip.layOwn own rest
      rw [graph, graph', issues, issues']
      exact ih second.flip
    · rw [Channel.layEdges, Channel.layEdges]
      rcases like.connectOther own with ⟨reason, refused, refused'⟩ | ⟨wired, wired', laid, laid', after⟩
      · rw [refused, refused']
        obtain ⟨graphs, issues⟩ := ih like
        have kept (issues : List FlowIssue) : (.unwired edge.source reason :: issues).filter (fun i => !apart i.stage)
            = .unwired edge.source reason :: issues.filter (fun i => !apart i.stage) :=
          List.filter_cons_of_pos (show (!apart edge.source) = true by simpa using own)
        exact ⟨graphs, (kept _).trans ((congrArg _ issues).trans (kept _).symm)⟩
      · rw [laid, laid']
        exact ih after

end FlowGraph

end

end Conduit
