import Conduit.Flow.Generation
import Conduit.Proofs.JsonText
import Conduit.Proofs.OrderedNexons
import Conduit.Proofs.ServedSecrets
import Conduit.Proofs.StageOutcomes
import Conduit.Proofs.ValidChannels

/-! The artifacts of a channel have ordered values, whatever nexons it uses; all but the flows are shallow. -/
namespace Conduit

theorem Json.insertedOrdered (pairs : List (String × Json)) (values : ∀ p ∈ pairs, p.2.Ordered) {fields : Fields}
    (ordered : (Json.obj fields).Ordered) :
    (Json.obj (pairs.foldl (fun fields p => Table.insert p.1 p.2 fields) fields)).Ordered := by
  induction pairs generalizing fields with
  | nil => exact ordered
  | cons p rest ih =>
    obtain ⟨here, others⟩ := List.forall_mem_cons.mp values
    exact ih others (Json.orderedInsert here ordered)

/-! Nodes. -/

def FlowNode.Ordered (n : FlowNode) : Prop := (Json.obj n.properties).Ordered

theorem FlowNode.toJsonOrdered {n : FlowNode} (ordered : n.Ordered) : n.toJson.Ordered := by
  refine Json.insertedOrdered _ ?_ ordered
  simp only [List.forall_mem_cons, List.not_mem_nil, false_imp_iff, implies_true, and_true]
  refine ⟨trivial, trivial, trivial, Json.orderedDouble _, Json.orderedDouble _, Json.orderedArr.mpr fun v member => ?_⟩
  obtain ⟨targets, -, rfl⟩ := List.mem_map.mp member
  exact Json.orderedStrings targets

theorem NodeTemplate.contentOrdered {n : NodeTemplate} (ordered : n.Ordered) : (Json.obj n.content).Ordered := by
  obtain ⟨table, values⟩ := Json.orderedObj.mp ordered
  exact Json.orderedObj.mpr ⟨table.sublist List.filter_sublist, fun f member => values f (List.mem_filter.mp member).1⟩

section

variable {context : RenderContext} {s : Stage} {origin : Position}

theorem NodeTemplate.renderOrdered [Regex] {n : NodeTemplate} (ordered : n.Ordered) (seen : context.values.Ordered)
    {known : List String} {index : Nat} {node : FlowNode} {notes : List String}
    (rendered : n.render context s origin known index = .ok (node, notes)) : node.Ordered := by
  simp only [render] at rendered
  split at rendered
  next properties filled =>
    have same := (Prod.mk.inj (Except.ok.inj rendered)).1
    subst same
    exact Substitution.substituteOrdered seen (contentOrdered ordered) filled
  next => cases rendered

theorem NodeTemplate.renderAllOrdered [Regex] {templates : List NodeTemplate} (ordered : ∀ n ∈ templates, n.Ordered)
    (seen : context.values.Ordered) {known : List String} {index : Nat} {nodes : List FlowNode} {notes : List String}
    (rendered : renderAll context s origin known index templates = .ok (nodes, notes)) : ∀ n ∈ nodes, n.Ordered := by
  induction templates generalizing index nodes notes with
  | nil =>
    cases rendered
    exact List.forall_mem_nil _
  | cons n rest ih =>
    obtain ⟨here, others⟩ := List.forall_mem_cons.mp ordered
    obtain ⟨⟨node, notes₁⟩, first, rendered⟩ := Outcome.bindOk.mp rendered
    obtain ⟨⟨nodes, notes₂⟩, later, same⟩ := Outcome.bindOk.mp rendered
    cases same
    exact List.forall_mem_cons.mpr ⟨renderOrdered here seen first, ih others later⟩

theorem withOutletPortsOrdered {outlets : List String} {nodes : List FlowNode} (ordered : ∀ n ∈ nodes, n.Ordered) :
    ∀ n ∈ withOutletPorts outlets nodes, n.Ordered := by
  fun_induction withOutletPorts outlets nodes with
  | case1 => exact ordered
  | case2 last => exact List.forall_mem_singleton.mpr (ordered last List.mem_cons_self)
  | case3 n rest more ih =>
    obtain ⟨here, others⟩ := List.forall_mem_cons.mp ordered
    exact List.forall_mem_cons.mpr ⟨here, ih others⟩

def Stage.Ordered (s : Stage) : Prop := (Json.obj (Param.toFields s.params)).Ordered

theorem Stage.scopeOrdered (s : Stage) : s.scopeValue.Ordered := by
  refine Json.orderedOfPairs ?_
  simp only [List.forall_mem_cons, List.not_mem_nil, false_imp_iff, implies_true, and_true]
  refine ⟨trivial, trivial, trivial, ?_⟩
  cases s.nexonVersion <;> trivial

theorem Stage.parametersOrdered [Regex] (s : Stage) (stage : s.Ordered) {values : Substitution.Context}
    (seen : values.Ordered)
    {defs : ParamDefs} (defaults : ParamDefs.Ordered defs) {params : Json} {notes : List String}
    (resolved : s.parameters defs values = .ok (params, notes)) : params.Ordered := by
  simp only [parameters] at resolved
  split at resolved
  · cases resolved
  next given found =>
    split at resolved
    · cases resolved
      exact ParamDefs.fillOrdered defaults (Substitution.paramsOrdered seen stage found)
    · cases resolved

theorem Stage.renderOrdered [Regex] (stage : s.Ordered) (seen : context.values.Ordered) {n : Nexon}
    (nexon : n.content.Ordered) {r : RenderedStage} (rendered : s.render context origin n = .ok r) :
    ∀ node ∈ r.nodes, node.Ordered := by
  obtain ⟨-, -, rendered⟩ := Outcome.bindOk.mp rendered
  obtain ⟨⟨params, notes⟩, resolved, rendered⟩ := Outcome.bindOk.mp rendered
  obtain ⟨⟨nodes, more⟩, filled, same⟩ := Outcome.bindOk.mp rendered
  cases same
  have onStage : ({ context.values with stage := s.scopeValue } : Substitution.Context).Ordered :=
    { seen with stage := s.scopeOrdered }
  have given : params.Ordered := s.parametersOrdered stage onStage (fun d member => ?_) resolved
  · refine withOutletPortsOrdered (NodeTemplate.renderAllOrdered nexon.nodes ?_ filled)
    exact { onStage with params := given }
  · cases listed : n.manifest.parameters with
    | none => simp [listed] at member
    | some defs => exact nexon.defaults defs listed d (by simpa [listed] using member)

theorem Stage.placeholderOrdered (s : Stage) (context : RenderContext) (origin : Position) (reason : StageError) :
    ∀ node ∈ (s.placeholder context origin reason).nodes, node.Ordered := by
  refine List.forall_mem_singleton.mpr (Json.orderedOfPairs fun p member => ?_)
  rcases List.mem_append.mp member with always | function
  · simp only [List.mem_cons, List.not_mem_nil, or_false] at always
    rcases always with rfl | rfl <;> trivial
  · split at function
    · simp only [List.mem_cons, List.not_mem_nil, or_false] at function
      rcases function with rfl | rfl <;> trivial
    · cases function

end

/-! The graph. -/

namespace FlowGraph

def Ordered (g : FlowGraph) : Prop := ∀ s ∈ g.stages, ∀ n ∈ s.nodes, n.Ordered

theorem layEdgesOrdered {g : FlowGraph} (ordered : g.Ordered) (edges : List Edge) :
    (Channel.layEdges g edges).1.Ordered :=
  @laidEvery (·.Ordered) (fun _ => True) (fun _ _ _ _ node => node) g (fun _ _ => trivial) ordered edges

end FlowGraph

/-! Artifacts. -/

def Channel.Ordered (c : Channel) : Prop := ∀ s ∈ c.stages, s.Ordered

theorem Stage.ofJsonOrdered {v : Json} (ordered : v.Ordered) : (ofJson v).Ordered := by
  have fields : (Json.obj (Param.toFields (Param.ofFields (v.fieldsAt "params")))).Ordered := by
    rw [Param.toFieldsOfFields]
    exact Json.orderedFieldsAt ordered
  exact fields

theorem Channel.validatedOrdered {document : Json} (ordered : document.Ordered) {c : Channel}
    (valid : (validateChannel document).channel = some c) : c.Ordered := by
  obtain ⟨⟨read, success, rfl⟩, -⟩ := validFrom valid
  obtain ⟨w, admitted, rfl⟩ := Json.Reader.readOrdered ordered success
  intro s member
  obtain ⟨v, stage, rfl⟩ := List.mem_map.mp member
  exact Stage.ofJsonOrdered (Json.orderedItemsAt admitted v stage)

namespace Channel

variable {c : Channel} {o : GenerationOptions}

theorem contextOrdered (c : Channel) (o : GenerationOptions) (credentials : CredentialsMap) :
    (c.renderContext o credentials).values.Ordered where
  params := Json.orderedObj.mpr ⟨List.Pairwise.nil, List.forall_mem_nil _⟩
  stage := trivial
  channel := Json.orderedOfPairs (by simp [Json.Ordered])
  runtime := Json.orderedOfPairs (by simp [Json.Ordered])
  env := Json.orderedOfPairs fun p member => by
    obtain ⟨q, -, rfl⟩ := List.mem_map.mp member
    trivial

variable [Regex]

theorem outcomesOrdered {context : RenderContext} (seen : context.values.Ordered)
    {pairs : List (Stage × Except TemplateError Nexon)}
    (ordered : ∀ p ∈ pairs, p.1.Ordered ∧ ∀ n, p.2 = .ok n → n.content.Ordered) (index : Nat) :
    ∀ r ∈ outcomes context index pairs, ∀ n ∈ r.rendered.nodes, n.Ordered := by
  refine outcomesEvery (fun p member place => ?_) index
  obtain ⟨stage, nexon⟩ := ordered p member
  simp only [outcome]
  split
  next rendered made =>
    obtain ⟨s, found⟩ := p
    cases found with
    | error reason => cases made
    | ok n => exact Stage.renderOrdered stage seen (nexon n rfl) made
  next reason _ => exact p.1.placeholderOrdered _ _ reason

theorem flowsOrdered (c : Channel) (o : GenerationOptions) (channel : c.Ordered)
    {found : List (Except TemplateError Nexon)} (nexons : ∀ n, .ok n ∈ found → n.content.Ordered) :
    (c.generateFrom o found).artifacts.flows.Ordered := by
  have pairs : ∀ p ∈ c.stages.zip found, p.1.Ordered ∧ ∀ n, p.2 = .ok n → n.content.Ordered := by
    intro p member
    obtain ⟨stage, reply⟩ := List.of_mem_zip member
    exact ⟨channel _ stage, fun n same => nexons n (same ▸ reply)⟩
  have rendered := outcomesOrdered (contextOrdered c o (CredentialsMap.ofChannel c)) pairs 0
  have graph := FlowGraph.layEdgesOrdered (FlowGraph.unwiredEvery rendered) c.edges
  refine Json.orderedArr.mpr (List.forall_mem_cons.mpr ⟨?_, fun v member => ?_⟩)
  · exact Json.orderedOfPairs (by simp [Json.Ordered])
  · obtain ⟨n, node, rfl⟩ := List.mem_map.mp member
    exact FlowNode.toJsonOrdered (FlowGraph.everyNode graph n node)

/-! The other artifacts have three levels at most. -/

theorem settingsReadable (c : Channel) (o : GenerationOptions) (found : List (Except TemplateError Nexon)) :
    (c.generateFrom o found).artifacts.settings.Readable := by
  have noInstall : (Json.ofPairs [("allowInstall", .bool false)]).Within 1 :=
    Json.withinPairs (List.forall_mem_singleton.mpr (Json.withinBool 0 false))
  have modules : (Json.ofPairs [("autoInstall", .bool false), ("palette", .ofPairs [("allowInstall", .bool false)]),
      ("modules", .ofPairs [("allowInstall", .bool false)])]).Within 2 := by
    refine Json.withinPairs ?_
    simp only [List.forall_mem_cons, List.not_mem_nil, false_imp_iff, implies_true, and_true]
    exact ⟨Json.withinBool 1 _, noInstall, noInstall⟩
  have env : (Json.obj ((Table.insert Settings.modeVariable o.mode.name (Table.ofList c.metadata)).map
      fun v => (v.1, .str v.2))).Within 1 :=
    Json.withinTable (Table.insertOrdered _ _ (Table.ofListOrdered _)) fun v _ => Json.withinStr 0 v.2
  refine Json.withinMore (@Json.withinPairs 2 _ ?_) (by decide)
  simp only [List.forall_mem_cons, List.not_mem_nil, false_imp_iff, implies_true, and_true]
  exact ⟨Json.withinStr 2 _, Json.withinBool 2 _, Json.withinBool 2 _, Json.withinBool 2 _, modules,
    Json.withinBool 2 _, Json.withinMore env (by decide)⟩

theorem manifestReadable (c : Channel) (o : GenerationOptions) (found : List (Except TemplateError Nexon)) :
    (c.generateFrom o found).artifacts.manifest.Readable := by
  refine Json.withinMore (@Json.withinPairs 1 _ ?_) (by decide)
  simp only [List.forall_mem_cons, List.not_mem_nil, false_imp_iff, implies_true, and_true]
  refine ⟨Json.withinStr 1 _, Json.withinStr 1 _, Json.withinStr 1 _, Json.withinStr 1 _, Json.withinStr 1 _,
    Json.withinStr 1 _, Json.withinStr 1 _, Json.withinStr 1 _, Json.withinStr 1 _, Json.withinNat 1 _,
    Json.withinPairs ?_, Json.withinPairs fun p member => ?_, Json.withinStrings 0 _, Json.withinStrings 0 _⟩
  · simp only [List.forall_mem_cons, List.not_mem_nil, false_imp_iff, implies_true, and_true]
    exact ⟨Json.withinStr 0 _, Json.withinStr 0 _, Json.withinStr 0 _, Json.withinStr 0 _⟩
  · obtain ⟨r, -, rfl⟩ := List.mem_map.mp member
    exact Json.withinStr 0 _

theorem credentialsReadable (c : Channel) (o : GenerationOptions) (found : List (Except TemplateError Nexon)) :
    (c.generateFrom o found).artifacts.credentialsMap.Readable := by
  refine Json.withinMore (@Json.withinPairs 2 _ ?_) (by decide)
  simp only [List.forall_mem_cons, List.not_mem_nil, false_imp_iff, implies_true, and_true]
  refine ⟨Json.withinStr 2 _, Json.withinTable c.credentialsOrdered fun p _ => Json.withinPairs ?_,
    Json.withinMore (Json.withinTable c.aliasesOrdered fun p _ => Json.withinStr 0 p.2) (by decide)⟩
  simp only [List.forall_mem_cons, List.not_mem_nil, false_imp_iff, implies_true, and_true]
  exact ⟨Json.withinStr 0 _, Json.withinStr 0 _⟩

end Channel

end Conduit
