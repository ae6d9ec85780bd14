import Conduit.Pattern
import Conduit.Proofs.CompilationReports
import Conduit.Proofs.CompiledBundles
import Conduit.Proofs.StageOutcomes
import Conduit.Proofs.ValidChannels

/-! A stage that cannot be rendered stops nothing. One node stands in its place and one warning says so; every stage
has nodes in the flow, and no edge of a valid channel is left out for want of a stage at its ends. -/
namespace Conduit

/-! Warnings of stages that were replaced. -/

namespace CompileIssue

def replacementCodes : List String :=
  ["generate.template", "generate.compatibility", "generate.parameters", "generate.substitution"]

def replaces (stage : String) (i : CompileIssue) : Bool :=
  replacementCodes.contains i.code && i.stageId? = some stage

variable {stage : String}

theorem validationReplaces (i : ChannelIssue) : (validation i).replaces stage = false := by
  have code : replacementCodes.contains (validation i).code = false := by cases i <;> rfl
  rw [replaces, code, Bool.false_and]

theorem policyReplaces (v : Violation) : (policy v).replaces stage = false := by
  -- no rule's id begins as the codes do
  have begins (rule : PolicyRule) : rule.id.toList.head?.any (· ≠ 'g') := by cases rule <;> rfl
  have start : v.id.toList.head?.any (· ≠ 'g') := by
    have begun := begins v.rule
    rw [Violation.id]
    cases v.stage with
    | none => exact begun
    | some stage =>
      show (v.rule.id ++ ":" ++ stage).toList.head?.any _
      rw [String.toList_append, String.toList_append, List.append_assoc, List.head?_append]
      cases first : v.rule.id.toList.head? with
      | none => rw [first] at begun; cases begun
      | some c => rw [first] at begun; exact begun
  have code : replacementCodes.contains (policy v).code = false := by
    by_contra listed
    simp only [Bool.not_eq_false, List.contains_iff_mem, replacementCodes, List.mem_cons, List.not_mem_nil, or_false]
      at listed
    rcases listed with same | same | same | same <;>
      exact absurd start (by rw [show v.id = _ from same]; decide)
  rw [replaces, code, Bool.false_and]

theorem unwiredReplaces (other : String) (reason : WiringError) :
    (generation (.unwired other reason)).replaces stage = false := rfl

theorem replacedReplaces (other : String) (reason : StageError) :
    (generation (.replaced other reason)).replaces stage = decide (other = stage) := by
  have code : replacementCodes.contains (generation (.replaced other reason)).code = true := by cases reason <;> rfl
  rw [replaces, code, Bool.true_and]
  exact decide_eq_decide.mpr (Option.some_inj)

end CompileIssue

namespace StageOutcome

def replacement? (o : StageOutcome) : Option FlowIssue := o.failure.map (.replaced o.stage.id)

theorem warnings (o : StageOutcome) : o.issues.filter (·.isWarning) = o.replacement?.toList := by
  have notes : (o.rendered.notes.map (FlowIssue.noted o.stage.id)).filter (·.isWarning) = [] := by
    rw [List.filter_map, List.map_eq_nil_iff, List.filter_eq_nil_iff]
    exact fun _ _ => Bool.false_ne_true
  rw [issues, List.filter_append, notes, List.append_nil, replacement?]
  cases o.failure <;> rfl

theorem replacesReplacement (o : StageOutcome) (id : String) :
    (o.replacement?.toList.map CompileIssue.generation).filter (·.replaces id)
      = if o.stage.id = id then o.replacement?.toList.map CompileIssue.generation else [] := by
  rw [replacement?]
  cases o.failure with
  | none => exact (ite_self _).symm
  | some reason =>
    simp only [Option.map_some, Option.toList_some, List.map_cons, List.map_nil, List.filter_cons,
      CompileIssue.replacedReplaces, decide_eq_true_eq, List.filter_nil]

theorem replacesOne {os : List StageOutcome} (distinct : (os.map (·.stage.id)).Nodup) {o : StageOutcome}
    (member : o ∈ os) :
    ((os.flatMap (·.replacement?.toList)).map CompileIssue.generation).filter (·.replaces o.stage.id)
      = o.replacement?.toList.map CompileIssue.generation := by
  have others {rest : List StageOutcome} {id : String} (absent : id ∉ rest.map (·.stage.id)) :
      ((rest.flatMap (·.replacement?.toList)).map CompileIssue.generation).filter (·.replaces id) = [] := by
    induction rest with
    | nil => rfl
    | cons p rest ih =>
      rw [List.map_cons, List.mem_cons, not_or] at absent
      rw [List.flatMap_cons, List.map_append, List.filter_append, ih absent.2, replacesReplacement,
        if_neg (Ne.symm absent.1), List.append_nil]
  induction os with
  | nil => cases member
  | cons p rest ih =>
    obtain ⟨fresh, distinct⟩ := List.nodup_cons.mp distinct
    rw [List.flatMap_cons, List.map_append, List.filter_append, replacesReplacement]
    rcases List.mem_cons.mp member with rfl | later
    · rw [if_pos rfl, others fresh, List.append_nil]
    · have apart : p.stage.id ≠ o.stage.id := fun same =>
        fresh (List.mem_map.mpr ⟨o, later, same.symm⟩)
      rw [if_neg apart, ih distinct later, List.nil_append]

theorem listedOne {os : List StageOutcome} (distinct : (os.map (·.stage.id)).Nodup) {o : StageOutcome}
    (member : o ∈ os) :
    o.stage.id ∈ (os.filterMap fun r => r.failure.map fun _ => r.stage.id) ↔ ∃ reason, o.failure = some reason := by
  constructor
  · intro listed
    obtain ⟨r, among, failed⟩ := List.mem_filterMap.mp listed
    obtain ⟨reason, failed, same⟩ := Option.map_eq_some_iff.mp failed
    rw [← List.inj_on_of_nodup_map distinct among member same]
    exact ⟨reason, failed⟩
  · rintro ⟨reason, failed⟩
    exact List.mem_filterMap.mpr ⟨o, member, by rw [failed]; rfl⟩

theorem listedSublist (os : List StageOutcome) :
    (os.filterMap fun r => r.failure.map fun _ => r.stage.id).Sublist (os.map (·.stage.id)) := by
  induction os with
  | nil => exact .slnil
  | cons o rest ih =>
    rw [List.filterMap_cons]
    cases o.failure with
    | none => exact ih.cons _
    | some reason => exact ih.cons_cons _

end StageOutcome

/-! The nodes of a stage in the flow. -/

theorem FlowNode.wiresOfBare {n m : FlowNode} (same : n.bare = m.bare) : n = { m with wires := n.wires } := by
  simp only [bare, mk.injEq] at same
  obtain ⟨id, type, flow, x, y, -, properties⟩ := same
  rw [← id, ← type, ← flow, ← x, ← y, ← properties]

structure Stage.Kept (flow : String) (listed : List String) (warnings : List CompileIssue) (s : Stage)
    (block : List FlowNode) : Prop where
  nodes : block ≠ []
  own : ∀ n ∈ block, ∃ template, n.id = nodeId s.id template
  replaced : s.id ∈ listed ↔ ∃ reason,
    (∃ origin wires, block = [{ Placeholder.node s flow origin reason.message with wires }])
      ∧ warnings.filter (·.replaces s.id) = [.generation (.replaced s.id reason)]
  rendered : s.id ∉ listed → warnings.filter (·.replaces s.id) = []

theorem StageOutcome.Whole.kept {flow : String} {o : StageOutcome} (whole : o.Whole flow) {listed : List String}
    {warnings : List CompileIssue} {block : List FlowNode} (laid : block.map FlowNode.bare = o.rendered.nodes.map FlowNode.bare)
    (failed : o.stage.id ∈ listed ↔ ∃ reason, o.failure = some reason)
    (warned : warnings.filter (·.replaces o.stage.id) = o.replacement?.toList.map .generation) :
    o.stage.Kept flow listed warnings block := by
  constructor
  case nodes => exact (whole.laid laid).nodes
  case own => exact (whole.laid laid).own
  case replaced =>
    rw [failed]
    constructor
    · rintro ⟨reason, failed⟩
      obtain ⟨origin, nodes⟩ := whole.replaced reason failed
      rw [nodes, List.map_cons, List.map_nil, List.map_eq_singleton_iff] at laid
      obtain ⟨n, rfl, same⟩ := laid
      refine ⟨reason, ⟨origin, n.wires, congrArg (fun n => [n]) (FlowNode.wiresOfBare same)⟩, ?_⟩
      rw [warned, replacement?, failed]
      rfl
    · rintro ⟨reason, -, one⟩
      rw [warned, replacement?] at one
      cases failed : o.failure with
      | none => rw [failed] at one; cases one
      | some reason => exact ⟨reason, rfl⟩
  case rendered =>
    intro unlisted
    have fine : o.failure = none := Option.eq_none_iff_forall_ne_some.mpr fun reason failure =>
      unlisted (failed.mpr ⟨reason, failure⟩)
    rw [warned, replacement?, fine]
    rfl

namespace Channel

theorem generatedWarnings [Regex] (c : Channel) (o : GenerationOptions) (found : List (Except TemplateError Nexon)) :
    (c.generateFrom o found).warnings = (c.stageOutcomes o found).flatMap (·.replacement?.toList)
      ++ (layEdges (unwired (c.stageOutcomes o found)) c.edges).2.filter (·.isWarning) := by
  have issues : (c.generateFrom o found).issues = (c.stageOutcomes o found).flatMap StageOutcome.issues
      ++ (layEdges (unwired (c.stageOutcomes o found)) c.edges).2 := rfl
  rw [Generation.warnings, issues, List.filter_append, List.filter_flatMap]
  simp only [StageOutcome.warnings]

structure Kept (c : Channel) (a : Artifacts) (listed : List String) (warnings : List CompileIssue) : Prop where
  stages : ∃ blocks, a.flows = .arr (c.tab :: blocks.flatten.map FlowNode.toJson)
    ∧ List.Forall₂ (Stage.Kept (flowId c.channelId) listed warnings) c.stages blocks
  among : listed.Sublist c.stageIds
  manifest : a.manifest.field? "fallbackStages" = some (.strings listed)
  edges : ∀ stage edge, .generation (.unwired stage (.unknownSource edge)) ∉ warnings
    ∧ .generation (.unwired stage (.unknownTarget edge)) ∉ warnings

theorem ValidFrom.edgesKnown [Regex] {document : Json} {c : Channel} (valid : c.ValidFrom document)
    (o : GenerationOptions) {found : List (Except TemplateError Nexon)} (all : found.length = c.stages.length)
    (sound : ∀ n, .ok n ∈ found → n.content.Sound) :
    ∀ i ∈ (layEdges (unwired (c.stageOutcomes o found)) c.edges).2,
      ∃ stage reason, i = .unwired stage reason ∧ reason.EndsKnown := by
  refine FlowGraph.laidKnown fun e member => ?_
  have inGraph (id : String) : id ∈ (unwired (c.stageOutcomes o found)).stageIds ↔ id ∈ c.stageIds := by
    rw [FlowGraph.stageIds, bareUnwired fun r member => (c.stageOutcomesWhole o sound r member).nodes, List.map_reverse,
      List.mem_reverse, List.map_map, ← c.stageOutcomesIds o all]
    rfl
  rw [inGraph, inGraph]
  exact valid.edges e member

theorem ValidFrom.unwiredKnown [Regex] {document : Json} {c : Channel} (valid : c.ValidFrom document)
    (o : GenerationOptions) {found : List (Except TemplateError Nexon)} (all : found.length = c.stages.length)
    (sound : ∀ n, .ok n ∈ found → n.content.Sound) {stage : String} {reason : WiringError}
    (warned : .unwired stage reason ∈ (c.generateFrom o found).warnings) : reason.EndsKnown := by
  rw [generatedWarnings] at warned
  rcases List.mem_append.mp warned with replaced | laid
  · obtain ⟨r, -, one⟩ := List.mem_flatMap.mp replaced
    obtain ⟨_, -, same⟩ := Option.map_eq_some_iff.mp (Option.mem_toList.mp one)
    cases same
  · obtain ⟨_, _, same, ends⟩ := valid.edgesKnown o all sound _ (List.mem_filter.mp laid).1
    cases same
    exact ends

theorem ValidFrom.kept [Regex] {document : Json} {c : Channel} (valid : c.ValidFrom document) (o : GenerationOptions)
    {found : List (Except TemplateError Nexon)} (all : found.length = c.stages.length)
    (sound : ∀ n, .ok n ∈ found → n.content.Sound) {warnings : List CompileIssue}
    (others : ∀ w ∈ warnings, (∀ i, w ≠ .generation i) ∧ ∀ stage, w.replaces stage = false) :
    c.Kept (c.generateFrom o found).artifacts (c.generateFrom o found).placeholders
      (warnings ++ (c.generateFrom o found).warnings.map .generation) := by
  have whole := c.stageOutcomesWhole o sound
  have ids := c.stageOutcomesIds o all
  have known := valid.edgesKnown o all sound
  have distinct : ((c.stageOutcomes o found).map (·.stage.id)).Nodup := by rw [ids]; exact valid.stages
  have given {stage : String} : warnings.filter (·.replaces stage) = [] :=
    List.filter_eq_nil_iff.mpr fun w member => by rw [(others w member).2]; exact Bool.false_ne_true
  have wiring {stage : String} : (((layEdges (unwired (c.stageOutcomes o found)) c.edges).2.filter (·.isWarning)).map
      CompileIssue.generation).filter (·.replaces stage) = [] := by
    refine List.filter_eq_nil_iff.mpr fun w member => ?_
    obtain ⟨i, warned, rfl⟩ := List.mem_map.mp member
    obtain ⟨other, reason, rfl, -⟩ := known i (List.mem_filter.mp warned).1
    rw [CompileIssue.unwiredReplaces]
    exact Bool.false_ne_true
  constructor
  case stages =>
    obtain ⟨blocks, nodes, laid⟩ := blocksLaid (fun r member => (whole r member).nodes) c.edges
    refine ⟨blocks, ?_, ?_⟩
    · rw [← nodes]
      rfl
    · rw [← c.stageOutcomesStages o all, List.forall₂_map_left_iff]
      refine List.Forall₂.imp ?_ (Outcome.matchedAmong laid)
      rintro r block ⟨member, -, laid⟩
      refine (whole r member).kept laid (StageOutcome.listedOne distinct member) ?_
      rw [generatedWarnings, List.map_append, List.filter_append, List.filter_append, given, wiring,
        StageOutcome.replacesOne distinct member, List.nil_append, List.append_nil]
  case among =>
    rw [← ids]
    exact StageOutcome.listedSublist _
  case manifest =>
    have listed : (c.generateFrom o found).artifacts.manifest = c.manifest o (CredentialsMap.ofChannel c)
        (c.stageOutcomes o found) (layEdges (unwired (c.stageOutcomes o found)) c.edges).1.nodes.length
        (c.generateFrom o found).placeholders := rfl
    rw [listed]
    simp [Channel.manifest, Json.field?, Json.ofPairs, Table.getOfList]
  case edges =>
    have ends {stage : String} {reason : WiringError} (warned : .generation (.unwired stage reason) ∈
        warnings ++ (c.generateFrom o found).warnings.map CompileIssue.generation) : reason.EndsKnown := by
      rcases List.mem_append.mp warned with before | generated
      · exact absurd rfl ((others _ before).1 _)
      · obtain ⟨i, member, same⟩ := List.mem_map.mp generated
        cases same
        exact valid.unwiredKnown o all sound member
    exact fun stage edge => ⟨ends, ends⟩

end Channel

namespace Compiler

section

variable [Regex]

inductive Served : Compiler → Prop
  | begun (config : Configuration) (policies : PolicyRegistry) (sources : List NexonSource) (ttl : Nat) :
    Served { config, policies, sources, resolver := .ofTtl ttl }
  | used {c : Compiler} (request : CompileRequest) (run : BuildRun) : Served c → Served (c.compile request run).2
  | moved {c : Compiler} (sources : List NexonSource) : Served c → Served { c with sources }

theorem compiledHolding {P : NexonContent → Prop} {c : Compiler}
    (admitted : ∀ r content, Resolver.fetched c.sources r = .ok content → P content) (holding : c.resolver.Holding P)
    (request : CompileRequest) (run : BuildRun) : (c.compile request run).2.resolver.Holding P := by
  rcases compilerAfter c request run with same | ⟨channel, same⟩
  · rw [same]
    exact holding
  · rw [same]
    exact (Resolver.foundHolding admitted channel.stages holding).2

theorem servedSound {c : Compiler} (served : c.Served) : c.resolver.Holding NexonContent.Sound := by
  induction served with
  | begun config policies sources ttl => exact Resolver.emptyHolding _ ttl
  | used request run _ ih => exact compiledHolding (fun _ _ => Resolver.fetchedSound) ih request run
  | moved sources _ ih => exact ih

theorem compiledKept {c : Compiler} {request : CompileRequest} {run : BuildRun} {channel : Channel}
    (valid : (validateChannel request.channel).channel = some channel)
    (passed : (c.lint channel request.orgId request.acknowledged).passed) (finished : run.bundling = .finished)
    (served : c.Served) :
    (c.compile request run).1.success ∧ (c.compile request run).1.errors = []
      ∧ ∃ p listed, (c.compile request run).1.product = some p
        ∧ channel.Kept p.artifacts listed (c.compile request run).1.warnings := by
  obtain ⟨p, product, artifacts, warnings⟩ := endsFinished valid passed finished (compileEnds c request run)
  have success : (c.compile request run).1.success := by rw [Compilation.success, product]; rfl
  refine ⟨success, (reportedEnds (compileEnds c request run)).errors.mpr success, p, (c.generation run channel).placeholders,
    product, ?_⟩
  rw [warnings, artifacts]
  refine (Channel.validFrom valid).kept _ (Resolver.foundLength ..) ?_ fun w member => ?_
  · exact (Resolver.foundHolding (fun _ _ => Resolver.fetchedSound) _ (servedSound served)).1
  · rcases List.mem_append.mp member with before | linted
    · obtain ⟨i, -, rfl⟩ := List.mem_map.mp before
      exact ⟨fun _ same => (by cases same), fun _ => CompileIssue.validationReplaces i⟩
    · obtain ⟨v, -, rfl⟩ := List.mem_map.mp linted
      exact ⟨fun _ same => (by cases same), fun _ => CompileIssue.policyReplaces v⟩

end

def missing : CompileRequest :=
  requestOf [.ofPairs [("id", .str "a"), ("nexonId", .str "n")], .ofPairs [("id", .str "b"), ("nexonId", .str "n")]] []

attribute [local instance] Pattern.engine in
theorem missingKept :
    let c := ofDirectory (configured .none false) {}
    ∃ channel, (validateChannel missing.channel).channel = some channel
      ∧ (c.lint channel "o" []).passed ∧ firstRun.bundling = .finished ∧ c.Served
      ∧ (c.compile missing firstRun).1.success ∧ (c.compile missing firstRun).1.errors = []
      ∧ ∃ p listed, (c.compile missing firstRun).1.product = some p
        ∧ channel.Kept p.artifacts listed (c.compile missing firstRun).1.warnings := by
  intro c
  have checked : (validateChannel missing.channel).channel.any fun channel =>
      ((ofDirectory (configured .none false) {}).lint channel "o" []).passed := by decide +kernel
  obtain ⟨channel, valid, passed⟩ := (Option.any_eq_true _ _).mp checked
  have served : c.Served := .begun _ {} [.directory {} "n"] _
  exact ⟨channel, valid, passed, rfl, served, compiledKept valid passed rfl served⟩

end Compiler

end Conduit
