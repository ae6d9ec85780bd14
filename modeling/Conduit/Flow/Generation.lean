import Conduit.Credentials
import Conduit.Flow.Graph
import Conduit.Flow.Rendering
import Conduit.Artifacts

/-! From a channel to its artifacts. Nexons are found first, stage by stage; then every stage is rendered
on its own, or replaced by a placeholder; then the edges are laid. -/
namespace Conduit

inductive FlowIssue where
  | replaced (stage : String) (reason : StageError)
  | noted (stage message : String)
  | unwired (stage : String) (reason : WiringError)
  deriving Repr

namespace FlowIssue

def isWarning : FlowIssue → Bool
  | .noted .. => false
  | _ => true

def code : FlowIssue → String
  | .replaced _ reason => s!"generate.{reason.code}"
  | .noted .. => "generate.substitution"
  | .unwired .. => "generate.wiring"

def stage : FlowIssue → String
  | .replaced stage _ => stage
  | .noted stage _ => stage
  | .unwired stage _ => stage

def message : FlowIssue → String
  | .replaced stage reason => s!"Stage '{stage}' replaced by a placeholder node: {reason.message}"
  | .noted _ message => message
  | .unwired _ reason => reason.message

def toJson (i : FlowIssue) : Json :=
  .ofPairs [("level", .str (if i.isWarning then "warning" else "info")), ("code", .str i.code),
    ("stageId", .str i.stage), ("message", .str i.message)]

end FlowIssue

structure GenerationOptions where
  buildId : String := ""
  mode : BuildMode := .production
  target : Option Target := none
  deriving DecidableEq, Repr

structure StageOutcome where
  stage : Stage
  rendered : RenderedStage
  failure : Option StageError
  deriving Repr

namespace StageOutcome

def issues (o : StageOutcome) : List FlowIssue :=
  (o.failure.map fun reason => FlowIssue.replaced o.stage.id reason).toList
    ++ o.rendered.notes.map (.noted o.stage.id)

end StageOutcome

structure Generation where
  artifacts : Artifacts
  issues : List FlowIssue
  placeholders : List String
  deriving Repr

def Generation.warnings (g : Generation) : List FlowIssue := g.issues.filter (·.isWarning)

/-! Places of stages that have none: a grid with four columns. -/

def gridOrigin : Nat := 100

def gridColumns : Nat := 4

def gridPosition (index : Nat) : Position :=
  let at250 (n step : Nat) : Double := (Double.ofNat (gridOrigin + n * step)).getD .zero
  ⟨at250 (index % gridColumns) 250, at250 (index / gridColumns) 150⟩

def Stage.request (s : Stage) : NexonRequest := { id := s.nexonId, version := s.nexonVersion }

namespace Channel

def usedTarget (c : Channel) (o : GenerationOptions) : Target := o.target.getD c.target

def renderContext (c : Channel) (o : GenerationOptions) (credentials : CredentialsMap) : RenderContext where
  flow := flowId c.channelId
  target := c.usedTarget o
  values :=
    { params := .obj []
      channel := .ofPairs [("id", .str c.channelId), ("title", .str c.title), ("version", .str c.version)]
      runtime := .ofPairs [("target", .str (c.usedTarget o).name), ("mode", .str o.mode.name),
        ("flowId", .str (flowId c.channelId)), ("engineVersion", .str engineVersion)]
      env := .ofPairs (c.metadata.map fun v => (v.1, .str v.2))
      secretEnv := credentials.envByRef }

def findNexons [Regex] (sources : List NexonSource) (clock : Clock) (resolver : Resolver) :
    List Stage → List (Except TemplateError Nexon) × Resolver
  | [] => ([], resolver)
  | s :: rest =>
    let (found, resolver) := resolver.resolve sources (clock 0) s.request
    let (others, resolver) := findNexons sources clock.next resolver rest
    (found :: others, resolver)

def outcome [Regex] (context : RenderContext) (index : Nat) (s : Stage) (found : Except TemplateError Nexon) :
    StageOutcome :=
  let origin := s.position.getD (gridPosition index)
  match s.renderFound context origin found with
  | .ok rendered => ⟨s, rendered, none⟩
  | .error reason => ⟨s, s.placeholder context origin reason, some reason⟩

def outcomes [Regex] (context : RenderContext) (index : Nat) :
    List (Stage × Except TemplateError Nexon) → List StageOutcome
  | [] => []
  | (s, found) :: rest => outcome context index s found :: outcomes context (index + 1) rest

def unwired (outcomes : List StageOutcome) : FlowGraph :=
  outcomes.foldl (fun g o => g.add o.stage.id o.rendered.nodes o.rendered.outlets) {}

def layEdges (g : FlowGraph) : List Edge → FlowGraph × List FlowIssue
  | [] => (g, [])
  | e :: rest =>
    match g.connect e with
    | .ok wired => layEdges wired rest
    | .error reason =>
      let (g, issues) := layEdges g rest
      (g, .unwired e.source reason :: issues)

def tab (c : Channel) : Json :=
  .ofPairs
    [("id", .str (flowId c.channelId)), ("type", .str "tab"), ("label", .str c.title),
     ("disabled", .bool false), ("info", .str ((c.documentation.bind (·.summary)).getD ""))]

def manifestVersion : String := "1"

def manifest (c : Channel) (o : GenerationOptions) (credentials : CredentialsMap)
    (outcomes : List StageOutcome) (nodeCount : Nat) (placeholders : List String) : Json :=
  .ofPairs
    [("formatVersion", .str manifestVersion), ("channelId", .str c.channelId), ("title", .str c.title),
     ("channelVersion", .str c.version), ("buildId", .str o.buildId), ("mode", .str o.mode.name),
     ("target", .str (c.usedTarget o).name), ("engineVersion", .str engineVersion),
     ("flowId", .str (flowId c.channelId)), ("nodeCount", .nat nodeCount),
     ("artifacts", .ofPairs
        [("flows", .str Artifacts.flowsFile), ("settings", .str Artifacts.settingsFile),
         ("manifest", .str Artifacts.manifestFile), ("credentialsMap", .str Artifacts.credentialsFile)]),
     ("stages", .ofPairs (outcomes.map fun r => (r.stage.id, .str r.rendered.nexon))),
     ("fallbackStages", .strings placeholders), ("secretEnv", .strings credentials.envVars)]

def generateFrom [Regex] (c : Channel) (o : GenerationOptions) (found : List (Except TemplateError Nexon)) :
    Generation :=
  let credentials := CredentialsMap.ofChannel c
  let outcomes := outcomes (c.renderContext o credentials) 0 (c.stages.zip found)
  let (graph, wiring) := layEdges (unwired outcomes) c.edges
  let placeholders := outcomes.filterMap fun r => r.failure.map fun _ => r.stage.id
  { artifacts :=
      { flows := .arr (c.tab :: graph.nodes.map FlowNode.toJson)
        settings := Settings.build (Table.ofList c.metadata) o.mode
        manifest := c.manifest o credentials outcomes graph.nodes.length placeholders
        credentialsMap := credentials.toJson }
    issues := outcomes.flatMap StageOutcome.issues ++ wiring
    placeholders }

def generate [Regex] (c : Channel) (o : GenerationOptions) (sources : List NexonSource) (clock : Clock)
    (resolver : Resolver) : Generation × Resolver :=
  let (found, resolver) := findNexons sources clock resolver c.stages
  (c.generateFrom o found, resolver)

end Channel

end Conduit
