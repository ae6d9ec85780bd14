import Conduit.Artifacts
import Conduit.Flow.Graph
import Conduit.Nexon.Resolver
import Conduit.Substitution

/-! Rendering a stage: the nodes of its nexon with the stage's parameters filled in. A stage is rendered
as a whole or not at all. -/
namespace Conduit

inductive StageError where
  | unavailable (reason : TemplateError)
  | otherTarget (nexon : String) (target : Target)
  | otherEngine (nexon required : String)
  | parameters (errors : List Substitution.Error)
  | unfilled (node : String) (errors : List Substitution.Error)
  deriving Repr

namespace StageError

def code : StageError → String
  | .unavailable _ => "template"
  | .otherTarget .. => "compatibility"
  | .otherEngine .. => "compatibility"
  | .parameters _ => "parameters"
  | .unfilled .. => "substitution"

def listed (errors : List Substitution.Error) : String := "; ".intercalate (errors.map (·.message))

def message : StageError → String
  | .unavailable reason => s!"template unavailable: {reason.message}"
  | .otherTarget nexon target => s!"nexon {nexon} does not support runtime target '{target.name}'"
  | .otherEngine nexon required =>
    s!"nexon {nexon} requires engine >= {required}, current is {engineVersion}"
  | .parameters errors => s!"parameter validation failed: {listed errors}"
  | .unfilled node errors => s!"substitution failed in template node '{node}': {listed errors}"

end StageError

def engineTooOld (required : String) : Bool :=
  match Version.parse? required, Version.parse? engineVersion with
  | some r, some current => current.compare r = .lt
  | _, _ => true

def Nexon.compatible (n : Nexon) (target : Target) : Except StageError Unit :=
  match n.manifest.compatibility with
  | none => .ok ()
  | some c =>
    if !c.targets.isEmpty && !c.targets.contains target then .error (.otherTarget n.key target)
    else
      match c.minEngineVersion with
      | none => .ok ()
      | some required => if engineTooOld required then .error (.otherEngine n.key required) else .ok ()

structure RenderContext where
  flow : String
  target : Target
  values : Substitution.Context
  deriving Repr

structure RenderedStage where
  nodes : List FlowNode
  outlets : List String
  nexon : String
  notes : List String
  deriving Repr

namespace Stage

def scopeValue (s : Stage) : Json :=
  .ofPairs [("id", .str s.id), ("title", .str s.displayName), ("nexonId", .str s.nexonId),
    ("nexonVersion", (s.nexonVersion.map Json.str).getD .null)]

def parameters [Regex] (s : Stage) (defs : ParamDefs) (values : Substitution.Context) :
    Except StageError (Json × List String) :=
  let resolved := Substitution.resolveParams Substitution.defaultDepth values s.params
  match resolved.value with
  | none => .error (.parameters resolved.errors)
  | some given =>
    let params := defs.fill given
    let faults := defs.check params
    if faults.isEmpty then .ok (params, resolved.warnings)
    else .error (.parameters (faults.map .param))

end Stage

namespace NodeTemplate

def spacing : Nat := 180

def coordinate (n : NodeTemplate) (name : String) (absent : Double) : Double :=
  match n.properties.get? name with
  | some (.num v) => v.toDouble
  | _ => absent

def content (n : NodeTemplate) : Fields :=
  n.properties.filter fun f => f.1 ≠ "x" && f.1 ≠ "y" && f.1 ≠ "z"

/-- The `index`-th node of a nexon as a node of the flow. Wires lead to the nodes made from the same
nexon, and to no others. -/
def render [Regex] (c : RenderContext) (s : Stage) (origin : Position) (known : List String) (index : Nat)
    (n : NodeTemplate) : Except StageError (FlowNode × List String) :=
  let outcome := Substitution.substitute Substitution.defaultDepth c.values none (.obj n.content)
  match outcome.value with
  | some (.obj properties) =>
    .ok ({ id := nodeId s.id n.id, type := n.type, flow := c.flow
           x := origin.x.add (n.coordinate "x" ((Double.ofNat (index * spacing)).getD .zero))
           y := origin.y.add (n.coordinate "y" .zero)
           wires := n.wires.map fun port => (port.filter known.contains).map (nodeId s.id)
           properties }, outcome.warnings)
  | _ => .error (.unfilled n.id outcome.errors)

def renderAll [Regex] (c : RenderContext) (s : Stage) (origin : Position) (known : List String) (index : Nat) :
    List NodeTemplate → Except StageError (List FlowNode × List String)
  | [] => .ok ([], [])
  | n :: rest => do
    let (node, notes) ← n.render c s origin known index
    let (nodes, more) ← renderAll c s origin known (index + 1) rest
    return (node :: nodes, notes ++ more)

end NodeTemplate

def withOutletPorts (outlets : List String) : List FlowNode → List FlowNode
  | [] => []
  | [last] => [{ last with wires := FlowNode.padded (max outlets.length 1) last.wires }]
  | n :: rest => n :: withOutletPorts outlets rest

namespace Stage

def render [Regex] (s : Stage) (c : RenderContext) (origin : Position) (n : Nexon) :
    Except StageError RenderedStage := do
  n.compatible c.target
  let values := { c.values with stage := s.scopeValue }
  let (params, notes) ← s.parameters (n.manifest.parameters.getD []) values
  let c := { c with values := { values with params } }
  let (nodes, more) ← NodeTemplate.renderAll c s origin (n.nodes.map (·.id)) 0 n.nodes
  return { nodes := withOutletPorts n.manifest.outlets nodes, outlets := n.manifest.outlets
           nexon := n.key, notes := notes ++ more }

def renderFound [Regex] (s : Stage) (c : RenderContext) (origin : Position) :
    Except TemplateError Nexon → Except StageError RenderedStage
  | .ok n => s.render c origin n
  | .error reason => .error (.unavailable reason)

def placeholder (s : Stage) (c : RenderContext) (origin : Position) (reason : StageError) :
    RenderedStage where
  nodes := [Placeholder.node s c.flow origin reason.message]
  outlets := []
  nexon := s.nexonId ++ "@" ++ s.nexonVersion.getD "unresolved"
  notes := []

end Stage

end Conduit
