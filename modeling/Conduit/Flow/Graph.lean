import Conduit.Json.Basic
import Conduit.Channel.Basic
import Conduit.Digest.Content

/-! Nodes of a flow: what they are, where they are drawn, and which nodes their ports lead to. -/
namespace Conduit

structure FlowNode where
  id : String
  type : String
  flow : String
  x : Option Double
  y : Option Double
  wires : List (List String)
  properties : Fields
  deriving Repr

namespace FlowNode

def padded (ports : Nat) (wires : List (List String)) : List (List String) :=
  wires ++ List.replicate (ports - wires.length) []

theorem length_padded (ports : Nat) (wires : List (List String)) :
    (padded ports wires).length = max ports wires.length := by
  simp only [padded, List.length_append, List.length_replicate]
  omega

def targets (n : FlowNode) (port : Nat) : List String := n.wires.getD port []

def connect (n : FlowNode) (port : Nat) (target : String) : FlowNode :=
  { n with wires := (padded (port + 1) n.wires).modify port fun targets =>
      if targets.contains target then targets else targets ++ [target] }

def lacks (n : FlowNode) (port : Nat) (target : String) : Bool := !(n.targets port).contains target

def portCount (n : FlowNode) : Nat := max n.wires.length 1

def toJson (n : FlowNode) : Json :=
  let fixed :=
    [("id", Json.str n.id), ("type", .str n.type), ("z", .str n.flow), ("x", .double n.x), ("y", .double n.y),
     ("wires", .arr (n.wires.map Json.strings))]
  .obj (fixed.foldl (fun fields f => Table.insert f.1 f.2 fields) n.properties)

end FlowNode

end Conduit

/-! The node that stands for a stage which cannot be rendered. -/
namespace Conduit.Placeholder

def typesByPrefix : List (String × String) :=
  [("http-in", "http in"), ("http-response", "http response"), ("http", "http request"),
   ("mqtt-in", "mqtt in"), ("mqtt", "mqtt out"), ("tcp-in", "tcp in"), ("tcp", "tcp out"),
   ("udp-in", "udp in"), ("udp", "udp out"), ("inject", "inject"), ("timer", "inject"),
   ("schedule", "inject"), ("debug", "debug"), ("log", "debug"), ("switch", "switch"),
   ("change", "change"), ("delay", "delay"), ("template", "template"), ("split", "split"), ("join", "join")]

def functionType : String := "function"

def nodeType (nexonId : String) : String :=
  ((typesByPrefix.find? fun t => t.1.toList.isPrefixOf nexonId.toList).map (·.2)).getD functionType

def code (s : Stage) : String :=
  match s.params.lookup "code" with
  | some (.literal (.str code)) => code
  | _ => "return msg;"

def properties (s : Stage) (reason : String) : Fields :=
  Table.ofList
    ([("name", .str s.displayName),
      ("info", .str s!"Placeholder for nexon '{s.nexonId}': {reason}")]
    ++ if nodeType s.nexonId = functionType then [("func", .str (code s)), ("outputs", .nat 1)] else [])

def node (s : Stage) (flow : String) (origin : Position) (reason : String) : FlowNode where
  id := nodeId s.id "fallback"
  type := nodeType s.nexonId
  flow := flow
  x := some origin.x
  y := some origin.y
  wires := [[]]
  properties := properties s reason

end Conduit.Placeholder

/-! The nodes of a flow by the stages they come from. An edge of the channel leads from the last node of one
stage to the first node of another. -/
namespace Conduit

structure StageNodes where
  stage : String
  nodes : List FlowNode
  outlets : List String
  nodes_ne_nil : nodes ≠ []
  deriving Repr

namespace StageNodes

def first (s : StageNodes) : FlowNode := s.nodes.head s.nodes_ne_nil

def last (s : StageNodes) : FlowNode := s.nodes.getLast s.nodes_ne_nil

def withLast (s : StageNodes) (n : FlowNode) : StageNodes :=
  { s with nodes := s.nodes.dropLast ++ [n], nodes_ne_nil := by simp }

end StageNodes

inductive WiringError where
  | unknownSource (edge : String)
  | unknownTarget (edge : String)
  | outOfRange (edge stage : String) (ports outlet : Nat)
  | unknownOutlet (edge stage outlet : String)
  deriving DecidableEq, Repr

def WiringError.message : WiringError → String
  | .unknownSource edge => s!"edge '{edge}': unknown source stage"
  | .unknownTarget edge => s!"edge '{edge}': unknown target stage"
  | .outOfRange edge stage ports outlet =>
    s!"edge '{edge}': stage '{stage}' has {ports} outlet(s), outlet {outlet} is out of range"
  | .unknownOutlet edge stage outlet => s!"edge '{edge}': stage '{stage}' has no outlet named '{outlet}'"

/-- The stages in the order in which they were added, the latest first. Of two stages of one name edges
see the later one. -/
structure FlowGraph where
  stages : List StageNodes := []
  deriving Repr

namespace FlowGraph

def nodes (g : FlowGraph) : List FlowNode := g.stages.reverse.flatMap (·.nodes)

def add (g : FlowGraph) (stage : String) (nodes : List FlowNode) (outlets : List String) : FlowGraph :=
  if h : nodes = [] then g else ⟨⟨stage, nodes, outlets, h⟩ :: g.stages⟩

def stage? (g : FlowGraph) (id : String) : Option StageNodes := g.stages.find? (·.stage = id)

def port (s : StageNodes) (edge : Edge) : Except WiringError Nat :=
  match edge.outlet with
  | none => .ok 0
  | some (.index i) =>
    if i < s.last.portCount then .ok i
    else .error (.outOfRange edge.id edge.source s.last.portCount i)
  | some (.name name) =>
    match s.outlets.findIdx? (· = name) with
    | some i => .ok i
    | none => .error (.unknownOutlet edge.id edge.source name)

def updateStage (id : String) (f : StageNodes → StageNodes) : List StageNodes → List StageNodes
  | [] => []
  | s :: rest => if s.stage = id then f s :: rest else s :: updateStage id f rest

structure Connection where
  stage : String
  port : Nat
  target : String
  isNew : Bool
  deriving DecidableEq, Repr

def connection (g : FlowGraph) (edge : Edge) : Except WiringError Connection :=
  match g.stage? edge.source with
  | none => .error (.unknownSource edge.id)
  | some source =>
    match g.stage? edge.target with
    | none => .error (.unknownTarget edge.id)
    | some target => do
      let port ← port source edge
      return ⟨edge.source, port, target.first.id, source.last.lacks port target.first.id⟩

def wire (g : FlowGraph) (c : Connection) : FlowGraph :=
  ⟨updateStage c.stage (fun s => s.withLast (s.last.connect c.port c.target)) g.stages⟩

def connect (g : FlowGraph) (edge : Edge) : Except WiringError FlowGraph := do
  return g.wire (← g.connection edge)

end FlowGraph

end Conduit
