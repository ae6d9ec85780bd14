import Conduit.Channel.Basic
import Conduit.Channel.Document
import Conduit.Digest.Content

/-! The directed graph of stages, and its cycles as a depth-first search meets them. -/
namespace Conduit

structure StageGraph where
  order : List String
  edges : List (String × String)
  deriving DecidableEq, Repr

namespace StageGraph

def ofChannel (c : Channel) : StageGraph := ⟨c.stageIds, c.edges.map fun e => (e.source, e.target)⟩

def children (g : StageGraph) (node : String) : List String :=
  (g.edges.filter (·.1 = node)).map (·.2)

structure Frame where
  node : String
  pending : List String
  deriving DecidableEq, Repr

/-- A search: the path with its last stage first, the stages that are done with, and the cycles found,
the last first. -/
structure Search where
  frames : List Frame := []
  visited : List String := []
  cycles : List (List String) := []
  deriving DecidableEq, Repr

def sameMembers (a b : List String) : Bool := a.all b.contains && b.all a.contains

def pathFrom (node : String) (frames : List Frame) : List String :=
  (((frames.map Frame.node).takeWhile (· ≠ node)) ++ [node]).reverse

def onPath (node : String) (frames : List Frame) : Bool := (frames.map Frame.node).contains node

/-- One step: a child of the last stage on the path is looked at, or that stage is done with. -/
def step (g : StageGraph) (s : Search) : Search :=
  match s.frames with
  | [] => s
  | ⟨node, []⟩ :: below => { s with frames := below, visited := node :: s.visited }
  | ⟨node, child :: pending⟩ :: below =>
    let s := { s with frames := ⟨node, pending⟩ :: below }
    if onPath child s.frames then
      let members := pathFrom child s.frames
      if s.cycles.any (sameMembers · members) then s else { s with cycles := members :: s.cycles }
    else if s.visited.contains child then s
    else { s with frames := ⟨child, g.children child⟩ :: s.frames }

def run (g : StageGraph) (s : Search) : Nat → Search
  | 0 => s
  | fuel + 1 => if s.frames.isEmpty then s else run g (g.step s) fuel

def searchFuel (g : StageGraph) : Nat := 2 * g.edges.length + 2

def searchFrom (g : StageGraph) (s : Search) (start : String) : Search :=
  if s.visited.contains start then s
  else run g { s with frames := [⟨start, g.children start⟩] } g.searchFuel

def search (g : StageGraph) : Search := g.order.foldl g.searchFrom {}

def close (members : List String) : List String := members ++ members.head?.toList

def cycles (g : StageGraph) : List (List String) := g.search.cycles.reverse.map close

end StageGraph

/-! Validating a channel: first the outline of its document, then the rules that tie its stages and edges
together. A channel that is valid has an id and a title. -/

inductive EdgeEnd where
  | source | target
  deriving DecidableEq, Repr

inductive ChannelIssue where
  | notObject
  | document (fault : DocumentFault)
  | unreadable (reason : Json.ReadError)
  | duplicateStage (id : String)
  | duplicateEdge (id : String)
  | unknownStage (index : Nat) (edgeId : String) (edgeEnd : EdgeEnd) (stage : String)
  | defaultedId (id : String)
  | orphans (stages : List String)
  | cycle (stages : List String)
  deriving Repr

namespace ChannelIssue

def isError : ChannelIssue → Bool
  | .defaultedId _ => false
  | .orphans _ => false
  | .cycle _ => false
  | _ => true

def code : ChannelIssue → String
  | .notObject => "schema.invalid"
  | .document _ => "schema.invalid"
  | .unreadable _ => "schema.invalid"
  | .duplicateStage _ => "stage.duplicate-id"
  | .duplicateEdge _ => "edge.duplicate-id"
  | .unknownStage .. => "edge.unknown-stage"
  | .defaultedId _ => "channel.id-defaulted"
  | .orphans _ => "stage.orphan"
  | .cycle _ => "graph.cycle"

def message : ChannelIssue → String
  | .notObject => "Channel document must be a JSON object"
  | .document fault => fault.rule.message
  | .unreadable reason => s!"Channel document could not be read: {reason.message}"
  | .duplicateStage id => s!"Duplicate stage id '{id}'"
  | .duplicateEdge id => s!"Duplicate edge id '{id}'"
  | .unknownStage _ edgeId _ stage => s!"Edge '{edgeId}' references unknown stage '{stage}'"
  | .defaultedId id => s!"channelId missing; using derived id '{id}'"
  | .orphans stages => "Orphaned stages with no connections: " ++ ", ".intercalate stages
  | .cycle stages => "Potential circular dependency: " ++ " -> ".intercalate stages

def path? : ChannelIssue → Option String
  | .document fault => some fault.path
  | .unknownStage index _ .source _ => some s!"edges[{index}].from.stageId"
  | .unknownStage index _ .target _ => some s!"edges[{index}].to.stageId"
  | .defaultedId _ => some "channelId"
  | _ => none

def stageIds : ChannelIssue → List String
  | .duplicateStage id => [id]
  | .orphans stages => stages
  | .cycle stages => stages.dropLast
  | _ => []

def toJson (i : ChannelIssue) : Json :=
  .ofSome
    [("code", some (.str i.code)), ("severity", some (.str (if i.isError then "error" else "warning"))),
     ("message", some (.str i.message)), ("path", i.path?.map .str),
     ("stageIds", if i.stageIds.isEmpty then none else some (.strings i.stageIds))]

end ChannelIssue

def repeated (names : List String) : List String :=
  let twice := names.filter fun name => 1 < names.count name
  (Table.ofList (twice.map fun name => (name, ()))).names

namespace Channel

def duplicateStages (c : Channel) : List ChannelIssue := (repeated c.stageIds).map .duplicateStage

def duplicateEdges (c : Channel) : List ChannelIssue :=
  (repeated (c.edges.map (·.id))).map .duplicateEdge

def unknownStages (c : Channel) : List ChannelIssue :=
  c.edges.zipIdx.flatMap fun (e, index) =>
    [(EdgeEnd.source, e.source), (EdgeEnd.target, e.target)].filterMap fun (edgeEnd, stage) =>
      if c.stageIds.contains stage then none else some (.unknownStage index e.id edgeEnd stage)

def orphanIds (c : Channel) : List String :=
  c.stageIds.filter fun id => !c.edges.any fun e => e.source = id || e.target = id

def orphanStages (c : Channel) : List ChannelIssue :=
  if c.orphanIds.isEmpty then [] else [.orphans c.orphanIds]

def cycleIssues (c : Channel) : List ChannelIssue := (StageGraph.ofChannel c).cycles.map .cycle

def issues (c : Channel) : List ChannelIssue :=
  c.duplicateStages ++ c.duplicateEdges ++ c.unknownStages ++ c.orphanStages ++ c.cycleIssues

end Channel

structure ChannelValidation where
  channel : Option Channel
  errors : List ChannelIssue
  warnings : List ChannelIssue
  deriving Repr

namespace ChannelValidation

def valid (v : ChannelValidation) : Bool := v.channel.isSome

def ofIssues (channel : Option Channel) (issues : List ChannelIssue) : ChannelValidation :=
  let errors := issues.filter (·.isError)
  ⟨if errors.isEmpty then channel else none, errors, issues.filter (!·.isError)⟩

def toJson (v : ChannelValidation) : Json :=
  .ofPairs [("valid", .bool v.valid), ("errors", .arr (v.errors.map ChannelIssue.toJson)),
    ("warnings", .arr (v.warnings.map ChannelIssue.toJson))]

def warningsByStage (v : ChannelValidation) : Table (List String) :=
  v.warnings.foldl (fun table w =>
    w.stageIds.foldl (fun table id => Table.insert id ((Table.get? table id).getD [] ++ [w.message]) table)
      table) []

end ChannelValidation

def documentIssues : Json → List ChannelIssue
  | .obj fields => (Document.root fields).map .document
  | _ => [.notObject]

def Channel.named (document : Json) (c : Channel) : Channel :=
  let id := if c.channelId = "" then deriveId "channel" (ContentHash.ofContent document).hash else c.channelId
  { c with channelId := id, title := if Text.isBlankText c.title then id else c.title }

def validateChannel (document : Json) : ChannelValidation :=
  let outline := documentIssues document
  if !outline.isEmpty then .ofIssues none outline
  else
    match Channel.reader.read document with
    | .error reason => .ofIssues none [.unreadable reason]
    | .ok read =>
      let c := read.named document
      .ofIssues (some c) ((if read.channelId = "" then [.defaultedId c.channelId] else []) ++ c.issues)

end Conduit
