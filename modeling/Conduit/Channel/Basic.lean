import Conduit.Channel.Param
import Conduit.Json.Shape
import Conduit.Text.Class

/-! Channels: stages that each use a nexon, joined by edges from the outlets of one stage to another. -/
namespace Conduit

inductive Target where
  | onprem | cloud
  deriving DecidableEq, Repr

namespace Target

def name : Target → String
  | .onprem => "onprem"
  | .cloud => "cloud"

def shape : Json.Shape := .choice ["onprem", "cloud"]

def ofName (s : String) : Target := if s = "cloud" then .cloud else .onprem

end Target

inductive BuildMode where
  | production | development
  deriving DecidableEq, Repr

namespace BuildMode

def name : BuildMode → String
  | .production => "production"
  | .development => "development"

def ofName (s : String) : BuildMode := if s = "development" then .development else .production

def reader : Json.Reader BuildMode where
  shape := .choice ["production", "development"]
  view v := ofName (v.asString?.getD "")

end BuildMode

structure Security where
  httpOut : Bool := false
  tcpOut : Bool := false
  udpOut : Bool := false
  httpIn : Bool := false
  deriving DecidableEq, Repr

namespace Security

def anyEgress (s : Security) : Bool := s.httpOut || s.tcpOut || s.udpOut

def shape : Json.Shape :=
  .record "SecurityFlags"
    [Json.optional "allowInternetHttpOut" .bool, Json.optional "allowInternetTcpOut" .bool,
     Json.optional "allowInternetUdpOut" .bool, Json.optional "allowHttpInFromInternet" .bool]

def ofJson (v : Json) : Security :=
  ⟨v.flagAt "allowInternetHttpOut", v.flagAt "allowInternetTcpOut", v.flagAt "allowInternetUdpOut",
    v.flagAt "allowHttpInFromInternet"⟩

def toJson (s : Security) : Json :=
  .ofPairs [("allowInternetHttpOut", .bool s.httpOut), ("allowInternetTcpOut", .bool s.tcpOut),
    ("allowInternetUdpOut", .bool s.udpOut), ("allowHttpInFromInternet", .bool s.httpIn)]

end Security

structure Documentation where
  summary : Option String := none
  owner : Option String := none
  notes : Option String := none
  deriving DecidableEq, Repr

namespace Documentation

def shape : Json.Shape :=
  .record "Documentation"
    [Json.optional "summary" (.option .string), Json.optional "owner" (.option .string),
     Json.optional "notes" (.option .string)]

def ofJson (v : Json) : Documentation := ⟨v.textAt? "summary", v.textAt? "owner", v.textAt? "notes"⟩

def toJson (d : Documentation) : Json :=
  .ofSome [("summary", d.summary.map .str), ("owner", d.owner.map .str), ("notes", d.notes.map .str)]

-- The zero a sum starts from is the core library's, whatever else is imported.
attribute [local instance (2000)] Zero.ofOfNat0

def textLength (d : Documentation) : Nat :=
  ([d.summary, d.notes].filterMap id |>.map fun s => (Text.trimmed s).utf8ByteSize).sum

end Documentation

structure Position where
  x : Double
  y : Double
  deriving DecidableEq, Repr

namespace Position

def shape : Json.Shape := .record "Position" [Json.required "x" .double, Json.required "y" .double]

def ofJson (v : Json) : Position := ⟨(v.doubleAt? "x").getD .zero, (v.doubleAt? "y").getD .zero⟩

def toJson (p : Position) : Json := .ofPairs [("x", .num (.real p.x)), ("y", .num (.real p.y))]

end Position

structure Stage where
  id : String
  title : Option String := none
  nexonId : String
  nexonVersion : Option String := none
  params : List (String × Param) := []
  position : Option Position := none
  deriving Repr

namespace Stage

def displayName (s : Stage) : String := s.title.getD s.id

def shape : Json.Shape :=
  .record "Stage"
    [Json.required "id" .string, Json.optional "title" (.option .string), Json.required "nexonId" .string,
     Json.optional "nexonVersion" (.option .string), Json.optional "params" (.map .any),
     Json.optional "position" (.option Position.shape)]

def ofJson (v : Json) : Stage where
  id := v.textAt "id" ""
  title := v.textAt? "title"
  nexonId := v.textAt "nexonId" ""
  nexonVersion := v.textAt? "nexonVersion"
  params := Param.ofFields (v.fieldsAt "params")
  position := (v.member? "position").map Position.ofJson

def toJson (s : Stage) : Json :=
  .ofSome [("id", some (.str s.id)), ("title", s.title.map .str), ("nexonId", some (.str s.nexonId)),
    ("nexonVersion", s.nexonVersion.map .str), ("params", some (.obj (Param.toFields s.params))),
    ("position", s.position.map Position.toJson)]

def secrets (s : Stage) : List (String × String) :=
  s.params.flatMap fun p => p.2.secrets s!"{s.id}.{p.1}"

end Stage

inductive OutletRef where
  | index (n : Nat)
  | name (s : String)
  deriving DecidableEq, Repr

namespace OutletRef

def shape : Json.Shape := .either "OutletRef" (.natural .u32) .string

def ofJson : Json → OutletRef
  | .str s => .name s
  | v => .index (v.asNat?.getD 0)

def toJson : OutletRef → Json
  | .index n => .nat n
  | .name s => .str s

end OutletRef

structure Edge where
  id : String
  source : String
  outlet : Option OutletRef := none
  target : String
  inlet : Option Nat := none
  deriving DecidableEq, Repr

namespace Edge

def sourceShape : Json.Shape :=
  .record "EdgeSource"
    [Json.required "stageId" .string, Json.optional "outlet" (.option OutletRef.shape)]

def targetShape : Json.Shape :=
  .record "EdgeTarget"
    [Json.required "stageId" .string, Json.optional "inlet" (.option (.natural .u32))]

def ofJson (v : Json) : Edge :=
  let source := v.valueAt "from"
  let target := v.valueAt "to"
  { id := v.textAt "id" ""
    source := source.textAt "stageId" ""
    outlet := (source.member? "outlet").map OutletRef.ofJson
    target := target.textAt "stageId" ""
    inlet := target.natAt? "inlet" }

def reader : Json.Reader Edge where
  shape := .record "Edge"
    [Json.required "id" .string, Json.required "from" sourceShape, Json.required "to" targetShape]
  view := ofJson

def toJson (e : Edge) : Json :=
  .ofPairs [("id", .str e.id),
    ("from", .ofSome [("stageId", some (.str e.source)), ("outlet", e.outlet.map OutletRef.toJson)]),
    ("to", .ofSome [("stageId", some (.str e.target)), ("inlet", e.inlet.map Json.nat)])]

end Edge

structure Channel where
  version : String := "1.0"
  channelId : String := ""
  title : String := ""
  target : Target := .onprem
  security : Security := {}
  stages : List Stage
  edges : List Edge := []
  documentation : Option Documentation := none
  deriving Repr

namespace Channel

def runtimeShape : Json.Shape := .record "RuntimeSpec" [Json.optional "target" Target.shape]

def ofJson (v : Json) : Channel where
  version := v.textAt "version" "1.0"
  channelId := v.textAt "channelId" ""
  title := v.textAt "title" ""
  target := .ofName ((v.valueAt "runtime").textAt "target" "")
  security := .ofJson (v.valueAt "security")
  stages := (v.itemsAt "stages").map Stage.ofJson
  edges := (v.itemsAt "edges").map Edge.ofJson
  documentation := (v.member? "documentation").map Documentation.ofJson

def reader : Json.Reader Channel where
  shape := .record "Channel"
    [Json.optional "version" .string, Json.optional "channelId" .string, Json.optional "title" .string,
     Json.optional "runtime" runtimeShape, Json.optional "security" Security.shape,
     Json.required "stages" (.list Stage.shape), Json.optional "edges" (.list Edge.reader.shape),
     Json.optional "documentation" (.option Documentation.shape)]
  view := ofJson

def toJson (c : Channel) : Json :=
  .ofSome [("version", some (.str c.version)), ("channelId", some (.str c.channelId)),
    ("title", some (.str c.title)), ("runtime", some (.ofPairs [("target", .str c.target.name)])),
    ("security", some c.security.toJson), ("stages", some (.arr (c.stages.map Stage.toJson))),
    ("edges", some (.arr (c.edges.map Edge.toJson))),
    ("documentation", c.documentation.map Documentation.toJson)]

def stage? (c : Channel) (id : String) : Option Stage := c.stages.find? (·.id = id)

def stageIds (c : Channel) : List String := c.stages.map (·.id)

def metadata (c : Channel) : List (String × String) :=
  [("GJ_CHANNEL_ID", c.channelId), ("GJ_CHANNEL_TITLE", c.title), ("GJ_CHANNEL_VERSION", c.version),
   ("GJ_RUNTIME_TARGET", c.target.name)]

end Channel

end Conduit
