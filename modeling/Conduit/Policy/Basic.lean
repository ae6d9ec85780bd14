import Conduit.Channel.Basic
import Conduit.Json.ShapeReader
import Conduit.Files

/-! What an organization allows, and how severe it finds what it does not. -/
namespace Conduit

inductive Severity where
  | error | warning | info
  deriving DecidableEq, Repr

namespace Severity

def name : Severity → String
  | .error => "error"
  | .warning => "warning"
  | .info => "info"

def shape : Json.Shape := .choice ["error", "warning", "info"]

def ofName (s : String) : Severity :=
  if s = "error" then .error else if s = "warning" then .warning else .info

end Severity

inductive PolicyMode where
  | deny | warn | allow
  deriving DecidableEq, Repr

namespace PolicyMode

def name : PolicyMode → String
  | .deny => "deny"
  | .warn => "warn"
  | .allow => "allow"

def shape : Json.Shape := .choice ["deny", "warn", "allow"]

def ofName (s : String) : PolicyMode := if s = "deny" then .deny else if s = "warn" then .warn else .allow

def severity? : PolicyMode → Option Severity
  | .deny => some .error
  | .warn => some .warning
  | .allow => none

def readAt (key : String) (absent : PolicyMode) (v : Json) : PolicyMode := ofName (v.textAt key absent.name)

end PolicyMode

structure EgressPolicy where
  http : PolicyMode := .warn
  tcp : PolicyMode := .deny
  udp : PolicyMode := .deny
  deriving DecidableEq, Repr

namespace EgressPolicy

def shape : Json.Shape :=
  .record "InternetEgressPolicy"
    [Json.optional "http" PolicyMode.shape, Json.optional "tcp" PolicyMode.shape,
     Json.optional "udp" PolicyMode.shape]

def ofJson (v : Json) : EgressPolicy := ⟨.readAt "http" .warn v, .readAt "tcp" .deny v, .readAt "udp" .deny v⟩

def toJson (p : EgressPolicy) : Json :=
  .ofPairs [("http", .str p.http.name), ("tcp", .str p.tcp.name), ("udp", .str p.udp.name)]

end EgressPolicy

structure OrgPolicy where
  orgId : String := "default"
  egress : EgressPolicy := {}
  publicHttpIn : PolicyMode := .deny
  blockedNexons : List String := []
  allowedNexons : Option (List String) := none
  unlistedNexons : PolicyMode := .deny
  allowedTargets : List Target := [.onprem, .cloud]
  maxStages : Nat := 100
  stageWarnThreshold : Nat := 50
  requireDocumentation : PolicyMode := .warn
  minDocumentationLength : Nat := 20
  sensitiveNexons : List String := []
  sensitiveData : PolicyMode := .warn
  severityOverrides : Table Severity := []
  deriving DecidableEq, Repr

namespace OrgPolicy

def fallbackId : String := "default"

def targetsAt (v : Json) : List Target :=
  match v.member? "allowedTargets" with
  | some (.arr items) => items.filterMap fun t => t.asString?.map Target.ofName
  | _ => [.onprem, .cloud]

def ofJson (v : Json) : OrgPolicy where
  orgId := v.textAt "orgId" fallbackId
  egress := .ofJson (v.valueAt "internetEgress")
  publicHttpIn := .readAt "publicHttpInbound" .deny v
  blockedNexons := v.textsAt "blockedNexons"
  allowedNexons := (v.member? "allowedNexons").map fun _ => v.textsAt "allowedNexons"
  unlistedNexons := .readAt "unlistedNexons" .deny v
  allowedTargets := targetsAt v
  maxStages := v.natAt "maxStages" 100
  stageWarnThreshold := v.natAt "stageWarnThreshold" 50
  requireDocumentation := .readAt "requireDocumentation" .warn v
  minDocumentationLength := v.natAt "minDocumentationLength" 20
  sensitiveNexons := v.textsAt "sensitiveDataNexons"
  sensitiveData := .readAt "sensitiveData" .warn v
  severityOverrides := (v.fieldsAt "severityOverrides").filterMap fun f =>
    f.2.asString?.map fun s => (f.1, .ofName s)

def reader : Json.Reader OrgPolicy where
  shape := .record "OrgPolicy"
    [Json.optional "orgId" .string, Json.optional "internetEgress" EgressPolicy.shape,
     Json.optional "publicHttpInbound" PolicyMode.shape, Json.optional "blockedNexons" (.list .string),
     Json.optional "allowedNexons" (.option (.list .string)),
     Json.optional "unlistedNexons" PolicyMode.shape,
     Json.optional "allowedTargets" (.list Target.shape), Json.optional "maxStages" (.natural .size),
     Json.optional "stageWarnThreshold" (.natural .size),
     Json.optional "requireDocumentation" PolicyMode.shape,
     Json.optional "minDocumentationLength" (.natural .size),
     Json.optional "sensitiveDataNexons" (.list .string), Json.optional "sensitiveData" PolicyMode.shape,
     Json.optional "severityOverrides" (.map Severity.shape)]
  view := ofJson

def toJson (p : OrgPolicy) : Json :=
  .ofPairs
    [("orgId", .str p.orgId), ("internetEgress", p.egress.toJson),
     ("publicHttpInbound", .str p.publicHttpIn.name), ("blockedNexons", .strings p.blockedNexons),
     ("allowedNexons", (p.allowedNexons.map Json.strings).getD .null),
     ("unlistedNexons", .str p.unlistedNexons.name),
     ("allowedTargets", .strings (p.allowedTargets.map Target.name)), ("maxStages", .nat p.maxStages),
     ("stageWarnThreshold", .nat p.stageWarnThreshold),
     ("requireDocumentation", .str p.requireDocumentation.name),
     ("minDocumentationLength", .nat p.minDocumentationLength),
     ("sensitiveDataNexons", .strings p.sensitiveNexons), ("sensitiveData", .str p.sensitiveData.name),
     ("severityOverrides", .obj (p.severityOverrides.map fun o => (o.1, .str o.2.name)))]

end OrgPolicy

def nexonMatches (pattern id : String) : Bool :=
  let cs := pattern.toList
  if cs.getLast? = some '*' then cs.dropLast.isPrefixOf id.toList else pattern = id

def nexonListed (patterns : List String) (id : String) : Bool := patterns.any fun p => nexonMatches p id

/-! Policies by organization. -/

structure PolicyRegistry where
  policies : Table OrgPolicy := []
  fallback : OrgPolicy := {}
  deriving DecidableEq, Repr

namespace PolicyRegistry

def register (r : PolicyRegistry) (p : OrgPolicy) : PolicyRegistry :=
  if p.orgId = OrgPolicy.fallbackId then { r with fallback := p }
  else { r with policies := Table.insert p.orgId p r.policies }

def get (r : PolicyRegistry) (org : String) : OrgPolicy := (r.policies.get? org).getD r.fallback

def size (r : PolicyRegistry) : Nat := r.policies.length

/-- The files of a directory in the order in which they are listed. One that holds no policy is passed
over; one that cannot be read ends the loading. -/
def loadFiles (files : FileTree) (dir : String) (r : PolicyRegistry) :
    List String → Except FileError PolicyRegistry
  | [] => .ok r
  | name :: rest =>
    if (FileTree.jsonStem? name).isNone then loadFiles files dir r rest
    else do
      let text ← files.readText (FileTree.join dir name)
      match OrgPolicy.reader.parse text with
      | .ok p => loadFiles files dir (r.register p) rest
      | .error _ => loadFiles files dir r rest

def load (files : FileTree) (dir : String) : Except FileError PolicyRegistry := do
  if files.fileExists dir then loadFiles files dir {} (← files.list dir) else return {}

end PolicyRegistry

end Conduit
