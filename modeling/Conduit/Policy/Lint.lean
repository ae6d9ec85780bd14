import Conduit.Policy.Basic
import Conduit.Json.Shape
import Conduit.Text.Class

/-! Holding a channel against the policy of its organization: twelve rules, some about the channel and some
about each stage. -/
namespace Conduit

inductive PolicyRule where
  | httpOut | tcpOut | udpOut | publicHttpIn
  | blockedNexon | unlistedNexon | unpinnedVersion
  | target
  | stageLimit | stageCount
  | documentation
  | sensitiveData
  deriving DecidableEq, Repr

namespace PolicyRule

def all : List PolicyRule :=
  [.httpOut, .tcpOut, .udpOut, .publicHttpIn, .blockedNexon, .unlistedNexon, .unpinnedVersion, .target,
   .stageLimit, .stageCount, .documentation, .sensitiveData]

def id : PolicyRule → String
  | .httpOut => "security.internet-http-out"
  | .tcpOut => "security.internet-tcp-out"
  | .udpOut => "security.internet-udp-out"
  | .publicHttpIn => "security.public-http-in"
  | .blockedNexon => "nexon.blocked"
  | .unlistedNexon => "nexon.not-allowed"
  | .unpinnedVersion => "nexon.unpinned-version"
  | .target => "runtime.target-not-allowed"
  | .stageLimit => "limits.max-stages"
  | .stageCount => "limits.stage-count-warning"
  | .documentation => "docs.missing"
  | .sensitiveData => "compliance.sensitive-data"

def category : PolicyRule → String
  | .httpOut => "security"
  | .tcpOut => "security"
  | .udpOut => "security"
  | .publicHttpIn => "security"
  | .blockedNexon => "nexon"
  | .unlistedNexon => "nexon"
  | .unpinnedVersion => "nexon"
  | .target => "runtime"
  | .stageLimit => "limits"
  | .stageCount => "limits"
  | .documentation => "documentation"
  | .sensitiveData => "compliance"

def severity? (p : OrgPolicy) : PolicyRule → Option Severity
  | .httpOut => p.egress.http.severity?
  | .tcpOut => p.egress.tcp.severity?
  | .udpOut => p.egress.udp.severity?
  | .publicHttpIn => p.publicHttpIn.severity?
  | .blockedNexon => some .error
  | .unlistedNexon => p.unlistedNexons.severity?
  | .unpinnedVersion => some .info
  | .target => some .error
  | .stageLimit => some .error
  | .stageCount => some .warning
  | .documentation => p.requireDocumentation.severity?
  | .sensitiveData => p.sensitiveData.severity?

end PolicyRule

namespace Channel

def documentationLength (c : Channel) : Nat := (c.documentation.map (·.textLength)).getD 0

def isExposed (c : Channel) : Bool := c.security.anyEgress || c.target = .cloud

end Channel

inductive Place where
  | channel
  | stage (s : Stage)
  deriving Repr

namespace PolicyRule

def brokenBy (c : Channel) (p : OrgPolicy) (s : Stage) : PolicyRule → Bool
  | .blockedNexon => nexonListed p.blockedNexons s.nexonId
  | .unlistedNexon => p.allowedNexons.any fun allowed => !nexonListed allowed s.nexonId
  | .unpinnedVersion => s.nexonVersion.isNone
  | .sensitiveData => c.isExposed && nexonListed p.sensitiveNexons s.nexonId
  | _ => false

def broken (c : Channel) (p : OrgPolicy) : PolicyRule → Bool
  | .httpOut => c.security.httpOut
  | .tcpOut => c.security.tcpOut
  | .udpOut => c.security.udpOut
  | .publicHttpIn => c.security.httpIn
  | .target => !p.allowedTargets.contains c.target
  | .stageLimit => p.maxStages < c.stages.length
  | .stageCount => p.stageWarnThreshold < c.stages.length && c.stages.length ≤ p.maxStages
  | .documentation => c.documentationLength < p.minDocumentationLength
  | _ => false

def places (c : Channel) (p : OrgPolicy) (r : PolicyRule) : List Place :=
  (if r.broken c p then [.channel] else []) ++ (c.stages.filter fun s => r.brokenBy c p s).map .stage

def message (c : Channel) (p : OrgPolicy) (place : Place) : PolicyRule → String
  | .httpOut => "Channel requests outbound HTTP access to the internet"
  | .tcpOut => "Channel requests outbound TCP access to the internet"
  | .udpOut => "Channel requests outbound UDP access to the internet"
  | .publicHttpIn => "Channel accepts inbound HTTP from the internet"
  | .target => s!"Runtime target '{c.target.name}' is not allowed for this organization"
  | .stageLimit => s!"Channel has {c.stages.length} stages, limit is {p.maxStages}"
  | .stageCount => s!"Channel has {c.stages.length} stages, above the recommended {p.stageWarnThreshold}"
  | .documentation =>
    if c.documentation.isNone then "Channel has no documentation"
    else s!"Channel documentation is shorter than {p.minDocumentationLength} characters"
  | rule =>
    match place with
    | .channel => ""
    | .stage s =>
      match rule with
      | .blockedNexon => s!"Stage '{s.displayName}' uses blocked nexon '{s.nexonId}'"
      | .unlistedNexon => s!"Nexon '{s.nexonId}' is not on the organization's allow list"
      | .unpinnedVersion => s!"Stage '{s.displayName}' does not pin a nexon version"
      | _ =>
        s!"Stage '{s.displayName}' handles sensitive data on a channel with internet or cloud exposure"

def suggestion? : PolicyRule → Option String
  | .httpOut => some "Route traffic through an approved gateway or request a policy exception"
  | .tcpOut => some "Route traffic through an approved gateway or request a policy exception"
  | .udpOut => some "Route traffic through an approved gateway or request a policy exception"
  | .publicHttpIn => some "Expose the endpoint through the organization's ingress instead"
  | .blockedNexon => none
  | .unlistedNexon => some "Use an approved nexon or ask an administrator to allow this one"
  | .unpinnedVersion => some "Set nexonVersion for reproducible builds"
  | .target => none
  | .stageLimit => some "Split the channel into smaller channels"
  | .stageCount => none
  | .documentation => some "Describe what the channel does and who owns it"
  | .sensitiveData => some "Keep sensitive-data stages on-premises without internet egress"

end PolicyRule

structure Violation where
  rule : PolicyRule
  stage : Option String
  severity : Severity
  message : String
  acknowledged : Bool
  deriving DecidableEq, Repr

namespace Violation

def idOf (rule : PolicyRule) : Option String → String
  | some stage => s!"{rule.id}:{stage}"
  | none => rule.id

def id (v : Violation) : String := idOf v.rule v.stage

def blocks (v : Violation) : Bool := v.severity = .error && !v.acknowledged

def toJson (v : Violation) : Json :=
  .ofSome
    [("id", some (.str v.id)), ("ruleId", some (.str v.rule.id)), ("severity", some (.str v.severity.name)),
     ("category", some (.str v.rule.category)), ("message", some (.str v.message)),
     ("stageId", v.stage.map .str), ("suggestion", v.rule.suggestion?.map .str),
     ("acknowledged", some (.bool v.acknowledged))]

end Violation

def Place.stageId? : Place → Option String
  | .channel => none
  | .stage s => some s.id

structure LintResult where
  violations : List Violation
  deriving DecidableEq, Repr

namespace LintResult

def count (r : LintResult) (s : Severity) : Nat := r.violations.countP (·.severity = s)

def acknowledged (r : LintResult) : Nat := r.violations.countP (·.acknowledged)

def passed (r : LintResult) : Bool := !r.violations.any Violation.blocks

def toJson (r : LintResult) : Json :=
  .ofPairs
    [("passed", .bool r.passed), ("violations", .arr (r.violations.map Violation.toJson)),
     ("summary", .ofPairs
        [("errors", .nat (r.count .error)), ("warnings", .nat (r.count .warning)),
         ("info", .nat (r.count .info)), ("acknowledged", .nat r.acknowledged)])]

end LintResult

namespace OrgPolicy

def covers (acknowledged : List String) (rule : PolicyRule) (stage : Option String) : Bool :=
  (acknowledged.map Text.trimmed).any fun a => a = Violation.idOf rule stage || a = rule.id

def violation (p : OrgPolicy) (c : Channel) (acknowledged : List String) (rule : PolicyRule)
    (severity : Severity) (place : Place) : Violation where
  rule := rule
  stage := place.stageId?
  severity := (p.severityOverrides.get? rule.id).getD severity
  message := rule.message c p place
  acknowledged := covers acknowledged rule place.stageId?

def violationsOf (p : OrgPolicy) (c : Channel) (acknowledged : List String) (rule : PolicyRule) :
    List Violation :=
  match rule.severity? p with
  | none => []
  | some severity => (rule.places c p).map (p.violation c acknowledged rule severity)

def lint (p : OrgPolicy) (c : Channel) (acknowledged : List String) : LintResult :=
  ⟨PolicyRule.all.flatMap (p.violationsOf c acknowledged)⟩

end OrgPolicy

/-! A user's acknowledgement of violations, which the next build of the channel takes into account. -/

structure AcknowledgeRequest where
  channelId : String
  userId : String
  violationIds : List String
  reason : String
  deriving DecidableEq, Repr

def AcknowledgeRequest.reader : Json.Reader AcknowledgeRequest where
  shape := .record "AcknowledgeRequest"
    [Json.required "channelId" .string, Json.required "userId" .string,
     Json.required "violationIds" (.list .string), Json.required "reason" .string]
  view v := ⟨v.textAt "channelId" "", v.textAt "userId" "", v.textsAt "violationIds", v.textAt "reason" ""⟩

inductive AcknowledgeError where
  | noReason | noOwner | noViolations
  deriving DecidableEq, Repr

def AcknowledgeError.message : AcknowledgeError → String
  | .noReason => "A reason is required to acknowledge violations"
  | .noOwner => "channelId and userId are required"
  | .noViolations => "No violation ids to acknowledge"

def firstOfEach (seen : List String) : List String → List String
  | [] => []
  | s :: rest => if seen.contains s then firstOfEach seen rest else s :: firstOfEach (s :: seen) rest

def AcknowledgeRequest.accept (r : AcknowledgeRequest) : Except AcknowledgeError (List String) :=
  if Text.isBlankText r.reason then .error .noReason
  else if Text.isBlankText r.channelId || Text.isBlankText r.userId then .error .noOwner
  else
    let ids := firstOfEach [] ((r.violationIds.map Text.trimmed).filter (· ≠ ""))
    if ids.isEmpty then .error .noViolations else .ok ids

def AcknowledgeRequest.response (r : AcknowledgeRequest) : Json :=
  let (success, ids, message) := match r.accept with
    | .ok ids => (true, ids, s!"Acknowledged {ids.length} violation(s)")
    | .error e => (false, [], e.message)
  .ofPairs [("success", .bool success), ("acknowledgedViolations", .strings ids), ("message", .str message)]

end Conduit
