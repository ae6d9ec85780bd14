import Conduit.Bundle.Contents
import Conduit.Channel.Validation
import Conduit.Flow.Generation
import Conduit.Policy.Lint
import Conduit.Text.Encoding

/-! What comes of compiling a channel: what every stage had to say, and the product if none of them stopped
the work. -/
namespace Conduit

inductive CompileStage where
  | validate | lint | generate | bundle | internal
  deriving DecidableEq, Repr

def CompileStage.name : CompileStage → String
  | .validate => "validate"
  | .lint => "lint"
  | .generate => "generate"
  | .bundle => "bundle"
  | .internal => "internal"

inductive BundlingFailure where
  | timedOut (seconds : Nat)
  | failed (reason : BundleError)
  | aborted (reason : String)
  deriving Repr

namespace BundlingFailure

def stage : BundlingFailure → CompileStage
  | .aborted _ => .internal
  | _ => .bundle

def code : BundlingFailure → String
  | .timedOut _ => "bundle.timeout"
  | .failed _ => "bundle.failed"
  | .aborted _ => "internal"

def span (seconds : Nat) : String := if seconds = 0 then "0ns" else s!"{seconds}s"

def message : BundlingFailure → String
  | .timedOut seconds => s!"Bundling timed out after {span seconds}"
  | .failed reason => reason.message
  | .aborted reason => s!"Bundling task failed: {reason}"

end BundlingFailure

inductive CompileIssue where
  | validation (issue : ChannelIssue)
  | policy (violation : Violation)
  | generation (issue : FlowIssue)
  | bundling (failure : BundlingFailure)
  deriving Repr

namespace CompileIssue

def stage : CompileIssue → CompileStage
  | .validation _ => .validate
  | .policy _ => .lint
  | .generation _ => .generate
  | .bundling failure => failure.stage

def code : CompileIssue → String
  | .validation issue => issue.code
  | .policy violation => violation.id
  | .generation issue => issue.code
  | .bundling failure => failure.code

def message : CompileIssue → String
  | .validation issue => issue.message
  | .policy violation => violation.message
  | .generation issue => issue.message
  | .bundling failure => failure.message

def stageId? : CompileIssue → Option String
  | .validation issue => issue.stageIds.head?
  | .policy violation => violation.stage
  | .generation issue => some issue.stage
  | .bundling _ => none

def toJson (i : CompileIssue) : Json :=
  .ofSome
    [("stage", some (.str i.stage.name)), ("code", some (.str i.code)), ("message", some (.str i.message)),
     ("stageId", i.stageId?.map .str)]

end CompileIssue

structure Product where
  artifacts : Artifacts
  bundle : Bundle
  deriving Repr

structure Compilation where
  buildId : String
  validation : ChannelValidation
  lint : Option LintResult := none
  errors : List CompileIssue := []
  warnings : List CompileIssue := []
  product : Option Product := none
  deriving Repr

namespace Compilation

def success (c : Compilation) : Bool := c.product.isSome

private def issuesJson? (issues : List CompileIssue) : Option Json :=
  if issues.isEmpty then none else some (.arr (issues.map CompileIssue.toJson))

def report (c : Compilation) (withBundle : Bool) : Json :=
  .ofSome
    [("success", some (.bool c.success)), ("buildId", some (.str c.buildId)),
     ("validation", some c.validation.toJson), ("policyLint", c.lint.map LintResult.toJson),
     ("errors", issuesJson? c.errors), ("warnings", issuesJson? c.warnings),
     ("bundle", if withBundle then c.product.map fun p => .str (Text.Base64.encode p.bundle.bytes) else none),
     ("hashes", c.product.map (·.bundle.hashes.toJson)),
     ("metadata", c.product.map (·.bundle.metadata.toJson))]

end Compilation

end Conduit
