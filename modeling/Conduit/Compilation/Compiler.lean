import Conduit.Compilation.Basic
import Conduit.Configuration
import Conduit.Nexon.Resolver
import Conduit.Policy.Basic

/-! The compiler: validation, then the policy, then generation, then bundling. Each goes on only where the
one before let the channel through; there is no way to a bundle around any of them. -/
namespace Conduit

structure CompileRequest where
  channel : Json
  orgId : String
  userId : String
  acknowledged : List String := []
  deriving Repr

def CompileRequest.reader : Json.Reader CompileRequest where
  shape := .record "CompileRequest"
    [Json.required "channel" .any, Json.required "orgId" .string, Json.required "userId" .string,
     Json.optional "acknowledgedViolations" (.list .string)]
  view v :=
    { channel := v.valueAt "channel", orgId := v.textAt "orgId" "", userId := v.textAt "userId" ""
      acknowledged := v.textsAt "acknowledgedViolations" }

inductive TaskEnd where
  | finished
  | timedOut
  | aborted (reason : String)
  deriving DecidableEq, Repr

/-- What one build has of its own: all in which two builds of the same request can differ. -/
structure BuildRun where
  buildId : String
  createdAt : Instant
  clock : Clock := .still 0
  bundling : TaskEnd := .finished

structure Compiler where
  config : Configuration
  policies : PolicyRegistry := {}
  sources : List NexonSource := []
  resolver : Resolver

namespace Compiler

-- No network is modelled: the source at the remote address is there, in its place, and is never reached.
def sourcesOf (files : FileTree) (config : Configuration) : List NexonSource :=
  (config.nexonDir.map (NexonSource.directory files)).toList
    ++ (config.remoteUrl.map fun _ => NexonSource.unreachable).toList

def policiesOf (files : FileTree) (config : Configuration) : Except FileError PolicyRegistry :=
  match config.policyDir with
  | some dir => PolicyRegistry.load files dir
  | none => .ok {}

def ofConfiguration (files : FileTree) (config : Configuration) : Except FileError Compiler := do
  let policies ← policiesOf files config
  return { config, policies, sources := sourcesOf files config, resolver := .ofTtl config.templateTtl }

def policyMessage (e : FileError) : String := s!"Policy directory could not be loaded: {e.message}"

def lint (c : Compiler) (channel : Channel) (orgId : String) (acknowledged : List String) : LintResult :=
  (c.policies.get orgId).lint channel acknowledged

def generationOptions (c : Compiler) (b : BuildRun) : GenerationOptions :=
  { buildId := b.buildId, mode := c.config.mode }

def bundleOptions (c : Compiler) (b : BuildRun) : BundleOptions where
  buildId := b.buildId
  createdAt := b.createdAt
  compression := c.config.compression
  includeMetadata := c.config.includeMetadata

def bundling (c : Compiler) (b : BuildRun) (a : Artifacts) : Except BundlingFailure Bundle :=
  match b.bundling with
  | .finished => (Bundle.ofArtifacts a (c.bundleOptions b)).mapError fun e => .failed (.merkle e)
  | .timedOut => .error (.timedOut c.config.bundleTimeout)
  | .aborted reason => .error (.aborted reason)

def lintErrors (l : LintResult) : List CompileIssue := (l.violations.filter (·.blocks)).map .policy

def lintWarnings (l : LintResult) : List CompileIssue :=
  (l.violations.filter fun v => !v.blocks && v.severity ≠ .info).map .policy

def bundled (c : Compiler) (b : BuildRun) (begun : Compilation) (g : Generation) : Compilation :=
  let begun := { begun with warnings := begun.warnings ++ g.warnings.map CompileIssue.generation }
  match c.bundling b g.artifacts with
  | .ok bundle => { begun with product := some ⟨g.artifacts, bundle⟩ }
  | .error failure => { begun with errors := [.bundling failure] }

def build [Regex] (c : Compiler) (request : CompileRequest) (b : BuildRun) (channel : Channel) (begun : Compilation) :
    Compilation × Compiler :=
  let lint := c.lint channel request.orgId request.acknowledged
  let begun := { begun with lint := some lint, warnings := begun.warnings ++ lintWarnings lint }
  if !lint.passed then ({ begun with errors := lintErrors lint }, c)
  else
    let (generation, resolver) := channel.generate (c.generationOptions b) c.sources b.clock c.resolver
    (c.bundled b begun generation, { c with resolver })

def compile [Regex] (c : Compiler) (request : CompileRequest) (b : BuildRun) : Compilation × Compiler :=
  let validation := validateChannel request.channel
  let begun : Compilation :=
    { buildId := b.buildId, validation, warnings := validation.warnings.map .validation }
  match validation.channel with
  | none => ({ begun with errors := validation.errors.map .validation }, c)
  | some channel => c.build request b channel begun

end Compiler

end Conduit
