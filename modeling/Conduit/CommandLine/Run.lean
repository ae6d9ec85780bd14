import Conduit.Artifacts
import Conduit.CommandLine.Command
import Conduit.Compilation.Compiler
import Conduit.Environment

/-! Carrying out a command: its answer is a JSON document, and an exit code that tells success from a channel,
nexon or bundle that was refused and from a command that could not be carried out. -/
namespace Conduit

inductive ExitCode where
  | success | failure | refused
  deriving DecidableEq, Repr

def ExitCode.toNat : ExitCode → Nat
  | .success => 0
  | .failure => 1
  | .refused => 2

structure Reply where
  exit : ExitCode
  output : String := ""
  complaint : String := ""
  saved : Option (String × Bytes) := none
  deriving Repr

namespace Reply

def line (s : String) : String := s ++ "\n"

def answer (accepted : Bool) (v : Json) : Reply where
  exit := if accepted then .success else .refused
  output := line v.pretty

def ofError (exit : ExitCode) (fields : List (String × Json)) : Reply where
  exit := exit
  output := line (Json.ofPairs fields).compact

def failed (message : String) : Reply := ofError .failure [("error", .str message)]

def ofUsage : UsageEnd → Reply
  | .help text => { exit := .success, output := line text }
  | .wrong reason => { exit := .refused, complaint := line s!"error: {reason.message}" }

end Reply

namespace Command

def readFailure (path : String) (e : FileError) : String := s!"Failed to read {path}: {e.message}"

def readChannel (files : FileTree) (path : String) : Except String Json := do
  let text ← (files.readText path).mapError (readFailure path)
  (Json.parse text).mapError fun e => s!"Invalid channel JSON: {e.message}"

def compiled (files : FileTree) (mode : BuildMode) (out : Option String) (done : Compilation) : Reply :=
  let report := done.report false
  match out, done.product with
  | some path, some product =>
    match files.save path product.bundle.bytes with
    | .error e => .failed s!"Failed to write {path}: {e.message}"
    | .ok _ =>
      let handoff := Handoff.ofArtifacts (FileTree.parent path) product.artifacts done.buildId mode
      { Reply.answer done.success (.ofPairs [("result", report), ("handoff", handoff.toJson)]) with
        saved := some (path, product.bundle.bytes) }
  | _, _ => .answer done.success report

def linted (c : Compiler) (org : String) (acknowledged : List String) (v : ChannelValidation) : Reply :=
  match v.channel with
  | none => .answer false v.toJson
  | some channel =>
    let result := c.lint channel org acknowledged
    .answer result.passed result.toJson

def resolved [Regex] : Except TemplateError Nexon → Reply
  | .error e => .ofError .refused [("error", .str e.message)]
  | .ok n =>
    let report := TemplateDocument.report { manifest := n.manifest, nodes := n.nodes }
    .answer report.valid
      (.ofPairs
        [("key", .str n.key), ("manifest", n.manifest.toJson), ("source", n.sourceJson),
         ("validation", report.toJson)])

def verified (limit : Nat) (bytes : Bytes) : Reply :=
  match Bundle.verify limit none bytes with
  | .ok report => .answer report.valid report.toJson
  | .error e => .ofError .refused [("valid", .bool false), ("error", .str e.message)]

def onChannel (files : FileTree) (path : String) (reply : Json → Reply) : Reply :=
  match readChannel files path with
  | .ok document => reply document
  | .error message => .failed message

def run [Regex] (c : Compiler) (files : FileTree) (b : BuildRun) : Command → Reply
  | .compile path org user acknowledged out =>
    onChannel files path fun channel =>
      compiled files c.config.mode out (c.compile ⟨channel, org, user, acknowledged⟩ b).1
  | .validate path =>
    onChannel files path fun channel =>
      let v := validateChannel channel
      .answer v.valid v.toJson
  | .lint path org acknowledged =>
    onChannel files path fun channel => linted c org acknowledged (validateChannel channel)
  | .nexon id version => resolved (c.resolver.resolve c.sources (b.clock 0) ⟨id, version, false⟩).1
  | .verify path =>
    match files.read path with
    | .ok bytes => verified c.config.maxBundleBytes bytes
    | .error e => .failed (readFailure path e)

end Command

namespace CommandLine

def variablesFile : String := ".env"

def environmentOf (files : FileTree) (env : Environment) : Environment :=
  ((files.nearest? variablesFile).map env.defineFrom).getD env

/-- What the arguments ask for, done: the arguments come first, then the configuration, then the policies. -/
def run [Regex] (files : FileTree) (env : Environment) (b : BuildRun) (arguments : List String) : Reply :=
  match Command.read arguments with
  | .error early => .ofUsage early
  | .ok command =>
    match Configuration.ofVariables (environmentOf files env).get? with
    | .error e => .failed s!"Invalid configuration: {e.message}"
    | .ok config =>
      match Compiler.ofConfiguration files config with
      | .error e => .failed (Compiler.policyMessage e)
      | .ok compiler => command.run compiler files b

end CommandLine

end Conduit
