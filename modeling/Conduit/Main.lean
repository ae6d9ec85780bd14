import Std.Time.DateTime.Timestamp
import Conduit.CommandLine.Run
import Conduit.Pattern
import Conduit.Text.Encoding

/-! The command line on a machine: what a command can look at is taken into a tree of files, the command is
carried out on that tree, and its reply is printed and its file written. -/
namespace Conduit.Machine

def pathOf (route : Route) : String := "/" ++ "/".intercalate route

def load (depth : Nat) (route : Route) (files : FileTree) : IO FileTree := do
  let path := (← IO.currentDir) / pathOf route
  try
    if ← path.isDir then
      let files := files.putAt route .directory
      match depth with
      | 0 => return files
      | depth + 1 =>
        (← path.readDir).foldlM (fun files entry => load depth (route ++ [entry.fileName]) files) files
    else if ← path.pathExists then
      return files.putAt route (.file (← IO.FS.readBinFile path).toList)
    else return files
  catch _ => return files

def follow (route : Route) (names : List String) : Route :=
  names.foldl (fun route name => if name = ".." then route.dropLast else route ++ [name]) route

def loadPath (files : FileTree) (path : String) (depth : Nat) : IO FileTree := do
  let names := FileTree.parts path
  let start := files.start path
  let files ← (List.range names.length).foldlM
    (fun files n => load 0 (follow start (names.take n)) files) files
  load depth (follow start names) files

def currentTree : IO FileTree := do
  return { current := FileTree.parts (← IO.currentDir).toString }

def loadVariables (files : FileTree) : IO FileTree :=
  (List.range (files.current.length + 1)).foldlM
    (fun files n => load 0 (files.current.take n ++ [CommandLine.variablesFile]) files) files

def environment (files : FileTree) : IO Environment := do
  let text := (files.nearest? CommandLine.variablesFile).bind Text.ofUtf8?
  let mentioned := (text.map Environment.mentioned).getD []
  (Configuration.variableNames ++ mentioned).foldlM (fun env name => do
    match ← IO.getEnv name with
    | some value => return env.define name value
    | none => return env) []

def commandPaths : Command → List String
  | .compile channel _ _ _ out => channel :: out.toList
  | .validate channel => [channel]
  | .lint channel _ _ => [channel]
  | .nexon _ _ => []
  | .verify bundle => [bundle]

def paths (env : Environment) (arguments : List String) : List (String × Nat) :=
  match Command.read arguments, Configuration.ofVariables env.get? with
  | .ok command, .ok config =>
    (commandPaths command).map (·, 0) ++ config.policyDir.toList.map (·, 1)
      ++ config.nexonDir.toList.map (·, 2)
  | _, _ => []

def identifier (bytes : Bytes) : String :=
  let marked := bytes.mapIdx fun i b =>
    if i = 6 then 0x40 ||| (b &&& 0x0F) else if i = 8 then 0x80 ||| (b &&& 0x3F) else b
  let part (start count : Nat) := Text.Hex.encode ((marked.drop start).take count)
  "-".intercalate [part 0 4, part 4 2, part 6 2, part 8 2, part 10 6]

def newBuild : IO BuildRun := do
  let nanos := (← Std.Time.Timestamp.now).toNanosecondsSinceUnixEpoch.toInt
  let seconds := Int.fdiv nanos 1000000000
  return {
    buildId := identifier (← IO.getRandomBytes 16).toList
    createdAt := ⟨seconds, (nanos - seconds * 1000000000).toNat⟩
    clock := .still seconds.toNat }

def save (reply : Reply) : IO Reply := do
  match reply.saved with
  | none => return reply
  | some (path, content) =>
    try
      IO.FS.writeBinFile path ⟨content.toArray⟩
      return reply
    catch e => return .failed s!"Failed to write {path}: {e}"

def run (arguments : List String) : IO ExitCode := do
  let files ← loadVariables (← currentTree)
  let env ← environment files
  let needed := paths (CommandLine.environmentOf files env) arguments
  let files ← needed.foldlM (fun files p => loadPath files p.1 p.2) files
  let reply ← save (@CommandLine.run Pattern.engine files env (← newBuild) arguments)
  IO.print reply.output
  IO.eprint reply.complaint
  return reply.exit

end Conduit.Machine

def main (arguments : List String) : IO UInt32 := do
  return UInt32.ofNat (← Conduit.Machine.run arguments).toNat
