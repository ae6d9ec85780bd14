import Conduit.CommandLine.Option

/-! The commands of the command line. -/
namespace Conduit

inductive Command where
  | compile (channel org user : String) (acknowledged : List String) (out : Option String)
  | validate (channel : String)
  | lint (channel org : String) (acknowledged : List String)
  | nexon (id : String) (version : Option String)
  | verify (bundle : String)
  deriving DecidableEq, Repr

structure CommandSpec where
  name : String
  summary : String
  options : List OptionSpec
  command : GivenOptions → Command

namespace CommandSpec

def channelOption : OptionSpec where
  long := "channel"
  short := some 'c'
  value := "CHANNEL"
  summary := "Channel document (JSON)"
  isPath := true
  isRequired := true

def orgOption : OptionSpec where
  long := "org"
  short := some 'o'
  value := "ORG"
  summary := "Organization whose policy applies"
  isRequired := true

def ackOption : OptionSpec where
  long := "ack"
  value := "ACKS"
  summary := "Acknowledged violation id or rule id (repeatable)"
  isRepeatable := true

def compile : CommandSpec where
  name := "compile"
  summary := "Compile a channel into a deployable bundle"
  options :=
    [channelOption, orgOption,
     { long := "user", short := some 'u', value := "USER", summary := "Who compiles" },
     ackOption,
     { long := "out", value := "OUT", isPath := true
       summary := "Write the bundle here" }]
  command g :=
    .compile (g.value "channel") (g.value "org") ((g.value? "user").getD "cli") (g.valuesOf "ack")
      (g.value? "out")

def validate : CommandSpec where
  name := "validate"
  summary := "Validate a channel document"
  options := [channelOption]
  command g := .validate (g.value "channel")

def lint : CommandSpec where
  name := "lint"
  summary := "Lint a channel against an organization's policy"
  options := [channelOption, orgOption, ackOption]
  command g := .lint (g.value "channel") (g.value "org") (g.valuesOf "ack")

def nexon : CommandSpec where
  name := "nexon"
  summary := "Resolve and check a nexon template"
  options :=
    [{ long := "id", value := "ID", summary := "Id of the nexon", isRequired := true },
     { long := "version", value := "VERSION", summary := "Version, if not the latest" }]
  command g := .nexon (g.value "id") (g.value? "version")

def verify : CommandSpec where
  name := "verify"
  summary := "Recompute hashes and Merkle root of a bundle"
  options :=
    [{ long := "bundle", short := some 'b', value := "BUNDLE", summary := "Bundle to check", isPath := true
       isRequired := true }]
  command g := .verify (g.value "bundle")

def all : List CommandSpec := [compile, validate, lint, nexon, verify]

def find? (name : String) : Option CommandSpec := all.find? (·.name = name)

/-! Help. -/

def optionHelp (o : OptionSpec) : String :=
  (match o.short with
    | some c => s!"  -{c}, "
    | none => "      ") ++ o.display ++ "  " ++ o.summary

def help (c : CommandSpec) : String :=
  "\n".intercalate
    ([c.summary, "", s!"Usage: conduit {c.name} [OPTIONS]", "", "Options:"] ++ c.options.map optionHelp
      ++ ["  -h, --help  Print help"])

def overview : String :=
  "\n".intercalate
    (["Compile channels into bundles", "", "Usage: conduit <COMMAND>", "", "Commands:"]
      ++ (all.map fun c => s!"  {c.name}  {c.summary}") ++ ["  help  Print help", "", "Options:",
        "  -h, --help  Print help"])

end CommandSpec

inductive UsageEnd where
  | help (text : String)
  | wrong (reason : UsageError)
  deriving DecidableEq, Repr

namespace Command

def helpOn : List String → UsageEnd
  | [] => .help CommandSpec.overview
  | ["help"] => .help CommandSpec.overview
  | name :: rest =>
    match CommandSpec.find? name, rest with
    | some c, [] => .help c.help
    | some _, other :: _ => .wrong (.unknownCommand other)
    | none, _ => .wrong (.unknownCommand name)

def noCommand (argument : String) : UsageEnd :=
  match argument.toList with
  | ['-', '-'] => .wrong .noCommand
  | '-' :: 'h' :: _ => .help CommandSpec.overview
  | '-' :: _ =>
    if argument = "--help" then .help CommandSpec.overview else .wrong (.unexpected argument)
  | _ => .wrong (.unknownCommand argument)

def read : List String → Except UsageEnd Command
  | [] => .error (.wrong .noCommand)
  | name :: rest =>
    if name = "help" then .error (helpOn rest)
    else
      match CommandSpec.find? name with
      | none => .error (noCommand name)
      | some c =>
        match GivenOptions.read c.options rest with
        | .ok given => .ok (c.command given)
        | .error .help => .error (.help c.help)
        | .error (.wrong reason) => .error (.wrong reason)

end Command

end Conduit
