import Conduit.Basic

/-! The options of a command as they are written: `--name V`, `--name=V`, `-n V`, `-nV` or `-n=V`. Arguments
are taken one by one, and the first that does not fit ends the reading. -/
namespace Conduit

structure OptionSpec where
  long : String
  short : Option Char := none
  value : String
  summary : String
  isPath : Bool := false
  isRequired : Bool := false
  isRepeatable : Bool := false
  deriving DecidableEq, Repr

namespace OptionSpec

def display (o : OptionSpec) : String := s!"--{o.long} <{o.value}>"

end OptionSpec

inductive UsageError where
  | noCommand
  | unknownCommand (name : String)
  | unexpected (argument : String)
  | noValue (option : OptionSpec)
  | repeated (option : OptionSpec)
  | missing (options : List OptionSpec)
  deriving DecidableEq, Repr

def UsageError.message : UsageError → String
  | .noCommand => "a command is required"
  | .unknownCommand name => s!"unrecognized command '{name}'"
  | .unexpected argument => s!"unexpected argument '{argument}' found"
  | .noValue option => s!"a value is required for '{option.display}' but none was supplied"
  | .repeated option => s!"the argument '{option.display}' cannot be used multiple times"
  | .missing options =>
    "the following required arguments were not provided: " ++ ", ".intercalate (options.map (·.display))

inductive Interruption where
  | help
  | wrong (reason : UsageError)
  deriving DecidableEq, Repr

structure GivenOptions where
  values : List (String × String) := []
  awaiting : Option OptionSpec := none
  closed : Bool := false
  deriving DecidableEq, Repr

namespace GivenOptions

def value? (g : GivenOptions) (name : String) : Option String := g.values.lookup name

def value (g : GivenOptions) (name : String) : String := (g.value? name).getD ""

def valuesOf (g : GivenOptions) (name : String) : List String :=
  (g.values.filter (·.1 = name)).map (·.2)

def accept (g : GivenOptions) (o : OptionSpec) (value : String) : Except Interruption GivenOptions :=
  if o.isPath && value = "" then .error (.wrong (.noValue o))
  else if !o.isRepeatable && (g.value? o.long).isSome then .error (.wrong (.repeated o))
  else .ok { g with values := g.values ++ [(o.long, value)], awaiting := none }

def take (g : GivenOptions) (o : OptionSpec) : Option String → Except Interruption GivenOptions
  | some value => g.accept o value
  | none => .ok { g with awaiting := some o }

def isValue (argument : String) : Bool := argument = "-" || argument.toList.head? ≠ some '-'

def attached? : List Char → Option String
  | '=' :: value => some (String.ofList value)
  | _ => none

def glued? : List Char → Option String
  | [] => none
  | '=' :: value => some (String.ofList value)
  | value => some (String.ofList value)

def long (specs : List OptionSpec) (g : GivenOptions) (argument : String) (cs : List Char) :
    Except Interruption GivenOptions :=
  let name := String.ofList (cs.takeWhile (· ≠ '='))
  let attached := attached? (cs.dropWhile (· ≠ '='))
  if name = "help" && attached.isNone then .error .help
  else
    match specs.find? (·.long = name) with
    | some o => g.take o attached
    | none => .error (.wrong (.unexpected argument))

def short (specs : List OptionSpec) (g : GivenOptions) (argument : String) (c : Char) (cs : List Char) :
    Except Interruption GivenOptions :=
  if c = 'h' then .error .help
  else
    match specs.find? (·.short = some c) with
    | some o => g.take o (glued? cs)
    | none => .error (.wrong (.unexpected argument))

def start (specs : List OptionSpec) (g : GivenOptions) (argument : String) :
    Except Interruption GivenOptions :=
  match argument.toList with
  | ['-', '-'] => .ok { g with closed := true }
  | '-' :: '-' :: cs => g.long specs argument cs
  | '-' :: c :: cs => g.short specs argument c cs
  | _ => .error (.wrong (.unexpected argument))

def step (specs : List OptionSpec) (g : GivenOptions) (argument : String) :
    Except Interruption GivenOptions :=
  match g.awaiting with
  | some o => if isValue argument then g.accept o argument else .error (.wrong (.noValue o))
  | none => if g.closed then .error (.wrong (.unexpected argument)) else g.start specs argument

def finish (specs : List OptionSpec) (g : GivenOptions) : Except Interruption GivenOptions :=
  match g.awaiting with
  | some o => .error (.wrong (.noValue o))
  | none =>
    let missing := specs.filter fun o => o.isRequired && (g.value? o.long).isNone
    if missing.isEmpty then .ok g else .error (.wrong (.missing missing))

def read (specs : List OptionSpec) (arguments : List String) : Except Interruption GivenOptions := do
  (← arguments.foldlM (step specs) {}).finish specs

end GivenOptions

end Conduit
