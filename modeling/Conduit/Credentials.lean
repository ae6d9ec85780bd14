import Conduit.Channel.Basic
import Conduit.Channel.Param

/-! The credentials of a channel: for each place that holds a secret the variable it is read from. The
first place of a reference owns the variable; later places of the same reference are aliases of it. -/
namespace Conduit

structure Credential where
  reference : String
  env : String
  deriving DecidableEq, Repr

structure CredentialsMap where
  credentials : Table Credential := []
  aliases : Table String := []
  deriving DecidableEq, Repr

namespace CredentialsMap

def formatVersion : String := "1"

structure Draft where
  map : CredentialsMap := {}
  owners : List (String × String) := []
  deriving Repr

def Draft.used (d : Draft) : List String := d.owners.map (·.2)

/-- The name itself, or with the first number from two on that makes it new. There are more candidates
than names in use. -/
def freshName (used : List String) (base : String) : String :=
  let candidates := base :: (List.range used.length).map fun i => s!"{base}_{i + 2}"
  (candidates.find? fun name => !used.contains name).getD base

def Draft.add (d : Draft) (path reference : String) : Draft :=
  match d.owners.lookup reference with
  | some env => { d with map := { d.map with aliases := d.map.aliases.insert path env } }
  | none =>
    let env := freshName d.used (Secret.envName path)
    { map := { d.map with credentials := d.map.credentials.insert path ⟨reference, env⟩ }
      owners := (reference, env) :: d.owners }

def ofChannel (c : Channel) : CredentialsMap :=
  ((c.stages.flatMap Stage.secrets).foldl (fun d s => d.add s.1 s.2) ({} : Draft)).map

def envByRef (m : CredentialsMap) : Table String :=
  Table.ofList (m.credentials.values.map fun c => (c.reference, c.env))

def envVars (m : CredentialsMap) : List String := m.credentials.values.map (·.env)

def toJson (m : CredentialsMap) : Json :=
  .ofPairs
    [("version", .str formatVersion),
     ("credentials", .obj (m.credentials.map fun (path, c) =>
        (path, .ofPairs [("ref", .str c.reference), ("env", .str c.env)]))),
     ("aliases", .obj (m.aliases.map fun (path, env) => (path, .str env)))]

end CredentialsMap

end Conduit
