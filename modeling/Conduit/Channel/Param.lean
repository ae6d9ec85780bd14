import Conduit.Json.Basic

/-! Secrets never appear in what is deployed. A deployment has a placeholder in their stead, which names the
environment variable that holds the secret. -/
namespace Conduit.Secret

def envPrefix : String := "GJ_SECRET_"

def envChar (c : Char) : Char := if c.isAlphanum then c.toUpper else '_'

def envName (path : String) : String := envPrefix ++ String.ofList (path.toList.map envChar)

def placeholder (env : String) : String := "$\x7b" ++ env ++ "\x7d"

def isEnvChar (c : Char) : Bool := c.isUpper || c.isDigit || c = '_'

def placeholderBody? : List Char → Option (List Char)
  | '$' :: '\x7b' :: rest => if rest.getLast? = some '\x7d' then some rest.dropLast else none
  | _ => none

def isPlaceholder (s : String) : Bool :=
  match placeholderBody? s.toList with
  | none => false
  | some name =>
    envPrefix.toList.isPrefixOf name && envPrefix.toList.length < name.length && name.all isEnvChar

end Conduit.Secret

/-! Parameter values of a stage. An object whose only field is `$secret` or `$expr`, with a text, is a
token; every other JSON stands for itself, with tokens inside it recognised. -/
namespace Conduit

def secretKey : String := "$secret"

def exprKey : String := "$expr"

inductive Token where
  | secret (reference : String)
  | expr (source : String)
  deriving DecidableEq, Repr

def Token.ofFields? : Fields → Option Token
  | [(k, .str s)] =>
    if k = secretKey then some (.secret s) else if k = exprKey then some (.expr s) else none
  | _ => none

def Token.toJson : Token → Json
  | .secret reference => .obj [(secretKey, .str reference)]
  | .expr source => .obj [(exprKey, .str source)]

inductive Param where
  | literal (v : Json)
  | token (t : Token)
  | list (items : List Param)
  | map (entries : List (String × Param))
  deriving Repr

namespace Param

instance : Inhabited Param := ⟨.literal .null⟩

mutual
def ofJson : Json → Param
  | .obj fields =>
    match Token.ofFields? fields with
    | some t => .token t
    | none => .map (ofFields fields)
  | .arr items => .list (ofItems items)
  | v => .literal v
def ofItems : List Json → List Param
  | [] => []
  | v :: rest => ofJson v :: ofItems rest
def ofFields : List (String × Json) → List (String × Param)
  | [] => []
  | (k, v) :: rest => (k, ofJson v) :: ofFields rest
end

mutual
def toJson : Param → Json
  | .literal v => v
  | .token t => t.toJson
  | .list items => .arr (toItems items)
  | .map entries => .obj (toFields entries)
def toItems : List Param → List Json
  | [] => []
  | p :: rest => p.toJson :: toItems rest
def toFields : List (String × Param) → List (String × Json)
  | [] => []
  | (k, p) :: rest => (k, p.toJson) :: toFields rest
end

mutual
def secrets (path : String) : Param → List (String × String)
  | .literal _ => []
  | .token (.secret reference) => [(path, reference)]
  | .token (.expr _) => []
  | .list items => secretsOfItems path 0 items
  | .map entries => secretsOfEntries path entries
def secretsOfItems (path : String) (index : Nat) : List Param → List (String × String)
  | [] => []
  | p :: rest => secrets s!"{path}.{index}" p ++ secretsOfItems path (index + 1) rest
def secretsOfEntries (path : String) : List (String × Param) → List (String × String)
  | [] => []
  | (k, p) :: rest => secrets s!"{path}.{k}" p ++ secretsOfEntries path rest
end

def hasSecret (p : Param) : Bool := !(p.secrets "").isEmpty

end Param

end Conduit
