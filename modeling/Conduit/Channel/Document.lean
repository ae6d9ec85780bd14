import Conduit.Channel.Basic
import Conduit.Expression.Parser

/-! What the JSON of a channel has to look like, said of the raw document, so that every fault is found at
once and named by its place. -/
namespace Conduit

inductive DocumentRule where
  | beObject
  | beText (key : String)
  | bePresent (key : String)
  | beArray (key : String)
  | beIdentifier (text : String)
  | beTarget
  | beFlag
  | beNumber
  | beStage
  | beEdge
  | beLoneToken
  | beReference
  | beExpression
  | parseExpression (reason : Expression.Error)
  | beOutlet
  | beInlet
  deriving DecidableEq, Repr

def DocumentRule.message : DocumentRule → String
  | .beObject => "must be an object"
  | .beText key => s!"'{key}' must be a string"
  | .bePresent key => s!"'{key}' is required"
  | .beArray key => s!"'{key}' must be an array"
  | .beIdentifier text => s!"'{text}' is not a valid identifier"
  | .beTarget => "target must be 'onprem' or 'cloud'"
  | .beFlag => "security flags must be booleans"
  | .beNumber => "coordinate must be a number"
  | .beStage => "stage must be an object"
  | .beEdge => "edge must be an object"
  | .beLoneToken => "a $secret or $expr token must be the only key of its object"
  | .beReference => "$secret must be a non-empty reference string"
  | .beExpression => "$expr must be an expression string"
  | .parseExpression reason => s!"invalid expression: {reason.message}"
  | .beOutlet => "outlet must be a port index or an outlet name"
  | .beInlet => "inlet must be a port index"

structure DocumentFault where
  path : String
  rule : DocumentRule
  deriving DecidableEq, Repr

def isIdentifier (id : String) : Bool :=
  match id.toList with
  | c :: rest =>
    c.isAlphanum && rest.length < 128 && rest.all fun c => c.isAlphanum || c = '_' || c = '-' || c = '.'
  | [] => false

namespace Document

def fault (path : String) (rule : DocumentRule) : List DocumentFault := [⟨path, rule⟩]

def under (path key : String) : String := s!"{path}.{key}"

def item (path : String) (index : Nat) : String := s!"{path}[{index}]"

def optionalText (fields : Fields) (key path : String) : List DocumentFault :=
  match fields.get? key with
  | none => []
  | some .null => []
  | some (.str _) => []
  | some _ => fault (under path key) (.beText key)

def trimDots (path : String) : String := String.ofList (path.toList.dropWhile (· = '.'))

def identifier (fields : Fields) (key path : String) (required : Bool) : List DocumentFault :=
  let place := trimDots (under path key)
  let absent := if required then fault place (.bePresent key) else []
  match fields.get? key with
  | none => absent
  | some .null => absent
  | some (.str s) => if isIdentifier s then [] else fault place (.beIdentifier s)
  | some _ => fault place (.beText key)

def object (v : Option Json) (path : String) (check : Fields → List DocumentFault) : List DocumentFault :=
  match v with
  | none => []
  | some .null => []
  | some (.obj fields) => check fields
  | some _ => fault path .beObject

def requiredObject (fields : Fields) (key path : String) (check : String → Fields → List DocumentFault) :
    List DocumentFault :=
  let place := under path key
  match fields.get? key with
  | some (.obj inner) => check place inner
  | none => fault place (.bePresent key)
  | some .null => fault place (.bePresent key)
  | some _ => fault place .beObject ++ fault place (.bePresent key)

def isPort : Json → Bool
  | .num (.whole n) => n.toNat < 2 ^ 32
  | _ => false

def token (fields : Fields) (path : String) : List DocumentFault :=
  if fields.length ≠ 1 then fault path .beLoneToken
  else
    (match fields.get? secretKey with
      | none => []
      | some (.str s) => if Text.isBlankText s then fault path .beReference else []
      | some _ => fault path .beReference)
    ++ (match fields.get? exprKey with
      | none => []
      | some (.str source) =>
        match Expression.parse source with
        | .ok _ => []
        | .error reason => fault path (.parseExpression reason)
      | some _ => fault path .beExpression)

mutual
/-- An object with a token's key is a token, and has to be a proper one. -/
def param (path : String) : Json → List DocumentFault
  | .obj fields =>
    if Table.has fields secretKey || Table.has fields exprKey then token fields path
    else paramFields path fields
  | .arr items => paramItems path 0 items
  | _ => []
def paramItems (path : String) (index : Nat) : List Json → List DocumentFault
  | [] => []
  | v :: rest => param (item path index) v ++ paramItems path (index + 1) rest
def paramFields (path : String) : List (String × Json) → List DocumentFault
  | [] => []
  | (k, v) :: rest => param (under path k) v ++ paramFields path rest
end

def position (path : String) (fields : Fields) : List DocumentFault :=
  ["x", "y"].flatMap fun axis =>
    match fields.get? axis with
    | some (.num _) => []
    | _ => fault (under path axis) .beNumber

def stageFields (path : String) (fields : Fields) : List DocumentFault :=
  identifier fields "id" path true
  ++ optionalText fields "title" path
  ++ optionalText fields "nexonVersion" path
  ++ (match fields.get? "nexonId" with
      | some (.str s) =>
        if Text.isBlankText s then fault (under path "nexonId") (.bePresent "nexonId") else []
      | _ => fault (under path "nexonId") (.bePresent "nexonId"))
  ++ object (fields.get? "position") (under path "position") (position (under path "position"))
  ++ object (fields.get? "params") (under path "params") (paramFields (under path "params"))

def stage (path : String) : Json → List DocumentFault
  | .obj fields => stageFields path fields
  | _ => fault path .beStage

def edgeSource (path : String) (fields : Fields) : List DocumentFault :=
  identifier fields "stageId" path true
  ++ (match fields.get? "outlet" with
      | none => []
      | some .null => []
      | some (.str _) => []
      | some v => if isPort v then [] else fault (under path "outlet") .beOutlet)

def edgeTarget (path : String) (fields : Fields) : List DocumentFault :=
  identifier fields "stageId" path true
  ++ (match fields.get? "inlet" with
      | none => []
      | some .null => []
      | some v => if isPort v then [] else fault (under path "inlet") .beInlet)

def edge (path : String) : Json → List DocumentFault
  | .obj fields =>
    identifier fields "id" path true ++ requiredObject fields "from" path edgeSource
      ++ requiredObject fields "to" path edgeTarget
  | _ => fault path .beEdge

def runtime (fields : Fields) : List DocumentFault :=
  match fields.get? "target" with
  | none => []
  | some .null => []
  | some (.str s) => if s = "onprem" ∨ s = "cloud" then [] else fault "runtime.target" .beTarget
  | some _ => fault "runtime.target" .beTarget

def security (fields : Fields) : List DocumentFault :=
  fields.flatMap fun f =>
    match f.2 with
    | .bool _ => []
    | _ => fault (under "security" f.1) .beFlag

def documentation (fields : Fields) : List DocumentFault :=
  ["summary", "owner", "notes"].flatMap fun key => optionalText fields key "documentation"

def items (key : String) (check : String → Json → List DocumentFault) (values : List Json) :
    List DocumentFault :=
  values.zipIdx.flatMap fun v => check (item key v.2) v.1

def root (fields : Fields) : List DocumentFault :=
  optionalText fields "version" ""
  ++ optionalText fields "title" ""
  ++ identifier fields "channelId" "" false
  ++ object (fields.get? "runtime") "runtime" runtime
  ++ object (fields.get? "security") "security" security
  ++ object (fields.get? "documentation") "documentation" documentation
  ++ (match fields.get? "stages" with
      | some (.arr values) => items "stages" stage values
      | some _ => fault "stages" (.beArray "stages")
      | none => fault "stages" (.bePresent "stages"))
  ++ (match fields.get? "edges" with
      | none => []
      | some .null => []
      | some (.arr values) => items "edges" edge values
      | some _ => fault "edges" (.beArray "edges"))

end Document

end Conduit
