import Conduit.Nexon.Template
import Conduit.Nexon.Parameter
import Conduit.Expression.Parser

/-! What makes a nexon unusable, and what is merely odd about it. -/
namespace Conduit

inductive TemplateFault where
  | missing (field : String)
  | version (text : String)
  | engineVersion (text : String)
  | valueBounds (param : String) (low high : Double)
  | lengthBounds (param : String) (low high : Nat)
  | pattern (param reason : String)
  | noNodes
  | noNodeId (index : Nat)
  | duplicateNodeId (index : Nat) (id : String)
  | noNodeType (index : Nat)
  | unknownTarget (node target : String)
  | otherId (found requested : String)
  | otherVersion (found requested : String)
  deriving Repr

def TemplateFault.message : TemplateFault → String
  | .missing field => s!"manifest.{field} is missing"
  | .version text => s!"manifest.version '{text}' is not a semantic version"
  | .engineVersion text => s!"compatibility.minEngineVersion '{text}' is not a semantic version"
  | .valueBounds param low high =>
    s!"parameter '{param}': min " ++ String.ofList (low.text .plain) ++ " exceeds max "
      ++ String.ofList (high.text .plain)
  | .lengthBounds param low high => s!"parameter '{param}': minLength {low} exceeds maxLength {high}"
  | .pattern param reason => s!"parameter '{param}': invalid pattern: {reason}"
  | .noNodes => "template contains no nodes"
  | .noNodeId index => s!"template[{index}] has no id"
  | .duplicateNodeId index id => s!"template[{index}] duplicates node id '{id}'"
  | .noNodeType index => s!"template[{index}] has no type"
  | .unknownTarget node target => s!"template node '{node}' wires to unknown node '{target}'"
  | .otherId found requested => s!"manifest.id '{found}' does not match requested '{requested}'"
  | .otherVersion found requested => s!"manifest.version '{found}' does not match requested '{requested}'"

inductive TemplateHint where
  | noParameters
  | undeclared (node param : String)
  deriving DecidableEq, Repr

def TemplateHint.message : TemplateHint → String
  | .noParameters => "manifest declares no parameters"
  | .undeclared node param => s!"template node '{node}' references undeclared parameter '{param}'"

/-! Parameters that a tree reads. -/

def Path.param? (p : Path) : Option String :=
  match p.root, p.segments with
  | .params, .key name :: _ => some name
  | _, _ => none

def paramsOfSource (source : List Char) : List String :=
  match Expression.parseChars source with
  | .ok e => e.paths.filterMap Path.param?
  | .error _ => []

def paramsOfText (cs : List Char) : List String :=
  match Expression.pieces cs with
  | .ok pieces => pieces.flatMap fun
    | .expr source => paramsOfSource source
    | .text _ => []
  | .error _ => []

mutual
def paramRefs : Json → List String
  | .str s => if Expression.hasInterpolation s.toList then paramsOfText s.toList else []
  | .obj fields =>
    match Token.ofFields? fields with
    | some (.expr source) => paramsOfSource source.toList
    | some (.secret _) => []
    | none => paramRefsOfFields fields
  | .arr items => paramRefsOfItems items
  | _ => []
def paramRefsOfItems : List Json → List String
  | [] => []
  | v :: rest => paramRefs v ++ paramRefsOfItems rest
def paramRefsOfFields : List (String × Json) → List String
  | [] => []
  | (_, v) :: rest => paramRefs v ++ paramRefsOfFields rest
end

def NodeTemplate.paramRefs (n : NodeTemplate) : List String :=
  n.properties.flatMap fun f => Conduit.paramRefs f.2

/-! Rules. -/

def ParamDef.faults [Regex] (name : String) (d : ParamDef) : List TemplateFault :=
  match d.validation with
  | none => []
  | some c =>
    (match c.min, c.max with
      | some low, some high => if high.lt low then [.valueBounds name low high] else []
      | _, _ => [])
    ++ (match c.minLength, c.maxLength with
      | some low, some high => if high < low then [.lengthBounds name low high] else []
      | _, _ => [])
    ++ (match c.pattern with
      | some pattern =>
        match Regex.compile pattern with
        | .ok _ => []
        | .error reason => [.pattern name reason]
      | none => [])

namespace Manifest

def faults [Regex] (m : Manifest) : List TemplateFault :=
  (if Text.isBlankText m.id then [.missing "id"] else [])
  ++ (if Text.isBlankText m.version then [.missing "version"]
      else if (Version.parse? m.version).isNone then [.version m.version] else [])
  ++ (if Text.isBlankText m.title then [.missing "title"] else [])
  ++ (if m.capabilities.isNone then [.missing "capabilities"] else [])
  ++ (match m.parameters with
      | none => [.missing "parameters"]
      | some defs => defs.flatMap fun d => d.2.faults d.1)
  ++ (match m.compatibility.bind (·.minEngineVersion) with
      | some v => if (Version.parse? v).isNone then [.engineVersion v] else []
      | none => [])

end Manifest

def nodeFaults (seen : List String) (index : Nat) : List NodeTemplate → List TemplateFault
  | [] => []
  | n :: rest =>
    (if Text.isBlankText n.id then [.noNodeId index]
      else if seen.contains n.id then [.duplicateNodeId index n.id] else [])
    ++ (if Text.isBlankText n.type then [.noNodeType index] else [])
    ++ nodeFaults (n.id :: seen) (index + 1) rest

def nodeIds (nodes : List NodeTemplate) : List String :=
  (nodes.map (·.id)).filter fun id => !Text.isBlankText id

def wireFaults (nodes : List NodeTemplate) : List TemplateFault :=
  nodes.flatMap fun n =>
    (n.wires.flatten.filter fun target => !(nodeIds nodes).contains target).map (.unknownTarget n.id)

def undeclared (declared : List String) (nodes : List NodeTemplate) : Table String :=
  nodes.foldl (fun found n =>
    (n.paramRefs.filter fun name => !declared.contains name).foldl
      (fun found name => if Table.has found name then found else Table.insert name n.id found) found) []

structure TemplateReport where
  faults : List TemplateFault
  hints : List TemplateHint
  deriving Repr

namespace TemplateReport

def valid (r : TemplateReport) : Bool := r.faults.isEmpty

def toJson (r : TemplateReport) : Json :=
  .ofPairs [("valid", .bool r.valid), ("errors", .strings (r.faults.map TemplateFault.message)),
    ("warnings", .strings (r.hints.map TemplateHint.message))]

end TemplateReport

namespace TemplateDocument

def report [Regex] (d : TemplateDocument) : TemplateReport where
  faults := d.manifest.faults ++ (if d.nodes.isEmpty then [.noNodes] else [])
    ++ nodeFaults [] 0 d.nodes ++ wireFaults d.nodes
  hints := (match d.manifest.parameters with
      | some [] => [.noParameters]
      | _ => [])
    ++ (undeclared (Table.names (d.manifest.parameters.getD [])) d.nodes).map fun (param, node) =>
      .undeclared node param

end TemplateDocument

end Conduit
