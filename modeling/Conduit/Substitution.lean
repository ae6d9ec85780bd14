import Conduit.Channel.Param
import Conduit.Expression.Syntax
import Conduit.Expression.Parser
import Conduit.Nexon.Parameter

/-! Filling in a tree of JSON: tokens and text with expressions in it become values. A secret is never
filled in; it becomes the placeholder of its variable. -/
namespace Conduit.Substitution

def defaultDepth : Nat := 64

structure Context where
  params : Json := .null
  stage : Json := .null
  channel : Json := .null
  runtime : Json := .null
  env : Json := .null
  secretEnv : Table String := []
  deriving Repr

def Context.scope (c : Context) : Scope
  | .params => some c.params
  | .stage => some c.stage
  | .channel => some c.channel
  | .runtime => some c.runtime
  | .env => some c.env

inductive Error where
  | param (e : ParamError)
  | expression (path : String) (reason : Expression.Error)
  | unregisteredSecret (path : String)
  | tooDeep (path : String) (limit : Nat)
  deriving Repr

def Error.message : Error → String
  | .param (.missing name) => s!"missing required parameter '{name}'"
  | .param (.wrongType name expected actual) => s!"parameter '{name}': expected {expected}, got {actual}"
  | .param (.violates name violation) => s!"parameter '{name}': {violation.message}"
  | .expression path reason => s!"{path}: {reason.message}"
  | .unregisteredSecret path => s!"{path}: secret reference is not registered"
  | .tooDeep path limit => s!"{path}: nesting exceeds {limit} levels"

def Error.toJson : Error → Json
  | .param (.missing name) => .ofPairs [("kind", .str "missingRequired"), ("name", .str name)]
  | .param (.wrongType name expected actual) =>
    .ofPairs [("kind", .str "typeMismatch"), ("name", .str name), ("expected", .str expected),
      ("actual", .str actual)]
  | .param (.violates name violation) =>
    .ofPairs [("kind", .str "constraint"), ("name", .str name), ("message", .str violation.message)]
  | .expression path reason =>
    .ofPairs [("kind", .str "expression"), ("path", .str path), ("message", .str reason.message)]
  | .unregisteredSecret path => .ofPairs [("kind", .str "unregisteredSecret"), ("path", .str path)]
  | .tooDeep path limit =>
    .ofPairs [("kind", .str "tooDeep"), ("path", .str path), ("limit", .nat limit)]

structure Traced (α : Type) where
  value : α
  errors : List Error := []
  warnings : List String := []
  deriving Repr

def Traced.map {α β : Type} (f : α → β) (t : Traced α) : Traced β := ⟨f t.value, t.errors, t.warnings⟩

def Traced.both {α β γ : Type} (f : α → β → γ) (a : Traced α) (b : Traced β) : Traced γ :=
  ⟨f a.value b.value, a.errors ++ b.errors, a.warnings ++ b.warnings⟩

/-! Text with expressions in it. -/

def looksTyped (cs : List Char) : Bool :=
  match Text.trimStart cs with
  | c :: _ => c = '\x7b' || c = '[' || c = '-' || c.isDigit
  | [] => false

def isTyped : Json → Bool
  | .num _ => true
  | .arr _ => true
  | .obj _ => true
  | _ => false

def coerce (s : String) : Json :=
  if s = "true" then .bool true
  else if s = "false" then .bool false
  else if s = "null" then .null
  else if looksTyped s.toList then
    match Json.parse s with
    | .ok v => if isTyped v then v else .str s
    | .error _ => .str s
  else .str s

def renderText : Json → List Char
  | .str s => s.toList
  | .null => []
  | v => v.compactChars

def expression (c : Context) (source : List Char) (path : String) : Traced Json :=
  match Expression.parseChars source with
  | .ok e => ⟨e.eval c.scope, [], []⟩
  | .error reason => ⟨.null, [.expression path reason], []⟩

def renderPiece (c : Context) (path : String) : Expression.Piece → Traced (List Char)
  | .text cs => ⟨cs, [], []⟩
  | .expr source =>
    let r := expression c source path
    let note := if r.value.isNull then
        [path ++ ": '\x7b\x7b" ++ String.ofList source ++ "\x7d\x7d' resolved to nothing"]
      else []
    ⟨renderText r.value, r.errors, r.warnings ++ note⟩

def renderPieces (c : Context) (path : String) : List Expression.Piece → Traced (List Char)
  | [] => ⟨[], [], []⟩
  | p :: rest => .both (· ++ ·) (renderPiece c path p) (renderPieces c path rest)

def interpolate (c : Context) (s : String) (path : String) : Traced Json :=
  match Expression.pieces s.toList with
  | .error reason => ⟨.null, [.expression path reason], []⟩
  | .ok pieces => (renderPieces c path pieces).map fun cs => coerce (String.ofList cs)

/-! Trees. -/

def secret (c : Context) (reference path : String) : Traced Json :=
  match c.secretEnv.get? reference with
  | some env =>
    ⟨.str (Secret.placeholder env), [], [s!"{path}: secret deferred to deploy time as {env}"]⟩
  | none => ⟨(Token.secret reference).toJson, [], [s!"{path}: secret reference left unresolved"]⟩

def keyPath (path key : String) : String := s!"{path}.{key}"

def itemPath (path : String) (index : Nat) : String := s!"{path}[{index}]"

mutual
def resolve (c : Context) (limit : Nat) (path : String) (depth : Nat) (v : Json) : Traced Json :=
  if limit < depth then ⟨.null, [.tooDeep path limit], []⟩
  else
    match v with
    | .obj fields =>
      match Token.ofFields? fields with
      | some (.secret reference) => secret c reference path
      | some (.expr source) => expression c source.toList path
      | none => (resolveFields c limit path (depth + 1) fields).map .obj
    | .arr items => (resolveItems c limit path (depth + 1) 0 items).map .arr
    | .str s => if Expression.hasInterpolation s.toList then interpolate c s path else ⟨.str s, [], []⟩
    | v => ⟨v, [], []⟩
def resolveItems (c : Context) (limit : Nat) (path : String) (depth index : Nat) :
    List Json → Traced (List Json)
  | [] => ⟨[], [], []⟩
  | v :: rest =>
    .both (· :: ·) (resolve c limit (itemPath path index) depth v)
      (resolveItems c limit path depth (index + 1) rest)
def resolveFields (c : Context) (limit : Nat) (path : String) (depth : Nat) :
    List (String × Json) → Traced (List (String × Json))
  | [] => ⟨[], [], []⟩
  | (k, v) :: rest =>
    .both (fun v rest => (k, v) :: rest) (resolve c limit (keyPath path k) depth v)
      (resolveFields c limit path depth rest)
end

mutual
/-- A parameter value. Unlike in a tree, text is left alone, and a secret has to be registered. -/
def resolveParam (c : Context) (limit : Nat) (path : String) (depth : Nat) (p : Param) : Traced Json :=
  if limit < depth then ⟨.null, [.tooDeep path limit], []⟩
  else
    match p with
    | .literal v => ⟨v, [], []⟩
    | .token (.secret reference) =>
      match c.secretEnv.get? reference with
      | some env => ⟨.str (Secret.placeholder env), [], []⟩
      | none => ⟨.null, [.unregisteredSecret path], []⟩
    | .token (.expr source) => expression c source.toList path
    | .list items => (resolveParamItems c limit path (depth + 1) 0 items).map .arr
    | .map entries => (resolveParamEntries c limit path (depth + 1) entries).map .obj
def resolveParamItems (c : Context) (limit : Nat) (path : String) (depth index : Nat) :
    List Param → Traced (List Json)
  | [] => ⟨[], [], []⟩
  | p :: rest =>
    .both (· :: ·) (resolveParam c limit (itemPath path index) depth p)
      (resolveParamItems c limit path depth (index + 1) rest)
def resolveParamEntries (c : Context) (limit : Nat) (path : String) (depth : Nat) :
    List (String × Param) → Traced (List (String × Json))
  | [] => ⟨[], [], []⟩
  | (k, p) :: rest =>
    .both (fun v rest => (k, v) :: rest) (resolveParam c limit (keyPath path k) depth p)
      (resolveParamEntries c limit path depth rest)
end

structure Outcome where
  value : Option Json
  errors : List Error
  warnings : List String
  deriving Repr

def Outcome.success (o : Outcome) : Bool := o.errors.isEmpty

def Traced.outcome (t : Traced Json) : Outcome :=
  ⟨if t.errors.isEmpty then some t.value else none, t.errors, t.warnings⟩

def substitute [Regex] (limit : Nat) (c : Context) (defs : Option ParamDefs) (tree : Json) : Outcome :=
  let faults := (defs.map fun d => (d.check c.params).map Error.param).getD []
  let t := resolve c limit "$" 0 tree
  Traced.outcome { t with errors := faults ++ t.errors }

def resolveParams (limit : Nat) (c : Context) (params : List (String × Param)) : Outcome :=
  let entries := params.map fun p => (p.1, resolveParam c limit p.1 0 p.2)
  Traced.outcome
    { value := .obj (entries.map fun e => (e.1, e.2.value))
      errors := entries.flatMap (·.2.errors)
      warnings := entries.flatMap (·.2.warnings) }

end Conduit.Substitution
