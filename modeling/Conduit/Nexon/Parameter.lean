import Conduit.Json.Shape
import Conduit.Channel.Param

/-! Regular expressions are left to a library: a pattern is refused with a reason, or says of every text
whether there is a match in it. -/

class Conduit.Regex where
  compile : String → Except String (String → Bool)

/-! What a nexon says about its parameters. -/
namespace Conduit

inductive ParamType where
  | string | number | integer | boolean | object | array | secret | any
  deriving DecidableEq, Repr

namespace ParamType

def name : ParamType → String
  | .string => "string"
  | .number => "number"
  | .integer => "integer"
  | .boolean => "boolean"
  | .object => "object"
  | .array => "array"
  | .secret => "secret"
  | .any => "any"

def all : List ParamType := [.string, .number, .integer, .boolean, .object, .array, .secret, .any]

def ofName (s : String) : ParamType := (all.find? (·.name = s)).getD .any

def label (t : ParamType) : String := if t = .secret then "secret reference" else t.name

def holds : ParamType → Json → Bool
  | .any, _ => true
  | .string, .str _ => true
  | .secret, .str _ => true
  | .number, .num _ => true
  | .integer, .num n => n.toDouble.isWhole
  | .boolean, .bool _ => true
  | .object, .obj _ => true
  | .array, .arr _ => true
  | _, _ => false

end ParamType

structure Constraints where
  min : Option Double := none
  max : Option Double := none
  minLength : Option Nat := none
  maxLength : Option Nat := none
  pattern : Option String := none
  allowed : Option (List Json) := none
  deriving Repr

namespace Constraints

def shape : Json.Shape :=
  .record "ParamConstraints"
    [Json.optional "min" (.option .double), Json.optional "max" (.option .double),
     Json.optional "minLength" (.option (.natural .size)), Json.optional "maxLength" (.option (.natural .size)),
     Json.optional "pattern" (.option .string), Json.optional "enum" (.option (.list .any))]

def ofJson (v : Json) : Constraints where
  min := v.doubleAt? "min"
  max := v.doubleAt? "max"
  minLength := v.natAt? "minLength"
  maxLength := v.natAt? "maxLength"
  pattern := v.textAt? "pattern"
  allowed := (v.member? "enum").bind Json.asArray?

def toJson (c : Constraints) : Json :=
  .ofSome [("min", c.min.map fun d => .num (.real d)), ("max", c.max.map fun d => .num (.real d)),
    ("minLength", c.minLength.map Json.nat), ("maxLength", c.maxLength.map Json.nat),
    ("pattern", c.pattern.map .str), ("enum", c.allowed.map .arr)]

end Constraints

structure ParamDef where
  type : ParamType := .any
  required : Bool := false
  default : Option Json := none
  validation : Option Constraints := none
  ui : Option Json := none
  deriving Repr

namespace ParamDef

def ofJson (v : Json) : ParamDef where
  type := .ofName (v.textAt "type" "any")
  required := v.flagAt "required"
  default := v.member? "default"
  validation := (v.member? "validation").map Constraints.ofJson
  ui := v.member? "ui"

def reader : Json.Reader ParamDef where
  shape := .record "ParameterDefinition"
    [Json.optional "type" (.choice (ParamType.all.map ParamType.name)), Json.optional "required" .bool,
     Json.optional "default" (.option .any), Json.optional "validation" (.option Constraints.shape),
     Json.optional "ui" (.option .any)]
  view := ofJson

def toJson (d : ParamDef) : Json :=
  .ofSome [("type", some (.str d.type.name)), ("required", some (.bool d.required)), ("default", d.default),
    ("validation", d.validation.map Constraints.toJson), ("ui", d.ui)]

end ParamDef

abbrev ParamDefs := Table ParamDef

def ParamDefs.reader : Json.Reader ParamDefs := ParamDef.reader.map

def ParamDefs.fill (defs : ParamDefs) : Json → Json
  | .obj fields =>
    .obj (defs.foldl (fun fields d =>
      match d.2.default with
      | some v => if (Table.get? fields d.1).all Json.isNull then Table.insert d.1 v fields else fields
      | none => fields) fields)
  | v => v

/-! Parameter values against their definitions. -/

inductive ConstraintFault where
  | belowMin (value bound : Double)
  | aboveMax (value bound : Double)
  | tooShort (length bound : Nat)
  | tooLong (length bound : Nat)
  | noMatch (pattern : String)
  | badPattern (reason : String)
  | notAllowed (value : Json) (allowed : List Json)
  deriving Repr

private def plain (d : Double) : String := String.ofList (d.text .plain)

def ConstraintFault.message : ConstraintFault → String
  | .belowMin value bound => s!"{plain value} is below minimum {plain bound}"
  | .aboveMax value bound => s!"{plain value} is above maximum {plain bound}"
  | .tooShort length bound => s!"length {length} is below minLength {bound}"
  | .tooLong length bound => s!"length {length} is above maxLength {bound}"
  | .noMatch pattern => s!"value does not match pattern '{pattern}'"
  | .badPattern reason => s!"invalid pattern: {reason}"
  | .notAllowed value allowed => s!"{value.compact} is not one of {(Json.arr allowed).compact}"

inductive ParamError where
  | missing (name : String)
  | wrongType (name expected actual : String)
  | violates (name : String) (violation : ConstraintFault)
  deriving Repr

def Json.kindName : Json → String
  | .null => "null"
  | .bool _ => "boolean"
  | .num (.real _) => "number"
  | .num _ => "integer"
  | .str _ => "string"
  | .arr _ => "array"
  | .obj _ => "object"

namespace Constraints

def length? : Json → Option Nat
  | .str s => some s.length
  | .arr items => some items.length
  | _ => none

def numberViolations (c : Constraints) : Json → List ConstraintFault
  | .num n =>
    let d := n.toDouble
    (match c.min with
      | some bound => if d.lt bound then [.belowMin d bound] else []
      | none => [])
    ++ (match c.max with
      | some bound => if bound.lt d then [.aboveMax d bound] else []
      | none => [])
  | _ => []

def lengthViolations (c : Constraints) (v : Json) : List ConstraintFault :=
  match length? v with
  | some length =>
    (match c.minLength with
      | some bound => if length < bound then [.tooShort length bound] else []
      | none => [])
    ++ (match c.maxLength with
      | some bound => if bound < length then [.tooLong length bound] else []
      | none => [])
  | none => []

def patternViolations [Regex] (c : Constraints) : Json → List ConstraintFault
  | .str s =>
    match c.pattern with
    | none => []
    | some pattern =>
      match Regex.compile pattern with
      | .ok found => if found s then [] else [.noMatch pattern]
      | .error reason => [.badPattern reason]
  | _ => []

def choiceViolations (c : Constraints) (v : Json) : List ConstraintFault :=
  match c.allowed with
  | some allowed => if allowed.any (Json.same · v) then [] else [.notAllowed v allowed]
  | none => []

def violations [Regex] (c : Constraints) (v : Json) : List ConstraintFault :=
  c.numberViolations v ++ c.lengthViolations v ++ c.patternViolations v ++ c.choiceViolations v

end Constraints

def ParamDef.leaks (d : ParamDef) : Json → Bool
  | .str s => d.type = .secret && !Secret.isPlaceholder s
  | _ => false

def ParamDef.check [Regex] (name : String) (d : ParamDef) (value : Option Json) : List ParamError :=
  match value.filter (!·.isNull) with
  | none => if d.required then [.missing name] else []
  | some v =>
    if !d.type.holds v then [.wrongType name d.type.label v.kindName]
    else if d.leaks v then [.wrongType name "secret reference" "plain string"]
    else ((d.validation.map fun c => c.violations v).getD []).map (.violates name)

def ParamDefs.check [Regex] (defs : ParamDefs) (values : Json) : List ParamError :=
  defs.flatMap fun d => d.2.check d.1 (values.field? d.1)

end Conduit
