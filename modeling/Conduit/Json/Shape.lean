import Conduit.Json.Basic
import Conduit.Text.Instant

/-! The JSON that a type of this library is read from. A shape says which values are admitted and what
is reported about others; admitting a value also brings it to a normal form, in which records are
objects with known fields only and numbers have their kind, so that reading it cannot fail. -/
namespace Conduit.Json

inductive Found where
  | value (v : Json)
  | variantMap
  deriving Repr

def Found.text : Found → String
  | .value .null => "null"
  | .value (.bool b) => s!"boolean `{b}`"
  | .value (.num (.real d)) => "floating point `" ++ String.ofList (d.text .json) ++ "`"
  | .value (.num n) => "integer `" ++ String.ofList (numberText n) ++ "`"
  | .value (.str s) => "string " ++ Text.debugQuote s
  | .value (.arr _) => "sequence"
  | .value (.obj _) => "map"
  | .variantMap => "map"

inductive ReadError where
  | invalidType (found : Found) (expected : String)
  | invalidValue (found : Found) (expected : String)
  | invalidLength (length : Nat) (expected : String)
  | unknownVariant (name : String) (known : List String)
  | missingField (name : String)
  | duplicateField (name : String)
  | noAlternative (type : String)
  | instant (reason : Instant.Error)
  deriving Repr

private def ticked (s : String) : String := "`" ++ s ++ "`"

def variantList : List String → String
  | [a] => ticked a
  | [a, b] => ticked a ++ " or " ++ ticked b
  | names => "one of " ++ ", ".intercalate (names.map ticked)

def ReadError.message : ReadError → String
  | .invalidType found expected => s!"invalid type: {found.text}, expected {expected}"
  | .invalidValue found expected => s!"invalid value: {found.text}, expected {expected}"
  | .invalidLength length expected => s!"invalid length {length}, expected {expected}"
  | .unknownVariant name known => s!"unknown variant `{name}`, expected {variantList known}"
  | .missingField name => s!"missing field `{name}`"
  | .duplicateField name => s!"duplicate field `{name}`"
  | .noAlternative type => s!"data did not match any variant of untagged enum {type}"
  | .instant reason => reason.message

inductive Width where
  | u32 | u64 | size
  deriving DecidableEq, Repr

def Width.name : Width → String
  | .u32 => "u32"
  | .u64 => "u64"
  | .size => "usize"

def Width.bound : Width → Nat
  | .u32 => 2 ^ 32
  | .u64 => 2 ^ 64
  | .size => 2 ^ 64

inductive Shape where
  | any
  | string
  | bool
  | natural (width : Width)
  | double
  | instant
  | option (inner : Shape)
  | list (inner : Shape)
  | map (inner : Shape)
  /-- One of some words, also as the one name of an object that holds `null`. -/
  | choice (words : List String)
  | record (name : String) (fields : List (String × Shape × Bool))
  | openRecord (name : String) (fields : List (String × Shape × Bool))
  | either (type : String) (first second : Shape)
  deriving Repr

def required (name : String) (shape : Shape) : String × Shape × Bool := (name, shape, true)

def optional (name : String) (shape : Shape) : String × Shape × Bool := (name, shape, false)

namespace Shape

abbrev Field := String × Shape × Bool

def recordText (name : String) (count : Nat) : String :=
  s!"struct {name} with {count} element" ++ (if count = 1 then "" else "s")

def readNatural (width : Width) : Json → Except ReadError Json
  | .num (.whole n) =>
    if n.toNat < width.bound then .ok (.num (.whole n))
    else .error (.invalidValue (.value (.num (.whole n))) width.name)
  | .num (.below n) => .error (.invalidValue (.value (.num (.below n))) width.name)
  | v => .error (.invalidType (.value v) width.name)

def readInstant : Json → Except ReadError Json
  | .str s =>
    match Instant.parse s with
    | .ok t => .ok (.str t.text)
    | .error reason => .error (.instant reason)
  | v => .error (.invalidType (.value v) "an RFC 3339 formatted date and time string")

def knownVariant (words : List String) (word : String) : Except ReadError Json :=
  if words.contains word then .ok (.str word) else .error (.unknownVariant word words)

def readChoice (words : List String) : Json → Except ReadError Json
  | .str s => knownVariant words s
  | .obj [(word, v)] => do
    let chosen ← knownVariant words word
    match v with
    | .null => .ok chosen
    | v => .error (.invalidType (.value v) "unit")
  | .obj _ => .error (.invalidValue .variantMap "map with a single key")
  | v => .error (.invalidType (.value v) "string or map")

def missing (fields : List Field) (present : Fields) : Option String :=
  (fields.find? fun f => f.2.2 && !Table.has present f.1).map (·.1)

def withRequired (fields : List Field) (present : Fields) : Except ReadError Json :=
  match missing fields present with
  | some name => .error (.missingField name)
  | none => .ok (.obj present)

mutual
/-- The normal form of an admitted value. The fields of an object are looked at in the order of
their names, and only then the missing ones are. -/
def conform : Shape → Json → Except ReadError Json
  | .any, v => .ok v
  | .string, .str s => .ok (.str s)
  | .string, v => .error (.invalidType (.value v) "a string")
  | .bool, .bool b => .ok (.bool b)
  | .bool, v => .error (.invalidType (.value v) "a boolean")
  | .natural width, v => readNatural width v
  | .double, .num n => .ok (.num (.real n.toDouble))
  | .double, v => .error (.invalidType (.value v) "f64")
  | .instant, v => readInstant v
  | .option _, .null => .ok .null
  | .option inner, v => conform inner v
  | .list inner, .arr items => do return .arr (← items.mapM (conform inner))
  | .list _, v => .error (.invalidType (.value v) "a sequence")
  | .map inner, .obj fields => do
    return .obj (← fields.mapM fun f => do return (f.1, ← conform inner f.2))
  | .map _, v => .error (.invalidType (.value v) "a map")
  | .choice words, v => readChoice words v
  | .record _ known, .obj fields => do
    let present ← fields.filterMapM fun f => do
      match ← conformField known f.1 f.2 with
      | some v => return some (f.1, v)
      | none => return none
    withRequired known present
  | .record name known, .arr items => do
    let present ← conformItems name known.length 0 known items
    return .obj (Table.ofList present)
  | .record name _, v => .error (.invalidType (.value v) s!"struct {name}")
  | .openRecord _ known, .obj fields => do
    return .obj (← fields.mapM fun f => do
      match ← conformField known f.1 f.2 with
      | some v => return (f.1, v)
      | none => return f)
  | .openRecord name _, v => .error (.invalidType (.value v) s!"struct {name}")
  | .either type first second, v =>
    match conform first v with
    | .ok v => .ok v
    | .error _ =>
      match conform second v with
      | .ok v => .ok v
      | .error _ => .error (.noAlternative type)
def conformField : List Field → String → Json → Except ReadError (Option Json)
  | [], _, _ => .ok none
  | (known, shape, _) :: rest, name, v =>
    if known = name then do return some (← conform shape v) else conformField rest name v
def conformItems (name : String) (count : Nat) : Nat → List Field → List Json →
    Except ReadError (List (String × Json))
  | _, [], [] => .ok []
  | index, [], rest => .error (.invalidLength (index + rest.length) "fewer elements in array")
  | index, (field, shape, _) :: known, v :: rest => do
    let v ← conform shape v
    return (field, v) :: (← conformItems name count (index + 1) known rest)
  | index, (_, _, isRequired) :: known, [] =>
    if isRequired then .error (.invalidLength index (recordText name count))
    else conformItems name count (index + 1) known []
end

end Shape

/-! Reading a normal form. A member that is not there, or is `null`, has the value given for it. -/

def member? (name : String) (v : Json) : Option Json :=
  match v.field? name with
  | some .null => none
  | m => m

def textAt (name : String) (absent : String) (v : Json) : String :=
  ((v.member? name).bind asString?).getD absent

def textAt? (name : String) (v : Json) : Option String := (v.member? name).bind asString?

def flagAt (name : String) (v : Json) : Bool := ((v.member? name).bind asBool?).getD false

def natAt (name : String) (absent : Nat) (v : Json) : Nat := ((v.member? name).bind asNat?).getD absent

def natAt? (name : String) (v : Json) : Option Nat := (v.member? name).bind asNat?

def doubleAt? (name : String) (v : Json) : Option Double :=
  match v.member? name with
  | some (.num n) => some n.toDouble
  | _ => none

def itemsAt (name : String) (v : Json) : List Json := ((v.member? name).bind asArray?).getD []

def textsAt (name : String) (v : Json) : List String := (v.itemsAt name).filterMap asString?

def fieldsAt (name : String) (v : Json) : Fields := ((v.member? name).bind asObject?).getD []

def valueAt (name : String) (v : Json) : Json := (v.field? name).getD .null

/-- A type's shape, and the value of the type that a normal form stands for. -/
structure Reader (α : Type) where
  shape : Shape
  view : Json → α

def Reader.read {α : Type} (r : Reader α) (v : Json) : Except ReadError α := do
  return r.view (← r.shape.conform v)

def Reader.list {α : Type} (r : Reader α) : Reader (List α) :=
  ⟨.list r.shape, fun v => (v.asArray?.getD []).map r.view⟩

def Reader.map {α : Type} (r : Reader α) : Reader (List (String × α)) :=
  ⟨.map r.shape, fun v => (v.asObject?.getD []).map fun f => (f.1, r.view f.2)⟩

end Conduit.Json
