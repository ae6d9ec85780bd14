import Conduit.Json.Shape
import Conduit.Json.Reader

/-! Reading text against a shape. The text is read once from left to right, so a value that does not
fit is reported at its place, before any later fault of the syntax. Fields that a record does not
know are passed over with a laxer eye: only their outline has to be JSON. -/
namespace Conduit.Json

/-! Passing over a value. -/

def skipString : List Char → Except Fault (List Char)
  | [] => failAt .eofString []
  | '"' :: rest => .ok rest
  | '\\' :: 'u' :: a :: b :: c :: d :: rest =>
    if (hex4? a b c d).isSome then skipString rest else failHex (a :: b :: c :: d :: rest)
  | '\\' :: 'u' :: rest => failHex rest
  | '\\' :: [] => failAt .eofString []
  | '\\' :: c :: rest => if (simpleEscape? c).isSome then skipString rest else failOn .invalidEscape (c :: rest)
  | c :: rest => if c.toNat < 32 then failAt .controlCharacter (c :: rest) else skipString rest

def skipExponent (cs : List Char) : Except Fault (List Char) :=
  let cs := match cs with
    | '+' :: r => r
    | '-' :: r => r
    | r => r
  match cs with
  | c :: _ => if isDigit c then .ok (cs.dropWhile isDigit) else failOn .invalidNumber cs
  | [] => failAt .invalidNumber []

def skipNumber (cs : List Char) : Except Fault (List Char) :=
  let tail (rest : List Char) : Except Fault (List Char) :=
    match rest with
    | '.' :: rest =>
      match rest with
      | c :: _ =>
        if isDigit c then
          match rest.dropWhile isDigit with
          | 'e' :: rest => skipExponent rest
          | 'E' :: rest => skipExponent rest
          | rest => .ok rest
        else failOn .invalidNumber rest
      | [] => failAt .invalidNumber []
    | 'e' :: rest => skipExponent rest
    | 'E' :: rest => skipExponent rest
    | rest => .ok rest
  match cs with
  | '0' :: c :: rest => if isDigit c then failOn .invalidNumber (c :: rest) else tail (c :: rest)
  | c :: _ => if isDigit c then tail (cs.dropWhile isDigit) else failOn .invalidNumber cs
  | [] => failAt .invalidNumber []

def skipScalar (cs : List Char) : Except Fault (List Char) :=
  match cs with
  | [] => failAt .eofValue []
  | 'n' :: rest => word ['u', 'l', 'l'] rest
  | 't' :: rest => word ['r', 'u', 'e'] rest
  | 'f' :: rest => word ['a', 'l', 's', 'e'] rest
  | '"' :: rest => skipString rest
  | '-' :: rest => skipNumber rest
  | c :: _ => if isDigit c then skipNumber cs else failOn .expectedValue cs

mutual
def skipValue : Nat → List Char → Except Fault (List Char)
  | 0, cs => failAt .tooDeep cs
  | fuel + 1, cs =>
    match skipBlank cs with
    | '[' :: rest => skipItems fuel true rest
    | '\x7b' :: rest => skipFields fuel true rest
    | cs => skipScalar cs
def skipItems : Nat → Bool → List Char → Except Fault (List Char)
  | 0, _, cs => failAt .tooDeep cs
  | fuel + 1, first, cs =>
    match skipBlank cs with
    | [] => failAt .eofList []
    | ']' :: rest => .ok rest
    | c :: rest =>
      if first then do skipItems fuel false (← skipValue fuel (c :: rest))
      else if c = ',' then do skipItems fuel false (← skipValue fuel rest)
      else failOn .expectedListComma (c :: rest)
def skipFields : Nat → Bool → List Char → Except Fault (List Char)
  | 0, _, cs => failAt .tooDeep cs
  | fuel + 1, first, cs => do
    match skipBlank cs with
    | [] => failAt .eofObject []
    | '\x7d' :: rest => return rest
    | c :: rest =>
      if !first && c ≠ ',' then failOn .expectedObjectComma (c :: rest)
      else
        match skipBlank (if first then c :: rest else rest) with
        | [] => failAt .eofObject []
        | '"' :: rest =>
          let rest ← colon (← skipString rest)
          skipFields fuel false (← skipValue fuel rest)
        | rest => failOn .keyNotString rest
end

namespace Shape

def unfit {α : Type} (e : ReadError) (rest : List Char) : Except Fault α :=
  failAt (.unfit e.message) rest

def refuse {α : Type} (expected : String) (cs : List Char) : Except Fault α :=
  match cs with
  | '[' :: _ => unfit (.invalidType (.value (.arr [])) expected) cs
  | '\x7b' :: _ => unfit (.invalidType (.value (.obj [])) expected) cs
  | cs => do
    let (v, rest) ← scalar cs
    unfit (.invalidType (.value v) expected) rest

def scanScalar (shape : Shape) (expected : String) (starts : Char → Bool) (cs : List Char) :
    Except Fault (Json × List Char) :=
  match skipBlank cs with
  | [] => failAt .eofValue []
  | c :: rest =>
    if starts c then do
      let (v, rest) ← scalar (c :: rest)
      match conform shape v with
      | .ok v => .ok (v, rest)
      | .error e => unfit e rest
    else refuse expected (c :: rest)

def startsNumber (c : Char) : Bool := c = '-' || isDigit c

def scanVariantMap (words : List String) (cs : List Char) : Except Fault (Json × List Char) :=
  match skipBlank cs with
  | [] => failAt .eofObject []
  | '\x7d' :: rest => failOn .expectedValue ('\x7d' :: rest)
  | '"' :: rest => do
    let (name, rest) ← stringRest [] rest
    match knownVariant words (String.ofList name) with
    | .error e => unfit e rest
    | .ok chosen =>
      match skipBlank (← colon rest) with
      | [] => failAt .eofValue []
      | 'n' :: rest =>
        match skipBlank (← word ['u', 'l', 'l'] rest) with
        | '\x7d' :: rest => .ok (chosen, rest)
        | [] => failAt .eofObject []
        | rest => failAt .expectedValue rest
      | rest => refuse "unit" rest
  | rest => failOn .keyNotString rest

def scanChoice (words : List String) (depth : Nat) (cs : List Char) : Except Fault (Json × List Char) :=
  match skipBlank cs with
  | [] => failAt .eofValue []
  | '"' :: rest => do
    let (name, rest) ← stringRest [] rest
    match knownVariant words (String.ofList name) with
    | .ok chosen => .ok (chosen, rest)
    | .error e => unfit e rest
  | '\x7b' :: rest => if depth ≤ 1 then failOn .tooDeep ('\x7b' :: rest) else scanVariantMap words rest
  | rest => failOn .expectedValue rest

def closeItems (cs : List Char) : Except Fault (List Char) :=
  match skipBlank cs with
  | [] => failAt .eofList []
  | ']' :: rest => .ok rest
  | ',' :: rest =>
    match skipBlank rest with
    | ']' :: rest => failOn .trailingComma (']' :: rest)
    | rest => failOn .trailingCharacters rest
  | rest => failOn .trailingCharacters rest

def pastBrace : List Char → List Char
  | '\x7d' :: rest => rest
  | rest => rest

def enter (depth : Nat) (cs : List Char) : Except Fault Nat :=
  if depth ≤ 1 then failOn .tooDeep cs else .ok (depth - 1)

mutual
def scan (shape : Shape) (depth : Nat) : Nat → List Char → Except Fault (Json × List Char)
  | 0, cs => failAt .tooDeep cs
  | fuel + 1, cs =>
    match shape with
    | .any => value depth (readFuel cs) cs
    | .string => scanScalar .string "a string" (· = '"') cs
    | .instant => scanScalar .instant "an RFC 3339 formatted date and time string" (· = '"') cs
    | .bool => scanScalar .bool "a boolean" (fun c => c = 't' || c = 'f') cs
    | .natural width => scanScalar (.natural width) width.name startsNumber cs
    | .double => scanScalar .double "f64" startsNumber cs
    | .option inner =>
      match skipBlank cs with
      | 'n' :: rest => do return (.null, ← word ['u', 'l', 'l'] rest)
      | cs => scan inner depth fuel cs
    | .list inner =>
      match skipBlank cs with
      | [] => failAt .eofValue []
      | '[' :: rest => do
        let depth ← enter depth ('[' :: rest)
        let (items, rest) ← scanItems inner depth fuel true rest
        return (.arr items, rest)
      | rest => refuse "a sequence" rest
    | .map inner =>
      match skipBlank cs with
      | [] => failAt .eofValue []
      | '\x7b' :: rest => do
        let depth ← enter depth ('\x7b' :: rest)
        let (fields, rest) ← scanMap inner depth fuel true [] rest
        return (.obj fields, rest)
      | rest => refuse "a map" rest
    | .choice words => scanChoice words depth cs
    | .record name known =>
      match skipBlank cs with
      | [] => failAt .eofValue []
      | '[' :: rest => do
        let depth ← enter depth ('[' :: rest)
        let (members, rest) ← scanMembers name known.length depth fuel 0 known true rest
        return (.obj (Table.ofList members), ← closeItems rest)
      | '\x7b' :: rest => do
        let depth ← enter depth ('\x7b' :: rest)
        let (fields, rest) ← scanFields known false depth fuel true [] rest
        match withRequired known fields with
        | .ok v => return (v, rest)
        | .error e => unfit e rest
      | rest => refuse s!"struct {name}" rest
    | .openRecord name known =>
      match skipBlank cs with
      | [] => failAt .eofValue []
      | '\x7b' :: rest => do
        let depth ← enter depth ('\x7b' :: rest)
        let (fields, rest) ← scanFields known true depth fuel true [] rest
        return (.obj fields, rest)
      | rest => refuse s!"struct {name}" rest
    | .either type first second => do
      let (v, rest) ← value depth (readFuel cs) cs
      match conform (.either type first second) v with
      | .ok v => return (v, rest)
      | .error e => unfit e rest
termination_by structural fuel => fuel
def scanItems (inner : Shape) (depth : Nat) : Nat → Bool → List Char →
    Except Fault (List Json × List Char)
  | 0, _, cs => failAt .tooDeep cs
  | fuel + 1, first, cs => do
    match ← nextItem first cs with
    | (false, rest) => return ([], rest)
    | (true, rest) => do
      let (v, rest) ← scan inner depth fuel rest
      let (vs, rest) ← scanItems inner depth fuel false rest
      return (v :: vs, rest)
termination_by structural fuel => fuel
def scanMap (inner : Shape) (depth : Nat) : Nat → Bool → Fields → List Char →
    Except Fault (Fields × List Char)
  | 0, _, _, cs => failAt .tooDeep cs
  | fuel + 1, first, read, cs => do
    match ← nextField first cs with
    | (false, rest) => return (read, rest)
    | (true, rest) => do
      let (name, rest) ← stringRest [] rest
      let (v, rest) ← scan inner depth fuel (← colon rest)
      scanMap inner depth fuel false (Table.insert (String.ofList name) v read) rest
termination_by structural fuel => fuel
def scanFields (known : List Field) (keeps : Bool) (depth : Nat) : Nat → Bool → Fields → List Char →
    Except Fault (Fields × List Char)
  | 0, _, _, cs => failAt .tooDeep cs
  | fuel + 1, first, read, cs => do
    match ← nextField first cs with
    | (false, rest) => return (read, rest)
    | (true, rest) => do
      let (chars, rest) ← stringRest [] rest
      let name := String.ofList chars
      match known.lookup name with
      | some (shape, _) =>
        if read.has name then unfit (.duplicateField name) (pastBrace (skipBlank rest))
        else
          let (v, rest) ← scan shape depth fuel (← colon rest)
          scanFields known keeps depth fuel false (read.insert name v) rest
      | none =>
        if keeps then
          let rest ← colon rest
          let (v, rest) ← value depth (readFuel rest) rest
          scanFields known keeps depth fuel false (read.insert name v) rest
        else
          let rest ← colon rest
          scanFields known keeps depth fuel false read (← skipValue (readFuel rest) rest)
termination_by structural fuel => fuel
def scanMembers (name : String) (count depth : Nat) : Nat → Nat → List Field → Bool → List Char →
    Except Fault (List (String × Json) × List Char)
  | 0, _, _, _, cs => failAt .tooDeep cs
  | _ + 1, _, [], _, cs => .ok ([], cs)
  | fuel + 1, index, (field, shape, isRequired) :: known, first, cs => do
    match ← nextItem first cs with
    | (true, rest) => do
      let (v, rest) ← scan shape depth fuel rest
      let (members, rest) ← scanMembers name count depth fuel (index + 1) known false rest
      return ((field, v) :: members, rest)
    | (false, rest) =>
      if isRequired then unfit (.invalidLength index (recordText name count)) rest
      else scanMembers name count depth fuel (index + 1) known first (']' :: rest)
termination_by structural fuel => fuel
end

/-- More than one unit for a character, as an option is entered without reading one. -/
def scanFuel (cs : List Char) : Nat := 4 * cs.length + 64

def parseChars (shape : Shape) (cs : List Char) : Except Fault Json := do
  let (v, rest) ← scan shape depthLimit (scanFuel cs) cs
  finish v rest

end Shape

def Reader.parse {α : Type} (r : Reader α) (text : String) : Except SyntaxError α :=
  match r.shape.parseChars text.toList with
  | .ok v => .ok (r.view v)
  | .error fault => .error (fault.locate text.toList)

end Conduit.Json
