import Conduit.Basic
import Conduit.Json.Basic
import Conduit.Text.Encoding

/-! What makes a text no JSON. -/
namespace Conduit.Json

inductive Cause where
  | eofValue | eofList | eofObject | eofString
  | expectedValue | expectedIdent | expectedColon | expectedListComma | expectedObjectComma
  | trailingCharacters | trailingComma | keyNotString
  | invalidNumber | numberOutOfRange
  | invalidEscape | loneSurrogate | endOfHexEscape | controlCharacter | invalidCodePoint
  | tooDeep
  | unfit (message : String)
  deriving DecidableEq, Repr

def Cause.message : Cause → String
  | .eofValue => "EOF while parsing a value"
  | .eofList => "EOF while parsing a list"
  | .eofObject => "EOF while parsing an object"
  | .eofString => "EOF while parsing a string"
  | .expectedValue => "expected value"
  | .expectedIdent => "expected ident"
  | .expectedColon => "expected `:`"
  | .expectedListComma => "expected `,` or `]`"
  | .expectedObjectComma => "expected `,` or `\x7d`"
  | .trailingCharacters => "trailing characters"
  | .trailingComma => "trailing comma"
  | .keyNotString => "key must be a string"
  | .invalidNumber => "invalid number"
  | .numberOutOfRange => "number out of range"
  | .invalidEscape => "invalid escape"
  | .loneSurrogate => "lone leading surrogate in hex escape"
  | .endOfHexEscape => "unexpected end of hex escape"
  | .controlCharacter => "control character (\\u0000-\\u001F) found while parsing a string"
  | .invalidCodePoint => "invalid unicode code point"
  | .tooDeep => "recursion limit exceeded"
  | .unfit message => message

/-- A cause, and the bytes of the text that come after the place where reading stopped. -/
structure Fault where
  cause : Cause
  left : Nat
  deriving DecidableEq, Repr

structure SyntaxError where
  cause : Cause
  position : Text.Position
  deriving DecidableEq, Repr

def SyntaxError.message (e : SyntaxError) : String :=
  s!"{e.cause.message} at line {e.position.line} column {e.position.column}"

def Fault.locate (text : List Char) (fault : Fault) : SyntaxError :=
  ⟨fault.cause, Text.position text fault.left⟩

def failAt {α : Type} (cause : Cause) (rest : List Char) : Except Fault α :=
  .error ⟨cause, Text.byteCount rest⟩

def failOn {α : Type} (cause : Cause) (rest : List Char) : Except Fault α :=
  .error ⟨cause, Text.byteCount rest - 1⟩

/-! Reading JSON text. Every reader takes the characters that are left and gives back the value and
the characters after it. Containers may be open 127 deep. The recursion over values is bounded by
`fuel`, which `parse` sets from the length of the text: each call has consumed a character or is
the first inside its container, so two units for a character are enough. -/

def isBlank (c : Char) : Bool := c = ' ' || c = '\n' || c = '\t' || c = '\r'

def skipBlank (cs : List Char) : List Char := cs.dropWhile isBlank

def depthLimit : Nat := 128

def hexValue? (c : Char) : Option Nat :=
  if '0' ≤ c ∧ c ≤ '9' then some (c.toNat - 48)
  else if 'a' ≤ c ∧ c ≤ 'f' then some (c.toNat - 87)
  else if 'A' ≤ c ∧ c ≤ 'F' then some (c.toNat - 55)
  else none

def hex4? (a b c d : Char) : Option Nat := do
  return (((← hexValue? a) * 16 + (← hexValue? b)) * 16 + (← hexValue? c)) * 16 + (← hexValue? d)

def failHex {α : Type} (rest : List Char) : Except Fault α :=
  if Text.byteCount rest < 4 then .error ⟨.eofString, 0⟩
  else .error ⟨.invalidEscape, Text.byteCount rest - 4⟩

def simpleEscape? (c : Char) : Option Char :=
  if c = '"' ∨ c = '\\' ∨ c = '/' then some c
  else if c = 'b' then some '\x08'
  else if c = 'f' then some '\x0c'
  else if c = 'n' then some '\n'
  else if c = 'r' then some '\r'
  else if c = 't' then some '\t'
  else none

def isLeadSurrogate (n : Nat) : Bool := 0xD800 ≤ n && n ≤ 0xDBFF

def isTailSurrogate (n : Nat) : Bool := 0xDC00 ≤ n && n ≤ 0xDFFF

def stringRest (read : List Char) : List Char → Except Fault (List Char × List Char)
  | [] => failAt .eofString []
  | '"' :: rest => .ok (read.reverse, rest)
  | '\\' :: 'u' :: a :: b :: c :: d :: rest =>
    match hex4? a b c d with
    | none => failHex (a :: b :: c :: d :: rest)
    | some lead =>
      if isTailSurrogate lead then failAt .loneSurrogate rest
      else if isLeadSurrogate lead then
        match rest with
        | '\\' :: 'u' :: e :: f :: g :: h :: rest =>
          match hex4? e f g h with
          | none => failHex (e :: f :: g :: h :: rest)
          | some tail =>
            if isTailSurrogate tail then
              stringRest (Char.ofNat ((lead - 0xD800) * 1024 + (tail - 0xDC00) + 0x10000) :: read) rest
            else failAt .loneSurrogate rest
        | '\\' :: 'u' :: rest => failHex rest
        | '\\' :: [] => failAt .eofString []
        | '\\' :: rest => failOn .endOfHexEscape rest
        | [] => failAt .eofString []
        | rest => failOn .endOfHexEscape rest
      else stringRest (Char.ofNat lead :: read) rest
  | '\\' :: 'u' :: rest => failHex rest
  | '\\' :: [] => failAt .eofString []
  | '\\' :: c :: rest =>
    match simpleEscape? c with
    | some e => stringRest (e :: read) rest
    | none => failOn .invalidEscape (c :: rest)
  | c :: rest => if c.toNat < 32 then failAt .controlCharacter rest else stringRest (c :: read) rest

def isDigit (c : Char) : Bool := '0' ≤ c && c ≤ '9'

def natOfDigits (digits : List Char) : Nat := digits.foldl (fun n c => n * 10 + (c.toNat - 48)) 0

/-- The largest exponent that is taken literally; a longer one decides the number by its sign. -/
def exponentLimit : Nat := 2 ^ 31 - 1

def overlongExponent (value : Nat) : List Char → Option (List Char)
  | [] => none
  | c :: cs =>
    let next := value * 10 + (c.toNat - 48)
    if exponentLimit < next then some cs else overlongExponent next cs

def decimalNumber (negative : Bool) (digits : List Char) (power : Int) (rest : List Char) :
    Except Fault (Number × List Char) :=
  match Double.ofDecimal negative (natOfDigits digits) digits.length power with
  | some d => .ok (.real d, rest)
  | none => failAt .numberOutOfRange rest

def exponent (negative : Bool) (digits : List Char) (power : Int) (cs : List Char) :
    Except Fault (Number × List Char) :=
  let (down, cs) := match cs with
    | '+' :: r => (false, r)
    | '-' :: r => (true, r)
    | r => (false, r)
  match cs with
  | [] => failAt .eofValue []
  | c :: _ =>
    if !isDigit c then failOn .invalidNumber cs
    else
      let shift := cs.takeWhile isDigit
      let rest := cs.dropWhile isDigit
      match overlongExponent 0 shift with
      | some after =>
        if natOfDigits digits ≠ 0 && !down then failAt .numberOutOfRange (after ++ rest)
        else .ok (.real { Double.zero with negative }, rest)
      | none =>
        let n : Int := natOfDigits shift
        decimalNumber negative digits (if down then power - n else power + n) rest

def integerNumber (negative : Bool) (digits : List Char) (rest : List Char) :
    Except Fault (Number × List Char) :=
  let n := natOfDigits digits
  if negative then
    if h : n ≠ 0 ∧ n ≤ 2 ^ 63 then .ok (.below ⟨n - 1, by omega⟩, rest)
    else decimalNumber true digits 0 rest
  else if n < 2 ^ 64 then .ok (.whole (UInt64.ofNat n), rest)
  else decimalNumber false digits 0 rest

def numberTail (negative : Bool) (digits : List Char) (cs : List Char) :
    Except Fault (Number × List Char) :=
  match cs with
  | '.' :: cs =>
    let fraction := cs.takeWhile isDigit
    let rest := cs.dropWhile isDigit
    if fraction.isEmpty then
      match rest with
      | [] => failAt .eofValue []
      | _ => failOn .invalidNumber rest
    else
      let digits := digits ++ fraction
      let power : Int := -(fraction.length : Int)
      match rest with
      | 'e' :: rest => exponent negative digits power rest
      | 'E' :: rest => exponent negative digits power rest
      | _ => decimalNumber negative digits power rest
  | 'e' :: cs => exponent negative digits 0 cs
  | 'E' :: cs => exponent negative digits 0 cs
  | _ => integerNumber negative digits cs

def unsignedNumber (negative : Bool) (cs : List Char) : Except Fault (Number × List Char) :=
  match cs with
  | [] => failAt .eofValue []
  | '0' :: rest =>
    match rest with
    | c :: _ => if isDigit c then failOn .invalidNumber rest else numberTail negative ['0'] rest
    | [] => numberTail negative ['0'] []
  | c :: _ =>
    if isDigit c then numberTail negative (cs.takeWhile isDigit) (cs.dropWhile isDigit)
    else failOn .invalidNumber cs

def word : List Char → List Char → Except Fault (List Char)
  | [], cs => .ok cs
  | _ :: _, [] => failAt .eofValue []
  | w :: ws, c :: cs => if w = c then word ws cs else failOn .expectedIdent (c :: cs)

def scalar (cs : List Char) : Except Fault (Json × List Char) :=
  match cs with
  | [] => failAt .eofValue []
  | 'n' :: rest => return (.null, ← word ['u', 'l', 'l'] rest)
  | 't' :: rest => return (.bool true, ← word ['r', 'u', 'e'] rest)
  | 'f' :: rest => return (.bool false, ← word ['a', 'l', 's', 'e'] rest)
  | '"' :: rest => do
    let (s, rest) ← stringRest [] rest
    return (.str (String.ofList s), rest)
  | '-' :: rest => do
    let (n, rest) ← unsignedNumber true rest
    return (.num n, rest)
  | c :: _ =>
    if isDigit c then do
      let (n, rest) ← unsignedNumber false cs
      return (.num n, rest)
    else failOn .expectedValue cs

def nextItem (first : Bool) (cs : List Char) : Except Fault (Bool × List Char) :=
  match skipBlank cs with
  | [] => failAt .eofList []
  | ']' :: rest => .ok (false, rest)
  | c :: rest =>
    if first then .ok (true, c :: rest)
    else if c = ',' then
      match skipBlank rest with
      | [] => failAt .eofValue []
      | ']' :: rest => failOn .trailingComma (']' :: rest)
      | rest => .ok (true, rest)
    else failOn .expectedListComma (c :: rest)

def nextField (first : Bool) (cs : List Char) : Except Fault (Bool × List Char) :=
  match skipBlank cs with
  | [] => failAt .eofObject []
  | '\x7d' :: rest => .ok (false, rest)
  | c :: rest =>
    if first then if c = '"' then .ok (true, rest) else failOn .keyNotString (c :: rest)
    else if c = ',' then
      match skipBlank rest with
      | [] => failAt .eofValue []
      | '"' :: rest => .ok (true, rest)
      | '\x7d' :: rest => failOn .trailingComma ('\x7d' :: rest)
      | rest => failOn .keyNotString rest
    else failOn .expectedObjectComma (c :: rest)

def colon (cs : List Char) : Except Fault (List Char) :=
  match skipBlank cs with
  | [] => failAt .eofObject []
  | ':' :: rest => .ok rest
  | rest => failOn .expectedColon rest

mutual
def value (depth : Nat) : Nat → List Char → Except Fault (Json × List Char)
  | 0, cs => failAt .tooDeep cs
  | fuel + 1, cs =>
    match skipBlank cs with
    | '[' :: rest =>
      if depth ≤ 1 then failOn .tooDeep ('[' :: rest)
      else do
        let (items, rest) ← items (depth - 1) fuel true rest
        return (.arr items, rest)
    | '\x7b' :: rest =>
      if depth ≤ 1 then failOn .tooDeep ('\x7b' :: rest)
      else do
        let (fields, rest) ← fields (depth - 1) fuel true [] rest
        return (.obj fields, rest)
    | cs => scalar cs
def items (depth : Nat) : Nat → Bool → List Char → Except Fault (List Json × List Char)
  | 0, _, cs => failAt .tooDeep cs
  | fuel + 1, first, cs => do
    match ← nextItem first cs with
    | (false, rest) => return ([], rest)
    | (true, rest) => do
      let (v, rest) ← value depth fuel rest
      let (vs, rest) ← items depth fuel false rest
      return (v :: vs, rest)
def fields (depth : Nat) : Nat → Bool → Fields → List Char → Except Fault (Fields × List Char)
  | 0, _, _, cs => failAt .tooDeep cs
  | fuel + 1, first, read, cs => do
    match ← nextField first cs with
    | (false, rest) => return (read, rest)
    | (true, rest) => do
      let (name, rest) ← stringRest [] rest
      let rest ← colon rest
      let (v, rest) ← value depth fuel rest
      fields depth fuel false (Table.insert (String.ofList name) v read) rest
end

def finish {α : Type} (result : α) (cs : List Char) : Except Fault α :=
  match skipBlank cs with
  | [] => .ok result
  | rest => failOn .trailingCharacters rest

def readFuel (cs : List Char) : Nat := 2 * cs.length + 2

def parseChars (cs : List Char) : Except Fault Json := do
  let (v, rest) ← value depthLimit (readFuel cs) cs
  finish v rest

def parse (text : String) : Except SyntaxError Json :=
  (parseChars text.toList).mapError (·.locate text.toList)

/-! JSON in bytes. Bytes that spell no text are no JSON either. Inside a string literal this is noticed when
the literal ends; elsewhere such a byte is out of place like any other character that begins nothing. -/

/-- Bytes as characters of one byte each. What is beyond ASCII only matters inside string literals, and
there this does not. -/
def outline (bytes : Bytes) : List Char :=
  bytes.map fun b => if b < 0x80 then Char.ofNat b.toNat else '\x7f'

structure StrayLiteral where
  left : Nat
  stray : Nat
  deriving DecidableEq, Repr

def contentSize (rest : Bytes) : Nat :=
  match stringRest [] (outline rest) with
  | .ok (content, _) => Text.byteCount content
  | .error _ => 0

def strayLiteral? : Nat → Bytes → List Char → Option StrayLiteral
  | 0, _, _ => none
  | fuel + 1, bytes, text =>
    let before := text.takeWhile (· ≠ '"')
    match text.drop before.length with
    | [] => none
    | _ :: inside =>
      match stringRest [] inside with
      | .error _ => none
      | .ok (_, after) =>
        let literal := (bytes.drop (before.length + 1)).take (inside.length - after.length)
        match Text.utf8Fault? 0 literal with
        | some fault => some ⟨after.length, contentSize (literal.drop fault.index)⟩
        | none => strayLiteral? fuel (bytes.drop (text.length - after.length)) after

/-- The fault of bytes that spell no text: what is noticed first as they are read. A stray byte is counted
back from the end of its literal by the content that comes after it. -/
def strayFault (bytes : Bytes) : Fault :=
  let text := outline bytes
  match parseChars text, strayLiteral? (bytes.length + 1) bytes text with
  | .error fault, none => fault
  | .error fault, some l => if l.left < fault.left then fault else ⟨.invalidCodePoint, l.left + l.stray⟩
  | .ok _, some l => ⟨.invalidCodePoint, l.left + l.stray⟩
  | .ok _, none => ⟨.invalidCodePoint, 0⟩

def parseBytes (bytes : Bytes) : Except SyntaxError Json :=
  match Text.ofUtf8? bytes with
  | some text => parse text
  | none => .error ((strayFault bytes).locate (outline bytes))

end Conduit.Json
