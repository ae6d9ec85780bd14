import Conduit.Basic
import Conduit.Text.Class

/-! Variables, and texts that define more of them, a definition `NAME=value` to a line. A value may be quoted
and may name other variables; a variable that has a value keeps it. -/
namespace Conduit

abbrev Environment := Table String

namespace Environment

/-! Lines. A quoted value goes on over the end of its line, and a comment begins behind a blank. -/

inductive LinePlace where
  | plain | blank | escaped | single | singleEscaped | double | doubleEscaped
  deriving DecidableEq, Repr

namespace LinePlace

def opened (c : Char) : LinePlace :=
  if c = '\\' then .escaped else if c = '"' then .double else if c = '\'' then .single else .plain

def next? (c : Char) : LinePlace → Option LinePlace
  | .plain => some (if Text.isBlank c && c ≠ '\n' && c ≠ '\r' then .blank else opened c)
  | .blank => if c = '#' then none else some (opened c)
  | .escaped => some .plain
  | .single => some (if c = '\\' then .singleEscaped else if c = '\'' then .plain else .single)
  | .singleEscaped => some .single
  | .double => some (if c = '\\' then .doubleEscaped else if c = '"' then .plain else .double)
  | .doubleEscaped => some .double

def scan (p : LinePlace) : List Char → List Char × Option LinePlace
  | [] => ([], some p)
  | c :: rest =>
    match p.next? c with
    | none => ([], none)
    | some p =>
      let (kept, last) := scan p rest
      (c :: kept, last)

end LinePlace

/-- Lines with the line ends that quotes hold. What is never closed is no line. -/
def joinLines (begun : List Char) (p : LinePlace) : List (List Char) → List (List Char)
  | [] => []
  | line :: rest =>
    if (Text.trimStart (begun ++ line)).head? = some '#' then [] :: joinLines [] .plain rest
    else
      match p.scan line with
      | (kept, none) => (begun ++ kept) :: joinLines [] .plain rest
      | (_, some .plain) => (begun ++ line) :: joinLines [] .plain rest
      | (_, some p) => joinLines (begun ++ line) p rest

def splitLines : Bytes → List Bytes
  | [] => []
  | b :: rest =>
    if b = 10 then [b] :: splitLines rest
    else
      match splitLines rest with
      | [] => [[b]]
      | line :: lines => (b :: line) :: lines

def withoutMark : Bytes → Bytes
  | 0xEF :: 0xBB :: 0xBF :: rest => rest
  | bytes => bytes

def textLines (bytes : Bytes) : List (List Char) :=
  (((splitLines (withoutMark bytes)).map Text.ofUtf8?).takeWhile (·.isSome)).filterMap fun line =>
    line.map String.toList

/-! Values. -/

def valueOf (env : Environment) (name : List Char) : List Char :=
  ((env.get? (String.ofList name)).getD "").toList

inductive ValuePlace where
  | text | escaped | single
  | name (read : List Char)
  | braced (read : List Char)
  | behind
  deriving DecidableEq, Repr

def unescape? (c : Char) : Option Char :=
  if c = 'n' then some '\n' else if "\\'\"$ ".toList.contains c then some c else none

def readValue (env : Environment) (double : Bool) : ValuePlace → List Char → Option (List Char)
  | .name read, [] => if double then none else some (env.valueOf read)
  | .braced _, [] => none
  | .single, [] => none
  | _, [] => if double then none else some []
  | .behind, c :: rest =>
    if c = ' ' || c = '\t' then readValue env double .behind rest else if c = '#' then some [] else none
  | .escaped, c :: rest => do
    let c ← unescape? c
    return c :: (← readValue env double .text rest)
  | .single, c :: rest =>
    if c = '\'' then readValue env double .text rest else (c :: ·) <$> readValue env double .single rest
  | .name read, c :: rest =>
    if Text.isAlphanumeric c then readValue env double (.name (read ++ [c])) rest
    else if c = '\x7b' && read.isEmpty then readValue env double (.braced []) rest
    else if c = '$' then (env.valueOf read ++ ·) <$> readValue env double (.name []) rest
    else (env.valueOf read ++ c :: ·) <$> readValue env double .text rest
  | .braced read, c :: rest =>
    if c = '\x7d' then (env.valueOf read ++ ·) <$> readValue env double .text rest
    else readValue env double (.braced (read ++ [c])) rest
  | .text, c :: rest =>
    if c = '$' then readValue env double (.name []) rest
    else if c = '\\' then readValue env double .escaped rest
    else if c = '"' then readValue env (!double) .text rest
    else if double then (c :: ·) <$> readValue env double .text rest
    else if c = '\'' then readValue env double .single rest
    else if c = ' ' || c = '\t' then readValue env double .behind rest
    else (c :: ·) <$> readValue env double .text rest

/-! Definitions. -/

inductive Line where
  | empty
  | definition (name value : String)
  | malformed
  deriving DecidableEq, Repr

def startsName (c : Char) : Bool := c.isAlpha || c = '_'

def continuesName (c : Char) : Bool := c.isAlphanum || c = '_' || c = '.'

def readName : List Char → Option (List Char × List Char)
  | [] => none
  | c :: rest =>
    if startsName c then
      some (c :: rest.takeWhile continuesName, Text.trimStart (rest.dropWhile continuesName))
    else none

def isVoid (cs : List Char) : Bool := cs.head?.all (· = '#')

def readDefinition (env : Environment) (name : List Char) : List Char → Line
  | '=' :: rest =>
    let cs := Text.trimStart rest
    if isVoid cs then .definition (String.ofList name) ""
    else
      match readValue env false .text cs with
      | some value => .definition (String.ofList name) (String.ofList value)
      | none => .malformed
  | _ => .malformed

def readLine (env : Environment) (line : List Char) : Line :=
  let cs := Text.trim line
  if isVoid cs then .empty
  else
    match readName cs with
    | none => .malformed
    | some (name, rest) =>
      if name = "export".toList && rest.head? ≠ some '=' then
        match readName rest with
        | none => .malformed
        | some (name, rest) => readDefinition env name rest
      else readDefinition env name rest

def define (env : Environment) (name value : String) : Environment :=
  if env.has name then env else Table.insert name value env

def defineLines (env : Environment) : List (List Char) → Environment
  | [] => env
  | line :: rest =>
    match readLine env line with
    | .empty => defineLines env rest
    | .definition name value => defineLines (define env name value) rest
    | .malformed => env

def defineFrom (env : Environment) (bytes : Bytes) : Environment :=
  env.defineLines (joinLines [] .plain (textLines bytes))

def mentioned (text : String) : List String :=
  text.splitToList (fun c => !continuesName c && !Text.isAlphanumeric c)
    ++ text.splitToList fun c => !Text.isAlphanumeric c

end Environment

end Conduit
