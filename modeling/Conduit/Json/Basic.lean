import Conduit.Number.Double
import Conduit.Basic

/-! JSON values. An object is a table of fields, so that two objects with the same fields are the same
list; `Table.insert` is the only way fields are added. -/
namespace Conduit

/-- A number is a 64-bit natural, a negative 64-bit integer `-1 - n`, or a double. -/
inductive Number where
  | whole (n : UInt64)
  | below (n : Fin (2 ^ 63))
  | real (d : Double)
  deriving DecidableEq, Repr

inductive Json where
  | null
  | bool (b : Bool)
  | num (n : Number)
  | str (s : String)
  | arr (items : List Json)
  | obj (fields : List (String × Json))
  deriving Repr

instance : Inhabited Json := ⟨.null⟩

abbrev Fields := Table Json

namespace Number

def ofNat (n : Nat) : Number := .whole (UInt64.ofNat n)

def toDouble : Number → Double
  | .whole n => (Double.ofNat n.toNat).getD .zero
  | .below n => (Double.ofInt (-1 - (n.val : Int))).getD .zero
  | .real d => d

def same : Number → Number → Bool
  | .whole a, .whole b => a = b
  | .below a, .below b => a = b
  | .real a, .real b => a.same b
  | _, _ => false

end Number

namespace Json

def ofPairs (pairs : List (String × Json)) : Json := .obj (Table.ofList pairs)

def ofSome (pairs : List (String × Option Json)) : Json :=
  ofPairs (pairs.filterMap fun p => p.2.map (p.1, ·))

def nat (n : Nat) : Json := .num (.ofNat n)

def double : Option Double → Json
  | some d => .num (.real d)
  | none => .null

def strings (items : List String) : Json := .arr (items.map .str)

def field? (name : String) : Json → Option Json
  | .obj fields => Table.get? fields name
  | _ => none

def asString? : Json → Option String
  | .str s => some s
  | _ => none

def asBool? : Json → Option Bool
  | .bool b => some b
  | _ => none

def asArray? : Json → Option (List Json)
  | .arr items => some items
  | _ => none

def asObject? : Json → Option Fields
  | .obj fields => some fields
  | _ => none

def asNat? : Json → Option Nat
  | .num (.whole n) => some n.toNat
  | _ => none

def isNull : Json → Bool
  | .null => true
  | _ => false

mutual
def same : Json → Json → Bool
  | .null, .null => true
  | .bool a, .bool b => a = b
  | .num a, .num b => a.same b
  | .str a, .str b => a = b
  | .arr a, .arr b => sameItems a b
  | .obj a, .obj b => sameFields a b
  | _, _ => false
def sameItems : List Json → List Json → Bool
  | [], [] => true
  | a :: as, b :: bs => same a b && sameItems as bs
  | _, _ => false
def sameFields : List (String × Json) → List (String × Json) → Bool
  | [], [] => true
  | (j, a) :: as, (k, b) :: bs => j = k && same a b && sameFields as bs
  | _, _ => false
end

mutual
def depth : Json → Nat
  | .arr items => depthItems items + 1
  | .obj fields => depthFields fields + 1
  | _ => 0
def depthItems : List Json → Nat
  | [] => 0
  | v :: vs => max (depth v) (depthItems vs)
def depthFields : List (String × Json) → Nat
  | [] => 0
  | (_, v) :: vs => max (depth v) (depthFields vs)
end

end Json

end Conduit

/-! JSON text. The compact form has no blanks and its fields in name order, so that it is the
canonical form that is hashed; the pretty form puts one item on a line. -/
namespace Conduit.Json

def hexDigit (n : Nat) : Char := Nat.digitChar n

def escape (c : Char) : List Char :=
  if c = '"' then ['\\', '"']
  else if c = '\\' then ['\\', '\\']
  else if c = '\n' then ['\\', 'n']
  else if c = '\r' then ['\\', 'r']
  else if c = '\t' then ['\\', 't']
  else if c.toNat = 8 then ['\\', 'b']
  else if c.toNat = 12 then ['\\', 'f']
  else if c.toNat < 32 then ['\\', 'u', '0', '0', hexDigit (c.toNat / 16), hexDigit (c.toNat % 16)]
  else [c]

def quoteChars (s : List Char) : List Char := '"' :: s.flatMap escape ++ ['"']

def quote (s : String) : List Char := quoteChars s.toList

def numberText : Number → List Char
  | .whole n => Nat.toDigits 10 n.toNat
  | .below n => '-' :: Nat.toDigits 10 (n.val + 1)
  | .real d => d.text .json

mutual
def compactChars : Json → List Char
  | .null => ['n', 'u', 'l', 'l']
  | .bool true => ['t', 'r', 'u', 'e']
  | .bool false => ['f', 'a', 'l', 's', 'e']
  | .num n => numberText n
  | .str s => quote s
  | .arr items => '[' :: compactItems items ++ [']']
  | .obj fields => '\x7b' :: compactFields fields ++ ['\x7d']
def compactItems : List Json → List Char
  | [] => []
  | [v] => compactChars v
  | v :: w :: rest => compactChars v ++ ',' :: compactItems (w :: rest)
def compactFields : List (String × Json) → List Char
  | [] => []
  | [(k, v)] => quote k ++ ':' :: compactChars v
  | (k, v) :: f :: rest => quote k ++ ':' :: compactChars v ++ ',' :: compactFields (f :: rest)
end

def compact (v : Json) : String := String.ofList (compactChars v)

def newline (indent : Nat) : List Char := '\n' :: List.replicate (2 * indent) ' '

mutual
/-- `indent` counts the containers around the value. -/
def prettyChars (indent : Nat) : Json → List Char
  | .arr [] => ['[', ']']
  | .arr (v :: rest) =>
    '[' :: newline (indent + 1) ++ prettyChars (indent + 1) v ++ prettyItems (indent + 1) rest
      ++ newline indent ++ [']']
  | .obj [] => ['\x7b', '\x7d']
  | .obj ((k, v) :: rest) =>
    '\x7b' :: newline (indent + 1) ++ quote k ++ ':' :: ' ' :: prettyChars (indent + 1) v
      ++ prettyFields (indent + 1) rest ++ newline indent ++ ['\x7d']
  | .null => ['n', 'u', 'l', 'l']
  | .bool true => ['t', 'r', 'u', 'e']
  | .bool false => ['f', 'a', 'l', 's', 'e']
  | .num n => numberText n
  | .str s => quote s
def prettyItems (indent : Nat) : List Json → List Char
  | [] => []
  | v :: rest => ',' :: newline indent ++ prettyChars indent v ++ prettyItems indent rest
def prettyFields (indent : Nat) : List (String × Json) → List Char
  | [] => []
  | (k, v) :: rest =>
    ',' :: newline indent ++ quote k ++ ':' :: ' ' :: prettyChars indent v ++ prettyFields indent rest
end

def pretty (v : Json) : String := String.ofList (prettyChars 0 v)

end Conduit.Json
