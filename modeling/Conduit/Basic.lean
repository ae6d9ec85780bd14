/-! What the other modules write their data in: values under names, bytes and the text they spell, naturals
of 64 bits, and places in a text. A table is kept in the order of its names, so that two tables with the same
content are the same list. -/

-- A bound such as `2 ^ 64` is the core library's power, also where a library with powers of its own is
-- imported, so that it is one term for the code and for every proof about it.
attribute [instance (2000)] instPowNat
attribute [default_instance (20000)] instPowNat

namespace Conduit

abbrev Table (α : Type) := List (String × α)

namespace Table

variable {α : Type}

def get? (table : Table α) (name : String) : Option α := List.lookup name table

def has (table : Table α) (name : String) : Bool := (get? table name).isSome

def insert (name : String) (value : α) : Table α → Table α
  | [] => [(name, value)]
  | (k, v) :: rest =>
    if name < k then (name, value) :: (k, v) :: rest
    else if name = k then (name, value) :: rest
    else (k, v) :: insert name value rest

def erase (table : Table α) (name : String) : Table α := table.filter fun p => p.1 ≠ name

def ofList (pairs : List (String × α)) : Table α :=
  pairs.foldl (fun table p => insert p.1 p.2 table) []

def names (table : Table α) : List String := table.map (·.1)

def values (table : Table α) : List α := table.map (·.2)

def Ordered (table : Table α) : Prop := table.Pairwise (fun a b => a.1 < b.1)

end Table

abbrev Bytes := List UInt8

namespace Text

def utf8 (s : String) : Bytes := s.toUTF8.data.toList

def ofUtf8? (bytes : Bytes) : Option String := String.fromUTF8? ⟨bytes.toArray⟩

theorem utf8_injective {a b : String} (h : utf8 a = utf8 b) : a = b := by
  have data : a.toUTF8.data = b.toUTF8.data := Array.toList_inj.mp h
  exact String.toByteArray_inj.mp (ByteArray.ext data)

def digitValue (c : Char) : Nat := c.toNat - 48

def natural64? (cs : List Char) : Option Nat :=
  let digits := match cs with
    | '+' :: rest => rest
    | cs => cs
  if digits.isEmpty || !digits.all Char.isDigit then none
  else
    let n := digits.foldl (fun n c => n * 10 + digitValue c) 0
    if n < 2 ^ 64 then some n else none

-- A reader keeps the characters it has not read; a place is given by the number of bytes left, and turned
-- into a line and a column only when it is reported. The zero a sum starts from is the core library's,
-- whatever else is imported.
attribute [local instance (2000)] Zero.ofOfNat0

def byteCount (cs : List Char) : Nat := (cs.map Char.utf8Size).sum

structure Position where
  line : Nat
  column : Nat
  deriving DecidableEq, Repr

def Position.advance : Position → Nat → List Char → Position
  | p, 0, _ => p
  | p, _, [] => p
  | p, bytes, c :: cs =>
    let next := if c = '\n' then ⟨p.line + 1, 0⟩ else ⟨p.line, p.column + min c.utf8Size bytes⟩
    advance next (bytes - c.utf8Size) cs

/-- The position with `left` bytes of the text still to come. Lines count from one, columns count
the bytes read since the line began. -/
def position (text : List Char) (left : Nat) : Position :=
  Position.advance ⟨1, 0⟩ (byteCount text - left) text

end Text

end Conduit
