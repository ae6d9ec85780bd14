import Conduit.Basic

/-! Semantic versions: three numbers, a pre-release and build metadata, each of the last two a list of
identifiers. A version prints back to the text it was read from. -/
namespace Conduit

structure Version where
  major : Nat
  minor : Nat
  patch : Nat
  pre : List String := []
  build : List String := []
  deriving DecidableEq, Repr

namespace Version

def isIdentChar (c : Char) : Bool := c.isAlphanum || c = '-'

def splitDots : List Char → List (List Char)
  | [] => [[]]
  | c :: rest =>
    if c = '.' then [] :: splitDots rest
    else
      match splitDots rest with
      | part :: parts => (c :: part) :: parts
      | [] => [[c]]

def number? (digits : List Char) : Option Nat :=
  if digits.isEmpty || !digits.all Char.isDigit then none
  else if digits.head? = some '0' && 1 < digits.length then none
  else
    let n := digits.foldl (fun n c => n * 10 + (c.toNat - 48)) 0
    if n < 2 ^ 64 then some n else none

def isNumeric (s : List Char) : Bool := s.all Char.isDigit

def isPreIdent (s : List Char) : Bool :=
  !s.isEmpty && s.all isIdentChar && !(isNumeric s && s.head? = some '0' && 1 < s.length)

def isBuildIdent (s : List Char) : Bool := !s.isEmpty && s.all isIdentChar

def cut (c : Char) (cs : List Char) : List Char × Option (List Char) :=
  match cs.dropWhile (· ≠ c) with
  | [] => (cs, none)
  | _ :: rest => (cs.takeWhile (· ≠ c), some rest)

def idents? (valid : List Char → Bool) : Option (List Char) → Option (List String)
  | none => some []
  | some cs => if (splitDots cs).all valid then some ((splitDots cs).map String.ofList) else none

def parse? (s : String) : Option Version := do
  let (front, build) := cut '+' s.toList
  let (core, pre) := cut '-' front
  match splitDots core with
  | [major, minor, patch] =>
    return { major := ← number? major, minor := ← number? minor, patch := ← number? patch
             pre := ← idents? isPreIdent pre, build := ← idents? isBuildIdent build }
  | _ => none

def text (v : Version) : String :=
  s!"{v.major}.{v.minor}.{v.patch}"
    ++ (if v.pre.isEmpty then "" else "-" ++ ".".intercalate v.pre)
    ++ (if v.build.isEmpty then "" else "+" ++ ".".intercalate v.build)

/-! Order. -/

/-- Identifiers of digits come before others and are ordered as numbers, the shorter writing of the same
number first; others are ordered by their characters. -/
def compareIdent (a b : String) : Ordering :=
  match isNumeric a.toList, isNumeric b.toList with
  | true, false => .lt
  | false, true => .gt
  | false, false => compare a b
  | true, true =>
    let x := a.toList.dropWhile (· = '0')
    let y := b.toList.dropWhile (· = '0')
    (compare x.length y.length).then <| (compare (String.ofList x) (String.ofList y)).then <|
      compare a.length b.length

def compareIdents : List String → List String → Ordering
  | [], [] => .eq
  | [], _ :: _ => .lt
  | _ :: _, [] => .gt
  | a :: as, b :: bs => (compareIdent a b).then (compareIdents as bs)

def comparePre : List String → List String → Ordering
  | [], [] => .eq
  | [], _ :: _ => .gt
  | _ :: _, [] => .lt
  | as, bs => compareIdents as bs

protected def compare (a b : Version) : Ordering :=
  (compare a.major b.major).then <| (compare a.minor b.minor).then <|
    (compare a.patch b.patch).then <| (comparePre a.pre b.pre).then (compareIdents a.build b.build)

instance : Ord Version := ⟨Version.compare⟩

def newer (a b : Version) : Version := if b.compare a = .gt then b else a

def latest? : List Version → Option Version
  | [] => none
  | v :: rest => some (rest.foldl newer v)

end Version

end Conduit
