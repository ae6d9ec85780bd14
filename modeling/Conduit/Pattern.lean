import Conduit.Nexon.Parameter
import Conduit.Text.Class

/-! A library of regular expressions that programs can run with. Nothing is proved with it but runs on given
channels: all else holds for every library. -/

/-! Simple case folding of Unicode: the one character that each cased character is compared as. -/
namespace Conduit.Text

structure FoldRange where
  first : Nat
  last : Nat
  step : Nat
  target : Nat
  deriving DecidableEq, Repr

set_option maxRecDepth 10000 in
def foldRanges : List FoldRange :=
  [⟨65, 90, 1, 97⟩, ⟨181, 181, 1, 956⟩, ⟨192, 214, 1, 224⟩, ⟨216, 222, 1, 248⟩, ⟨256, 302, 2, 257⟩,
   ⟨306, 310, 2, 307⟩, ⟨313, 327, 2, 314⟩, ⟨330, 374, 2, 331⟩, ⟨376, 376, 1, 255⟩,
   ⟨377, 381, 2, 378⟩, ⟨383, 383, 1, 115⟩, ⟨385, 385, 1, 595⟩, ⟨386, 388, 2, 387⟩,
   ⟨390, 390, 1, 596⟩, ⟨391, 391, 1, 392⟩, ⟨393, 394, 1, 598⟩, ⟨395, 395, 1, 396⟩,
   ⟨398, 398, 1, 477⟩, ⟨399, 399, 1, 601⟩, ⟨400, 400, 1, 603⟩, ⟨401, 401, 1, 402⟩,
   ⟨403, 403, 1, 608⟩, ⟨404, 404, 1, 611⟩, ⟨406, 406, 1, 617⟩, ⟨407, 407, 1, 616⟩,
   ⟨408, 408, 1, 409⟩, ⟨412, 412, 1, 623⟩, ⟨413, 413, 1, 626⟩, ⟨415, 415, 1, 629⟩,
   ⟨416, 420, 2, 417⟩, ⟨422, 422, 1, 640⟩, ⟨423, 423, 1, 424⟩, ⟨425, 425, 1, 643⟩,
   ⟨428, 428, 1, 429⟩, ⟨430, 430, 1, 648⟩, ⟨431, 431, 1, 432⟩, ⟨433, 434, 1, 650⟩,
   ⟨435, 437, 2, 436⟩, ⟨439, 439, 1, 658⟩, ⟨440, 440, 1, 441⟩, ⟨444, 444, 1, 445⟩,
   ⟨452, 452, 1, 454⟩, ⟨453, 453, 1, 454⟩, ⟨455, 455, 1, 457⟩, ⟨456, 456, 1, 457⟩,
   ⟨458, 458, 1, 460⟩, ⟨459, 475, 2, 460⟩, ⟨478, 494, 2, 479⟩, ⟨497, 497, 1, 499⟩,
   ⟨498, 500, 2, 499⟩, ⟨502, 502, 1, 405⟩, ⟨503, 503, 1, 447⟩, ⟨504, 542, 2, 505⟩,
   ⟨544, 544, 1, 414⟩, ⟨546, 562, 2, 547⟩, ⟨570, 570, 1, 11365⟩, ⟨571, 571, 1, 572⟩,
   ⟨573, 573, 1, 410⟩, ⟨574, 574, 1, 11366⟩, ⟨577, 577, 1, 578⟩, ⟨579, 579, 1, 384⟩,
   ⟨580, 580, 1, 649⟩, ⟨581, 581, 1, 652⟩, ⟨582, 590, 2, 583⟩, ⟨837, 837, 1, 953⟩,
   ⟨880, 882, 2, 881⟩, ⟨886, 886, 1, 887⟩, ⟨895, 895, 1, 1011⟩, ⟨902, 902, 1, 940⟩,
   ⟨904, 906, 1, 941⟩, ⟨908, 908, 1, 972⟩, ⟨910, 911, 1, 973⟩, ⟨913, 929, 1, 945⟩,
   ⟨931, 939, 1, 963⟩, ⟨962, 962, 1, 963⟩, ⟨975, 975, 1, 983⟩, ⟨976, 976, 1, 946⟩,
   ⟨977, 977, 1, 952⟩, ⟨981, 981, 1, 966⟩, ⟨982, 982, 1, 960⟩, ⟨984, 1006, 2, 985⟩,
   ⟨1008, 1008, 1, 954⟩, ⟨1009, 1009, 1, 961⟩, ⟨1012, 1012, 1, 952⟩, ⟨1013, 1013, 1, 949⟩,
   ⟨1015, 1015, 1, 1016⟩, ⟨1017, 1017, 1, 1010⟩, ⟨1018, 1018, 1, 1019⟩, ⟨1021, 1023, 1, 891⟩,
   ⟨1024, 1039, 1, 1104⟩, ⟨1040, 1071, 1, 1072⟩, ⟨1120, 1152, 2, 1121⟩, ⟨1162, 1214, 2, 1163⟩,
   ⟨1216, 1216, 1, 1231⟩, ⟨1217, 1229, 2, 1218⟩, ⟨1232, 1326, 2, 1233⟩, ⟨1329, 1366, 1, 1377⟩,
   ⟨4256, 4293, 1, 11520⟩, ⟨4295, 4295, 1, 11559⟩, ⟨4301, 4301, 1, 11565⟩, ⟨5112, 5117, 1, 5104⟩,
   ⟨7296, 7296, 1, 1074⟩, ⟨7297, 7297, 1, 1076⟩, ⟨7298, 7298, 1, 1086⟩, ⟨7299, 7300, 1, 1089⟩,
   ⟨7301, 7301, 1, 1090⟩, ⟨7302, 7302, 1, 1098⟩, ⟨7303, 7303, 1, 1123⟩, ⟨7304, 7304, 1, 42571⟩,
   ⟨7305, 7305, 1, 7306⟩, ⟨7312, 7354, 1, 4304⟩, ⟨7357, 7359, 1, 4349⟩, ⟨7680, 7828, 2, 7681⟩,
   ⟨7835, 7835, 1, 7777⟩, ⟨7838, 7838, 1, 223⟩, ⟨7840, 7934, 2, 7841⟩, ⟨7944, 7951, 1, 7936⟩,
   ⟨7960, 7965, 1, 7952⟩, ⟨7976, 7983, 1, 7968⟩, ⟨7992, 7999, 1, 7984⟩, ⟨8008, 8013, 1, 8000⟩,
   ⟨8025, 8031, 2, 8017⟩, ⟨8040, 8047, 1, 8032⟩, ⟨8072, 8079, 1, 8064⟩, ⟨8088, 8095, 1, 8080⟩,
   ⟨8104, 8111, 1, 8096⟩, ⟨8120, 8121, 1, 8112⟩, ⟨8122, 8123, 1, 8048⟩, ⟨8124, 8124, 1, 8115⟩,
   ⟨8126, 8126, 1, 953⟩, ⟨8136, 8139, 1, 8050⟩, ⟨8140, 8140, 1, 8131⟩, ⟨8147, 8147, 1, 912⟩,
   ⟨8152, 8153, 1, 8144⟩, ⟨8154, 8155, 1, 8054⟩, ⟨8163, 8163, 1, 944⟩, ⟨8168, 8169, 1, 8160⟩,
   ⟨8170, 8171, 1, 8058⟩, ⟨8172, 8172, 1, 8165⟩, ⟨8184, 8185, 1, 8056⟩, ⟨8186, 8187, 1, 8060⟩,
   ⟨8188, 8188, 1, 8179⟩, ⟨8486, 8486, 1, 969⟩, ⟨8490, 8490, 1, 107⟩, ⟨8491, 8491, 1, 229⟩,
   ⟨8498, 8498, 1, 8526⟩, ⟨8544, 8559, 1, 8560⟩, ⟨8579, 8579, 1, 8580⟩, ⟨9398, 9423, 1, 9424⟩,
   ⟨11264, 11311, 1, 11312⟩, ⟨11360, 11360, 1, 11361⟩, ⟨11362, 11362, 1, 619⟩,
   ⟨11363, 11363, 1, 7549⟩, ⟨11364, 11364, 1, 637⟩, ⟨11367, 11371, 2, 11368⟩,
   ⟨11373, 11373, 1, 593⟩, ⟨11374, 11374, 1, 625⟩, ⟨11375, 11375, 1, 592⟩, ⟨11376, 11376, 1, 594⟩,
   ⟨11378, 11378, 1, 11379⟩, ⟨11381, 11381, 1, 11382⟩, ⟨11390, 11391, 1, 575⟩,
   ⟨11392, 11490, 2, 11393⟩, ⟨11499, 11501, 2, 11500⟩, ⟨11506, 11506, 1, 11507⟩,
   ⟨42560, 42604, 2, 42561⟩, ⟨42624, 42650, 2, 42625⟩, ⟨42786, 42798, 2, 42787⟩,
   ⟨42802, 42862, 2, 42803⟩, ⟨42873, 42875, 2, 42874⟩, ⟨42877, 42877, 1, 7545⟩,
   ⟨42878, 42886, 2, 42879⟩, ⟨42891, 42891, 1, 42892⟩, ⟨42893, 42893, 1, 613⟩,
   ⟨42896, 42898, 2, 42897⟩, ⟨42902, 42920, 2, 42903⟩, ⟨42922, 42922, 1, 614⟩,
   ⟨42923, 42923, 1, 604⟩, ⟨42924, 42924, 1, 609⟩, ⟨42925, 42925, 1, 620⟩, ⟨42926, 42926, 1, 618⟩,
   ⟨42928, 42928, 1, 670⟩, ⟨42929, 42929, 1, 647⟩, ⟨42930, 42930, 1, 669⟩,
   ⟨42931, 42931, 1, 43859⟩, ⟨42932, 42946, 2, 42933⟩, ⟨42948, 42948, 1, 42900⟩,
   ⟨42949, 42949, 1, 642⟩, ⟨42950, 42950, 1, 7566⟩, ⟨42951, 42953, 2, 42952⟩,
   ⟨42955, 42955, 1, 612⟩, ⟨42956, 42956, 1, 42957⟩, ⟨42960, 42960, 1, 42961⟩,
   ⟨42966, 42970, 2, 42967⟩, ⟨42972, 42972, 1, 411⟩, ⟨42997, 42997, 1, 42998⟩,
   ⟨43888, 43967, 1, 5024⟩, ⟨64261, 64261, 1, 64262⟩, ⟨65313, 65338, 1, 65345⟩,
   ⟨66560, 66599, 1, 66600⟩, ⟨66736, 66771, 1, 66776⟩, ⟨66928, 66938, 1, 66967⟩,
   ⟨66940, 66954, 1, 66979⟩, ⟨66956, 66962, 1, 66995⟩, ⟨66964, 66965, 1, 67003⟩,
   ⟨68736, 68786, 1, 68800⟩, ⟨68944, 68965, 1, 68976⟩, ⟨71840, 71871, 1, 71872⟩,
   ⟨93760, 93791, 1, 93792⟩, ⟨125184, 125217, 1, 125218⟩]

def foldCase (c : Char) : Char :=
  let n := c.toNat
  match foldRanges.find? (fun r => r.first ≤ n && n ≤ r.last && (n - r.first) % r.step = 0) with
  | some r => Char.ofNat (r.target + (n - r.first))
  | none => c

end Conduit.Text

/-! Regular expressions: sets of characters, places between characters, and how they are combined.
Only whether a text holds a match is asked of them, so a repetition has no preference for more or
fewer rounds, and groups leave no trace. -/
namespace Conduit.Pattern

inductive CharSet where
  | range (low high : Char)
  | decimal
  | blank
  | word
  | union (parts : List CharSet)
  | complement (s : CharSet)
  | folded (s : CharSet)
  deriving Repr

def caseOrbit (c : Char) : List Char :=
  let f := Text.foldCase c
  let n := f.toNat
  f :: Text.foldRanges.filterMap fun r =>
    if r.target ≤ n && n - r.target ≤ r.last - r.first && (n - r.target) % r.step = 0 then
      some (Char.ofNat (r.first + (n - r.target)))
    else none

mutual
def CharSet.contains (c : Char) : CharSet → Bool
  | .range low high => low ≤ c && c ≤ high
  | .decimal => Text.isDecimal c
  | .blank => Text.isBlank c
  | .word => Text.isWordChar c
  | .union parts => containsAny c parts
  | .complement s => !s.contains c
  | .folded s => (caseOrbit c).any fun d => s.contains d
def containsAny (c : Char) : List CharSet → Bool
  | [] => false
  | s :: rest => s.contains c || containsAny c rest
end

inductive Anchor where
  | textStart | textEnd | lineStart | lineEnd | wordEdge | notWordEdge
  deriving DecidableEq, Repr

inductive Node where
  | empty
  | one (s : CharSet)
  | anchor (a : Anchor)
  | seq (first second : Node)
  | alt (first second : Node)
  | rounds (inner : Node) (low : Nat) (high : Option Nat)
  deriving Repr

/-! Reading a regular expression. Places are counted in characters; the reader knows where it stands from
the number of characters left. -/

inductive Cause where
  | unclosedGroup | unopenedGroup | unclosedClass | nothingToRepeat
  | countOrder | unclosedCount | emptyCount | countTooLarge
  | endInEscape | unknownEscape | backreference | lookAround
  | unclosedName | emptyName | nameCharacter
  | unknownFlag | endInFlags | danglingNegation | repeatedFlag
  | rangeOrder | rangeBoundary | escapeInClass
  deriving DecidableEq, Repr

def Cause.message : Cause → String
  | .unclosedGroup => "unclosed group"
  | .unopenedGroup => "unopened group"
  | .unclosedClass => "unclosed character class"
  | .nothingToRepeat => "repetition operator missing expression"
  | .countOrder => "invalid repetition count range, the start must be <= the end"
  | .unclosedCount => "unclosed counted repetition"
  | .emptyCount => "repetition quantifier expects a valid decimal"
  | .countTooLarge => "decimal literal invalid"
  | .endInEscape => "incomplete escape sequence, reached end of pattern prematurely"
  | .unknownEscape => "unrecognized escape sequence"
  | .backreference => "backreferences are not supported"
  | .lookAround => "look-around, including look-ahead and look-behind, is not supported"
  | .unclosedName => "unclosed capture group name"
  | .emptyName => "empty capture group name"
  | .nameCharacter => "invalid capture group character"
  | .unknownFlag => "unrecognized flag"
  | .endInFlags => "expected flag but got end of regex"
  | .danglingNegation => "dangling flag negation operator"
  | .repeatedFlag => "duplicate flag"
  | .rangeOrder => "invalid character class range, the start must be <= the end"
  | .rangeBoundary => "invalid range boundary, must be a literal"
  | .escapeInClass => "invalid escape sequence found in character class"

structure Error where
  cause : Cause
  start : Nat
  stop : Nat
  deriving DecidableEq, Repr

def Error.message (pattern : String) (e : Error) : String :=
  let carets := String.ofList (List.replicate e.start ' ' ++ List.replicate (max 1 (e.stop - e.start)) '^')
  s!"regex parse error:\n    {pattern}\n    {carets}\nerror: {e.cause.message}"

structure Flags where
  ignoreCase : Bool := false
  multiLine : Bool := false
  dotAll : Bool := false
  deriving DecidableEq, Repr

inductive Atom where
  | char (c : Char)
  | set (s : CharSet)
  | anchor (a : Anchor)
  deriving Repr

def failAt {α : Type} (cause : Cause) (start stop : Nat) : Except Error α := .error ⟨cause, start, stop⟩

def literalSet (flags : Flags) (c : Char) : CharSet :=
  if flags.ignoreCase then .folded (.range c c) else .range c c

def Atom.node (flags : Flags) : Atom → Node
  | .char c => .one (literalSet flags c)
  | .set s => .one s
  | .anchor a => .anchor a

def isEscapable (c : Char) : Bool := c.toNat < 128 && !c.isAlphanum && c ≠ '<' && c ≠ '>'

def escape (size start : Nat) (cs : List Char) : Except Error (Atom × List Char) :=
  match cs with
  | [] => failAt .endInEscape start size
  | c :: rest =>
    let perl (s : CharSet) : Except Error (Atom × List Char) := .ok (.set s, rest)
    if c.isDigit then failAt .backreference start (start + 2)
    else if c = 'd' then perl .decimal
    else if c = 's' then perl .blank
    else if c = 'w' then perl .word
    else if c = 'D' then perl (.complement .decimal)
    else if c = 'S' then perl (.complement .blank)
    else if c = 'W' then perl (.complement .word)
    else if isEscapable c then .ok (.char c, rest)
    else if c = 'a' then .ok (.char '\x07', rest)
    else if c = 'f' then .ok (.char '\x0c', rest)
    else if c = 't' then .ok (.char '\t', rest)
    else if c = 'n' then .ok (.char '\n', rest)
    else if c = 'r' then .ok (.char '\r', rest)
    else if c = 'v' then .ok (.char '\x0b', rest)
    else if c = 'A' then .ok (.anchor .textStart, rest)
    else if c = 'z' then .ok (.anchor .textEnd, rest)
    else if c = 'b' then .ok (.anchor .wordEdge, rest)
    else if c = 'B' then .ok (.anchor .notWordEdge, rest)
    else failAt .unknownEscape start (start + 2)

/-! Classes in brackets. -/

def classAtom (size : Nat) (cs : List Char) : Except Error (Atom × List Char) :=
  match cs with
  | '\\' :: rest => escape size (size - cs.length) rest
  | c :: rest => .ok (.char c, rest)
  | [] => failAt .endInEscape size size

def Atom.classSet (start stop : Nat) : Atom → Except Error CharSet
  | .char c => .ok (.range c c)
  | .set s => .ok s
  | .anchor _ => failAt .escapeInClass start stop

def Atom.boundary (start stop : Nat) : Atom → Except Error Char
  | .char c => .ok c
  | _ => failAt .rangeBoundary start stop

def classRange (size opened openedEnd : Nat) (cs : List Char) : Except Error (CharSet × List Char) := do
  let start := size - cs.length
  let (low, rest) ← classAtom size cs
  let lowEnd := size - rest.length
  match rest with
  | [] => failAt .unclosedClass opened openedEnd
  | '-' :: after =>
    match after with
    | ']' :: _ => return (← low.classSet start lowEnd, rest)
    | '-' :: _ => return (← low.classSet start lowEnd, rest)
    | [] => failAt .unclosedClass opened openedEnd
    | after =>
      let (high, rest) ← classAtom size after
      let highEnd := size - rest.length
      let a ← low.boundary start lowEnd
      let b ← high.boundary (lowEnd + 1) highEnd
      if a ≤ b then return (.range a b, rest) else failAt .rangeOrder start highEnd
  | _ => return (← low.classSet start lowEnd, rest)

def leadingHyphens (read : List CharSet) : List Char → List CharSet × List Char
  | '-' :: rest => leadingHyphens (.range '-' '-' :: read) rest
  | rest => (read, rest)

def classOpening (size start : Nat) (cs : List Char) :
    Except Error (Bool × List CharSet × List Char) :=
  let negated := cs.head? = some '^'
  let afterSign := if negated then cs.tail else cs
  if afterSign.isEmpty then failAt .unclosedClass start size
  else
    let (hyphens, rest) := leadingHyphens [] afterSign
    if rest.isEmpty then failAt .unclosedClass start start
    else
      match hyphens, rest with
      | [], ']' :: rest =>
        if rest.isEmpty then failAt .unclosedClass start size
        else .ok (negated, [.range ']' ']'], rest)
      | hyphens, rest => .ok (negated, hyphens, rest)

def closeClass (flags : Flags) (negated : Bool) (items : List CharSet) : CharSet :=
  let all := .union items
  let all := if flags.ignoreCase then .folded all else all
  if negated then .complement all else all

mutual
def charClass (flags : Flags) (size start : Nat) : Nat → List Char → Except Error (CharSet × List Char)
  | 0, _ => failAt .unclosedClass start size
  | fuel + 1, cs => do
    let (negated, items, rest) ← classOpening size start cs
    let (items, rest) ← classItems flags size start (size - rest.length) fuel items rest
    return (closeClass flags negated items, rest)
def classItems (flags : Flags) (size start openedEnd : Nat) : Nat → List CharSet → List Char →
    Except Error (List CharSet × List Char)
  | 0, _, _ => failAt .unclosedClass start size
  | fuel + 1, items, cs =>
    match cs with
    | [] => failAt .unclosedClass start openedEnd
    | ']' :: rest => .ok (items, rest)
    | '[' :: rest => do
      let (inner, rest) ← charClass flags size (size - cs.length) fuel rest
      classItems flags size start openedEnd fuel (inner :: items) rest
    | cs => do
      let (item, rest) ← classRange size start openedEnd cs
      classItems flags size start openedEnd fuel (item :: items) rest
end

/-! Repetitions. -/

def skipLazy : List Char → List Char
  | '?' :: rest => rest
  | rest => rest

def count (size : Nat) (cs : List Char) : Except Error (Nat × List Char) :=
  let cs := cs.dropWhile Text.isBlank
  let digits := cs.takeWhile Char.isDigit
  let after := cs.dropWhile Char.isDigit
  let start := size - cs.length
  let n := digits.foldl (fun n c => n * 10 + (c.toNat - 48)) 0
  if digits.isEmpty then failAt .emptyCount start start
  else if 2 ^ 32 ≤ n then failAt .countTooLarge start (start + digits.length)
  else .ok (n, after.dropWhile Text.isBlank)

def counts (size start : Nat) (cs : List Char) : Except Error (Nat × Option Nat × List Char) := do
  if cs.isEmpty then failAt .unclosedCount start size
  else
    let low := count size cs
    let rest := match low with
      | .ok (_, rest) => rest
      | .error _ => (cs.dropWhile Text.isBlank)
    match rest with
    | [] => failAt .unclosedCount start size
    | ',' :: rest =>
      match rest with
      | [] => failAt .unclosedCount start size
      | '\x7d' :: rest => return ((← low).1, none, skipLazy rest)
      | rest =>
        let (low, _) ← low
        let (high, rest) ← count size rest
        match rest with
        | '\x7d' :: rest =>
          let rest := skipLazy rest
          if low ≤ high then return (low, some high, rest)
          else failAt .countOrder start (size - rest.length)
        | rest => failAt .unclosedCount start (size - rest.length)
    | '\x7d' :: rest =>
      let (low, _) ← low
      return (low, some low, skipLazy rest)
    | rest =>
      let _ ← low
      failAt .unclosedCount start (size - rest.length)

/-! Groups. -/

inductive Opening where
  | group (flags : Flags)
  | setting (flags : Flags)
  deriving Repr

def isNameChar (c : Char) : Bool :=
  c = '_' || c = '.' || c = '[' || c = ']' || Text.isAlphanumeric c

def groupName (size : Nat) (cs : List Char) : Except Error (List Char) :=
  match cs with
  | [] => failAt .unclosedName size size
  | c :: _ =>
    let start := size - cs.length
    if c = '>' then failAt .emptyName start start
    else if !(c = '_' || Text.isAlphabetic c) then failAt .nameCharacter start (start + 1)
    else
      match cs.dropWhile isNameChar with
      | [] => failAt .unclosedName size size
      | '>' :: rest => .ok rest
      | rest => failAt .nameCharacter (size - rest.length) (size - rest.length + 1)

def Flags.set (flags : Flags) (on : Bool) (c : Char) : Flags :=
  if c = 'i' then { flags with ignoreCase := on }
  else if c = 'm' then { flags with multiLine := on }
  else if c = 's' then { flags with dotAll := on }
  else flags

def flagLetters (size : Nat) (flags : Flags) (on : Bool) (seen : List Char) (minus : Option Nat) :
    List Char → Except Error (Flags × List Char)
  | [] => failAt .endInFlags size size
  | c :: rest =>
    let here := size - (rest.length + 1)
    if c = ':' ∨ c = ')' then
      match minus with
      | some place => failAt .danglingNegation place (place + 1)
      | none => .ok (flags, c :: rest)
    else if seen.contains c then failAt .repeatedFlag here (here + 1)
    else if c = '-' then flagLetters size flags false (c :: seen) (some here) rest
    else if "imsUuRx".toList.contains c then
      flagLetters size (flags.set on c) on (c :: seen) none rest
    else failAt .unknownFlag here (here + 1)

def opening (size start : Nat) (flags : Flags) (cs : List Char) : Except Error (Opening × List Char) :=
  match cs with
  | '?' :: '=' :: _ => failAt .lookAround start (start + 3)
  | '?' :: '!' :: _ => failAt .lookAround start (start + 3)
  | '?' :: '<' :: '=' :: _ => failAt .lookAround start (start + 4)
  | '?' :: '<' :: '!' :: _ => failAt .lookAround start (start + 4)
  | '?' :: 'P' :: '<' :: rest => do return (.group flags, ← groupName size rest)
  | '?' :: '<' :: rest => do return (.group flags, ← groupName size rest)
  | '?' :: rest => do
    if rest.isEmpty then failAt .unclosedGroup start (start + 1)
    else
      let (inner, after) ← flagLetters size flags true [] none rest
      match after with
      | ')' :: after =>
        if rest.head? = some ')' then failAt .nothingToRepeat (start + 1) (start + 1)
        else return (.setting inner, after)
      | after => return (.group inner, after.tail)
  | rest => .ok (.group flags, rest)

/-! The whole pattern. -/

def concat (items : List (Option Node)) : Node :=
  items.foldl (fun after item => match item, after with
    | none, after => after
    | some n, .empty => n
    | some n, after => .seq n after) .empty

def alternatives (earlier : List Node) (items : List (Option Node)) : Node :=
  earlier.foldl (fun later n => .alt n later) (concat items)

def repeatLast (place low : Nat) (high : Option Nat) :
    List (Option Node) → Except Error (List (Option Node))
  | some n :: items => .ok (some (.rounds n low high) :: items)
  | _ => failAt .nothingToRepeat place place

def body (size : Nat) : Nat → Option Nat → Flags → List Node → List (Option Node) → List Char →
    Except Error (Node × List Char)
  | 0, _, _, _, _, _ => failAt .unclosedGroup 0 size
  | fuel + 1, opened, flags, earlier, items, cs =>
    let here := size - cs.length
    match cs with
    | [] =>
      match opened with
      | some start => failAt .unclosedGroup start (start + 1)
      | none => .ok (alternatives earlier items, [])
    | ')' :: rest =>
      match opened with
      | some _ => .ok (alternatives earlier items, rest)
      | none => failAt .unopenedGroup here (here + 1)
    | '|' :: rest => body size fuel opened flags (concat items :: earlier) [] rest
    | '(' :: rest => do
      match ← opening size here flags rest with
      | (.setting flags, rest) => body size fuel opened flags earlier (none :: items) rest
      | (.group inner, rest) => do
        let (node, rest) ← body size fuel (some here) inner [] [] rest
        body size fuel opened flags earlier (some node :: items) rest
    | '[' :: rest => do
      let (s, rest) ← charClass flags size here (2 * size + 2) rest
      body size fuel opened flags earlier (some (.one s) :: items) rest
    | '?' :: rest => do
      body size fuel opened flags earlier (← repeatLast here 0 (some 1) items) (skipLazy rest)
    | '*' :: rest => do
      body size fuel opened flags earlier (← repeatLast here 0 none items) (skipLazy rest)
    | '+' :: rest => do
      body size fuel opened flags earlier (← repeatLast here 1 none items) (skipLazy rest)
    | '\x7b' :: rest => do
      let _ ← repeatLast here 0 none items
      let (low, high, rest) ← counts size here rest
      body size fuel opened flags earlier (← repeatLast here low high items) rest
    | '\\' :: rest => do
      let (atom, rest) ← escape size here rest
      let atom := atom.node flags
      body size fuel opened flags earlier (some atom :: items) rest
    | '.' :: rest =>
      let any := if flags.dotAll then .complement (.union []) else .complement (.range '\n' '\n')
      body size fuel opened flags earlier (some (.one any) :: items) rest
    | '^' :: rest =>
      let a := if flags.multiLine then .lineStart else .textStart
      body size fuel opened flags earlier (some (.anchor a) :: items) rest
    | '$' :: rest =>
      let a := if flags.multiLine then .lineEnd else .textEnd
      body size fuel opened flags earlier (some (.anchor a) :: items) rest
    | c :: rest => body size fuel opened flags earlier (some (.one (literalSet flags c)) :: items) rest

def parse (pattern : String) : Except Error Node := do
  let cs := pattern.toList
  let (node, _) ← body cs.length (cs.length + 1) none {} [] [] cs
  return node

/-! Whether a text holds a match. A node carries a set of places in the text, kept in increasing order,
to the set of places where a match begun at one of them can end. -/

def mergeOne (x : Nat) (more : List Nat → List Nat) : List Nat → List Nat
  | [] => x :: more []
  | y :: ys =>
    if x < y then x :: more (y :: ys)
    else if y < x then y :: mergeOne x more ys
    else x :: more ys

def merge : List Nat → List Nat → List Nat
  | [], ys => ys
  | x :: xs, ys => mergeOne x (merge xs) ys

def wordAt (text : Array Char) (i : Nat) : Bool := text[i]?.any Text.isWordChar

def wordBefore (text : Array Char) (i : Nat) : Bool := i ≠ 0 && wordAt text (i - 1)

def Anchor.holds (text : Array Char) (i : Nat) : Anchor → Bool
  | .textStart => i = 0
  | .textEnd => i = text.size
  | .lineStart => i = 0 || text[i - 1]? = some '\n'
  | .lineEnd => i = text.size || text[i]? = some '\n'
  | .wordEdge => wordBefore text i != wordAt text i
  | .notWordEdge => wordBefore text i == wordAt text i

def repeatUpTo (step : List Nat → List Nat) (places : List Nat) : Nat → List Nat
  | 0 => places
  | count + 1 =>
    let next := merge places (step places)
    if next.length = places.length then places else repeatUpTo step next count

def repeatTimes (step : List Nat → List Nat) (places : List Nat) : Nat → List Nat
  | 0 => places
  | count + 1 => if places.isEmpty then [] else repeatTimes step (step places) count

/-- Where matches that begin at one of the places can end. Rounds without a bound reach everything
they can in as many rounds as there are places. -/
def Node.ends (text : Array Char) : Node → List Nat → List Nat
  | .empty, places => places
  | .one s, places =>
    places.filterMap fun i => if text[i]?.any (fun c => s.contains c) then some (i + 1) else none
  | .anchor a, places => places.filter fun i => a.holds text i
  | .seq a b, places => b.ends text (a.ends text places)
  | .alt a b, places => merge (a.ends text places) (b.ends text places)
  | .rounds inner low high, places =>
    let started := repeatTimes (inner.ends text) places low
    match high with
    | some high => repeatUpTo (inner.ends text) started (high - low)
    | none => repeatUpTo (inner.ends text) started (text.size + 1)

def Node.matches (node : Node) (s : String) : Bool :=
  let text := s.toList.toArray
  !(node.ends text (List.range (text.size + 1))).isEmpty

/-- The part of the syntax above, for a program that runs; named classes, properties of characters, codes of characters
and operations on sets are not in it. -/
@[reducible] def engine : Regex where
  compile pattern := ((parse pattern).mapError (·.message pattern)).map Node.matches

end Conduit.Pattern
