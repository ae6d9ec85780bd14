import Conduit.Expression.Syntax
import Conduit.Json.Reader
import Conduit.Text.Class
import Conduit.Basic

/-! The words of an expression. Places are counted in characters. -/
namespace Conduit.Expression

inductive Token where
  | ident (name : String)
  | text (s : String)
  | number (n : Number)
  | dot | openBracket | closeBracket | openParen | closeParen | orElse | question | colon
  deriving DecidableEq, Repr

def Token.describe : Token → String
  | .ident name => s!"identifier '{name}'"
  | .text _ => "string"
  | .number n => "number " ++ String.ofList (Json.numberText n)
  | .dot => "'.'"
  | .openBracket => "'['"
  | .closeBracket => "']'"
  | .openParen => "'('"
  | .closeParen => "')'"
  | .orElse => "'||'"
  | .question => "'?'"
  | .colon => "':'"

inductive Wanted where
  | token (t : Token)
  | stringify | value | property | index | indexOrKey | naturalIndex | expression | finish
  deriving DecidableEq, Repr

def Wanted.describe : Wanted → String
  | .token t => t.describe
  | .stringify => "'stringify'"
  | .value => "a value or path"
  | .property => "a property name"
  | .index => "an index"
  | .indexOrKey => "an index or quoted key"
  | .naturalIndex => "a non-negative integer index"
  | .expression => "an expression"
  | .finish => "end of expression"

def maxNesting : Nat := 64

inductive Error where
  | unexpectedChar (c : Char) (place : Nat)
  | unterminatedString (place : Nat)
  | unexpectedToken (found : Token) (wanted : Wanted) (place : Nat)
  | unexpectedEnd (wanted : Wanted)
  | unknownNamespace (name : String)
  | unsupportedOperator (c : Char) (place : Nat)
  | unsupportedMember (found : Token) (place : Nat)
  | unsupportedCall (path : Path)
  | unterminatedInterpolation (offset : Nat)
  | tooDeep
  deriving DecidableEq, Repr

def Error.message : Error → String
  | .unexpectedChar c n => "unexpected character '" ++ String.singleton c ++ s!"' at {n}"
  | .unterminatedString n => s!"unterminated string starting at {n}"
  | .unexpectedToken found wanted n => s!"unexpected {found.describe} at {n}, expected {wanted.describe}"
  | .unexpectedEnd wanted => s!"unexpected end of expression, expected {wanted.describe}"
  | .unknownNamespace name =>
    s!"unknown namespace '{name}' (expected params, stage, channel, runtime or env)"
  | .unsupportedOperator c n =>
    "unsupported expression: operator '" ++ String.singleton c ++ s!"' at {n}"
  | .unsupportedMember (.ident name) n => s!"unsupported expression: JSON.{name} at {n}"
  | .unsupportedMember found n => s!"unsupported expression: JSON.{found.describe} at {n}"
  | .unsupportedCall path => s!"unsupported expression: function call on path '{path.text}'"
  | .unterminatedInterpolation offset => s!"unterminated '\x7b\x7b' starting at {offset}"
  | .tooDeep => s!"expression nests deeper than {maxNesting} levels"

abbrev Tokens := List (Token × Nat)

/-- The rest of a string after its opening quote. A backslash stands for the character after it, but
for a line break before `n` and a tabulator before `t`. -/
def stringRest (quote : Char) (read : List Char) : List Char → Option (List Char × List Char)
  | [] => none
  | ['\\'] => none
  | '\\' :: c :: rest =>
    stringRest quote ((if c = 'n' then '\n' else if c = 't' then '\t' else c) :: read) rest
  | c :: rest => if c = quote then some (read.reverse, rest) else stringRest quote (c :: read) rest

def isNumberChar (c : Char) : Bool := Json.isDigit c || c = '.'

def startsWord (c : Char) : Bool := Text.isAlphabetic c || c = '_' || c = '$'

def continuesWord (c : Char) : Bool := Text.isAlphanumeric c || c = '_' || c = '$'

def isOperator (c : Char) : Bool := "&=!+*/<>%-".toList.contains c

def punctuation? (c : Char) : Option Token :=
  if c = '.' then some .dot
  else if c = '[' then some .openBracket
  else if c = ']' then some .closeBracket
  else if c = '(' then some .openParen
  else if c = ')' then some .closeParen
  else if c = '?' then some .question
  else if c = ':' then some .colon
  else none

def startsNumber (c : Char) (rest : List Char) : Bool :=
  Json.isDigit c || (c = '-' && rest.head?.any Json.isDigit)

def number? (literal : List Char) : Option Number :=
  match Json.parseChars literal with
  | .ok (.num n) => some n
  | _ => none

def lexeme (c : Char) (rest : List Char) (place : Nat) : Except Error (Token × List Char) :=
  match punctuation? c with
  | some t => .ok (t, rest)
  | none =>
    if c = '|' then
      match rest with
      | '|' :: rest => .ok (.orElse, rest)
      | _ => .error (.unsupportedOperator '|' place)
    else if c = '\'' ∨ c = '"' then
      match stringRest c [] rest with
      | some (s, rest) => .ok (.text (String.ofList s), rest)
      | none => .error (.unterminatedString place)
    else if startsNumber c rest then
      match number? (c :: rest.takeWhile isNumberChar) with
      | some n => .ok (.number n, rest.dropWhile isNumberChar)
      | none => .error (.unexpectedChar c place)
    else if startsWord c then
      .ok (.ident (String.ofList (c :: rest.takeWhile continuesWord)), rest.dropWhile continuesWord)
    else if isOperator c then .error (.unsupportedOperator c place)
    else .error (.unexpectedChar c place)

/-- Tokens with their places. A token has at least one character, so `fuel` is the text's length. -/
def scan : Nat → Nat → List Char → Except Error Tokens
  | _, _, [] => .ok []
  | 0, _, _ => .ok []
  | fuel + 1, place, c :: rest =>
    if Text.isBlank c then scan fuel (place + 1) rest
    else do
      let (token, after) ← lexeme c rest place
      return (token, place) :: (← scan fuel (place + 1 + (rest.length - after.length)) after)

def tokenize (cs : List Char) : Except Error Tokens := scan cs.length 0 cs

/-! Reading an expression:

    expr    := or ( '?' expr ':' expr )?
    or      := primary ( '||' primary )*
    primary := STRING | NUMBER | 'true' | 'false' | 'null'
             | 'JSON' '.' 'stringify' '(' expr ')' | '(' expr ')' | path
    path    := NAMESPACE ( '.' IDENT | '[' NUMBER ']' | '[' STRING ']' )*

`levels` is the nesting still allowed. Entering an expression takes a level, and so does each operand
after a `||`, for as long as the chain lasts. -/

def expect (t : Token) : Tokens → Except Error Tokens
  | [] => .error (.unexpectedEnd (.token t))
  | (u, n) :: rest => if u = t then .ok rest else .error (.unexpectedToken u (.token t) n)

def segments (root : Namespace) (read : List Segment) : Tokens → Except Error (Path × Tokens)
  | (.dot, _) :: (.ident name, _) :: rest => segments root (.key name :: read) rest
  | (.dot, _) :: (t, n) :: _ => .error (.unexpectedToken t .property n)
  | [(.dot, _)] => .error (.unexpectedEnd .property)
  | (.openBracket, _) :: (.number i, n) :: rest =>
    match i with
    | .whole i =>
      match rest with
      | (.closeBracket, _) :: rest => segments root (.index i.toNat :: read) rest
      | (t, n) :: _ => .error (.unexpectedToken t (.token .closeBracket) n)
      | [] => .error (.unexpectedEnd (.token .closeBracket))
    | i => .error (.unexpectedToken (.number i) .naturalIndex n)
  | (.openBracket, _) :: (.text name, _) :: rest =>
    match rest with
    | (.closeBracket, _) :: rest => segments root (.key name :: read) rest
    | (t, n) :: _ => .error (.unexpectedToken t (.token .closeBracket) n)
    | [] => .error (.unexpectedEnd (.token .closeBracket))
  | (.openBracket, _) :: (t, n) :: _ => .error (.unexpectedToken t .indexOrKey n)
  | [(.openBracket, _)] => .error (.unexpectedEnd .index)
  | (.openParen, _) :: _ => .error (.unsupportedCall ⟨root, read.reverse⟩)
  | rest => .ok (⟨root, read.reverse⟩, rest)

def stringifyHead (toks : Tokens) : Except Error Tokens := do
  match ← expect .dot toks with
  | [] => .error (.unexpectedEnd .stringify)
  | (t, n) :: rest =>
    if t = .ident "stringify" then expect .openParen rest else .error (.unsupportedMember t n)

mutual
def expr (levels : Nat) (toks : Tokens) : Except Error (Expr × Tokens) :=
  match levels with
  | 0 => .error .tooDeep
  | levels + 1 => choice levels toks
termination_by 4 * levels

def choice (levels : Nat) (toks : Tokens) : Except Error (Expr × Tokens) := do
  let (first, rest) ← primary levels toks
  let (condition, rest) ← chain levels first rest
  match rest with
  | (.question, _) :: rest =>
    let (yes, rest) ← expr levels rest
    let (no, rest) ← expr levels (← expect .colon rest)
    return (.choose condition yes no, rest)
  | rest => return (condition, rest)
termination_by 4 * levels + 3

def chain (levels : Nat) (left : Expr) (toks : Tokens) : Except Error (Expr × Tokens) :=
  match toks with
  | (.orElse, _) :: rest =>
    match levels with
    | 0 => .error .tooDeep
    | levels + 1 => do
      let (right, rest) ← primary levels rest
      chain levels (.orElse left right) rest
  | rest => .ok (left, rest)
termination_by 4 * levels + 2

def primary (levels : Nat) (toks : Tokens) : Except Error (Expr × Tokens) :=
  match toks with
  | [] => .error (.unexpectedEnd .value)
  | (.text s, _) :: rest => .ok (.literal (.str s), rest)
  | (.number n, _) :: rest => .ok (.literal (.num n), rest)
  | (.openParen, _) :: rest => do
    let (inner, rest) ← expr levels rest
    return (inner, ← expect .closeParen rest)
  | (.ident name, _) :: rest =>
    if name = "true" then .ok (.literal (.bool true), rest)
    else if name = "false" then .ok (.literal (.bool false), rest)
    else if name = "null" then .ok (.literal .null, rest)
    else if name = "JSON" then do
      let (inner, rest) ← expr levels (← stringifyHead rest)
      return (.stringify inner, ← expect .closeParen rest)
    else
      match Namespace.ofName? name with
      | none => .error (.unknownNamespace name)
      | some root => do
        let (path, rest) ← segments root [] rest
        return (.path path, rest)
  | (t, n) :: _ => .error (.unexpectedToken t .value n)
termination_by 4 * levels + 1
end

def ofTokens (toks : Tokens) : Except Error Expr := do
  if toks.isEmpty then .error (.unexpectedEnd .expression)
  else
    let (e, rest) ← expr maxNesting toks
    match rest with
    | [] => return e
    | (t, n) :: _ => .error (.unexpectedToken t .finish n)

def parseChars (cs : List Char) : Except Error Expr := do ofTokens (← tokenize cs)

def parse (source : String) : Except Error Expr := parseChars source.toList

/-! Text with expressions between double braces. -/

inductive Piece where
  | text (chars : List Char)
  | expr (source : List Char)
  deriving DecidableEq, Repr

def findPair (c : Char) : List Char → Option (List Char × List Char)
  | a :: b :: rest =>
    if a = c ∧ b = c then some ([], rest)
    else (findPair c (b :: rest)).map fun found => (a :: found.1, found.2)
  | _ => none

theorem findPair_eq {c : Char} {cs before after : List Char}
    (h : findPair c cs = some (before, after)) : cs = before ++ c :: c :: after := by
  fun_induction findPair c cs generalizing before after with
  | case1 a b rest same => simp_all
  | case2 a b rest different ih =>
    obtain ⟨found, hf, same⟩ := Option.map_eq_some_iff.mp h
    simp only [Prod.mk.injEq] at same
    simp [ih hf, ← same.1, ← same.2]
  | case3 => simp at h

def openBrace : Char := '\x7b'

def closeBrace : Char := '\x7d'

def hasInterpolation (cs : List Char) : Bool := (findPair openBrace cs).isSome

def split (offset : Nat) (cs : List Char) : Except Error (List Piece) :=
  match _h : findPair openBrace cs with
  | none => .ok (if cs.isEmpty then [] else [.text cs])
  | some (before, after) =>
    match _h' : findPair closeBrace after with
    | none => .error (.unterminatedInterpolation (offset + Text.byteCount before))
    | some (source, rest) => do
      let tail ← split (offset + Text.byteCount before + Text.byteCount source + 4) rest
      let here := .expr (Text.trim source) :: tail
      return if before.isEmpty then here else .text before :: here
termination_by cs.length
decreasing_by
  rw [findPair_eq _h, findPair_eq _h']
  simp only [List.length_append, List.length_cons]
  omega

def pieces (cs : List Char) : Except Error (List Piece) := split 0 cs

end Conduit.Expression
