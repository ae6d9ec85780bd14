import Conduit.Pattern
import Conduit.Proofs.JsonText
import Conduit.Proofs.OrderedValues
import Conduit.Proofs.PartedText

/-! A text that is one expression between braces. What the expression comes to is written out and read again, so that a
path to a number, a container, a truth value or `null` keeps its type, on its own or written as JSON. -/
namespace Conduit

/-! The braces. -/

namespace Expression

def lone (source : String) : String := "\x7b\x7b" ++ source ++ "\x7d\x7d"

theorem loneChars (source : String) :
    (lone source).toList = openBrace :: openBrace :: (source.toList ++ [closeBrace, closeBrace]) := by
  simp [lone, String.toList_append, openBrace, closeBrace]

def Unclosed (cs : List Char) : Prop := ¬ [closeBrace, closeBrace] <:+: cs

theorem findPairFirst {c : Char} {cs : List Char} (apart : ¬ [c, c] <:+: cs) (last : cs.getLast? ≠ some c)
    (rest : List Char) : findPair c (cs ++ c :: c :: rest) = some (cs, rest) := by
  refine FirstPair.found ⟨rfl, fun inside => ?_⟩
  rcases List.infix_concat_iff.mp inside with ⟨front, ended⟩ | within
  · have same : front ++ [c] = cs := List.append_cancel_right (by simpa using ended)
    exact last (by simp [← same])
  · exact apart within

theorem loneOpens (source : String) :
    findPair openBrace (lone source).toList = some ([], source.toList ++ [closeBrace, closeBrace]) := by
  rw [loneChars]
  simp [findPair]

theorem lonePieces {source : String} (unclosed : Unclosed source.toList)
    (last : source.toList.getLast? ≠ some closeBrace) :
    pieces (lone source).toList = .ok [.expr (Text.trim source.toList)] := by
  have opens := loneOpens source
  have closes := findPairFirst unclosed last []
  have nothing (offset : Nat) : Expression.split offset [] = .ok [] := by
    rw [Expression.split]
    rfl
  rw [pieces, Expression.split]
  split
  next none => cases opens.symm.trans none
  next before after found =>
    cases opens.symm.trans found
    split
    next none => cases closes.symm.trans none
    next source' rest found' =>
      cases closes.symm.trans found'
      rw [nothing]
      rfl

/-! The source of a path. -/

def Spells (source : String) (p : Path) : Prop :=
  ∃ toks ws, tokenize source.toList = .ok toks ∧ words toks = .ident p.root.name :: ws ∧ Selects ws p.segments

variable {source : String} {p : Path}

theorem Spells.last (spells : Spells source p) : source.toList.getLast? ≠ some closeBrace := by
  obtain ⟨toks, ws, scanned, -, -⟩ := spells
  exact lastNotBrace scanned

theorem parsedScan {cs : List Char} {told : Tokens → Prop} {e : Expr} (scans : Scans cs told)
    (read : ∀ toks, told toks → expr maxNesting toks = .ok (e, [])) : parseChars cs = .ok e := by
  obtain ⟨toks, scanned, holds⟩ := scans 0 cs.length (Nat.le_refl _)
  have inner := read toks holds
  have some : toks.isEmpty = false := by
    cases toks with
    | nil =>
      rw [maxNesting, expr, choice, primary] at inner
      cases inner
    | cons t rest => rfl
  rw [parseChars, tokenize, scanned]
  show ofTokens toks = .ok e
  rw [ofTokens, some, if_neg Bool.false_ne_true, inner]
  rfl

theorem pathExpr {ws : List Token} (selected : Selects ws p.segments) (levels : Nat) {toks rest : Tokens}
    (spelled : words toks = .ident p.root.name :: ws) (stops : Phrase.expression.Stops rest) :
    expr (levels + 1) (toks ++ rest) = .ok (.path p, rest) := by
  refine operandExpr (pathOperand p.root selected levels spelled (operandOfChain (chainOfExpression stops)))
    (chainStops (chainOfExpression stops)) fun t first => ?_
  have other := stops t first
  simp only [Phrase.links, List.mem_cons, not_or] at other
  exact ⟨other.2.1, other.1⟩

theorem Spells.parsed (spells : Spells source p) : parseChars (Text.trim source.toList) = .ok (.path p) := by
  obtain ⟨toks, ws, scanned, spelled, selected⟩ := spells
  refine parsedScan (trimScans scanned) fun others same => ?_
  have ends : Phrase.expression.Stops [] := fun t first => by cases first
  have read := pathExpr selected 63 (same.trans spelled) ends
  rwa [List.append_nil] at read

def stringifySource (source : String) : String := "JSON.stringify(" ++ source ++ ")"

theorem stringifyChars (source : String) :
    (stringifySource source).toList = stringifyText ++ (source.toList ++ [')']) := by
  have close : ")".toList = [')'] := by decide
  rw [stringifySource, String.toList_append, String.toList_append, List.append_assoc]
  rw [close]
  unfold stringifyText
  exact rfl

theorem stringifyTrimmed (source : String) :
    Text.trim (stringifySource source).toList = (stringifySource source).toList := by
  rw [stringifyChars]
  have opens : stringifyText = 'J' :: "SON.stringify(".toList := by decide
  have front : Text.isBlank 'J' = false := by decide
  have back : Text.isBlank ')' = false := by decide
  rw [Text.trim, Text.trimStart, opens, List.cons_append, List.dropWhile_cons_of_neg (by simp [front]), Text.trimEnd]
  simp [back]

theorem unclosedAfter {c : Char} (other : c ≠ closeBrace) {cs : List Char} (unclosed : Unclosed cs) :
    Unclosed (c :: cs) := by
  intro inside
  rcases List.infix_cons_iff.mp inside with first | later
  · exact other (List.cons_prefix_cons.mp first).1.symm
  · exact unclosed later

theorem stringifyUnclosed (unclosed : Unclosed source.toList) : Unclosed (stringifySource source).toList := by
  have ended : Unclosed (source.toList ++ [')']) := by
    intro inside
    rcases List.infix_concat_iff.mp inside with last | within
    · obtain ⟨front, same⟩ := last
      have brace := congrArg List.getLast? same
      simp [closeBrace] at brace
    · exact unclosed within
  have plain : stringifyText.all (fun c => c ≠ closeBrace) = true := by decide
  rw [stringifyChars]
  generalize stringifyText = front at plain
  induction front with
  | nil => exact ended
  | cons c front ih =>
    obtain ⟨here, others⟩ := Bool.and_eq_true_iff.mp plain
    exact unclosedAfter (of_decide_eq_true here) (ih others)

theorem stringifyLast (source : String) : (stringifySource source).toList.getLast? ≠ some closeBrace := by
  simp [stringifyChars, closeBrace]

theorem Spells.stringified (spells : Spells source p) :
    parseChars (Text.trim (stringifySource source).toList) = .ok (.stringify (.path p)) := by
  rw [stringifyTrimmed, stringifyChars]
  obtain ⟨toks, ws, scanned, spelled, selected⟩ := spells
  have scans := stringifyScans (closedScans (scanScans (Nat.le_refl _) scanned))
  refine parsedScan scans ?_
  rintro _ ⟨a, b, c, d, _, rfl, inner, n, rfl, same⟩
  have closes : Phrase.expression.Stops [(.closeParen, n)] := stopsAt (by simp [Phrase.links]) n []
  have read := pathExpr selected 62 (same.trans spelled) closes
  have opened : primary 63 ((.ident "JSON", a) :: (.dot, b) :: (.ident "stringify", c) :: (.openParen, d)
      :: (inner ++ [(.closeParen, n)])) = (expr 63 (inner ++ [(.closeParen, n)]) >>= fun read =>
        expect .closeParen read.2 >>= fun rest => pure (.stringify read.1, rest)) := by
    rw [primary]
    rfl
  rw [read] at opened
  exact operandExpr opened (chainEnds fun t first => by cases first) fun t first => by cases first

end Expression

/-! What is written is read back. -/

namespace Json

theorem typedOpening {v : Json} (typed : Substitution.isTyped v = true) :
    ∃ c rest, v.compactChars = c :: rest ∧ (c = '\x7b' ∨ c = '[' ∨ c = '-' ∨ isDigit c = true) := by
  cases v with
  | num n =>
    obtain ⟨c, rest, text, opening⟩ := numberOpening n
    exact ⟨c, rest, by rw [compactChars, text], .inr (.inr opening)⟩
  | arr items => exact ⟨'[', _, by rw [compactChars]; rfl, .inr (.inl rfl)⟩
  | obj fields => exact ⟨'\x7b', _, by rw [compactChars]; rfl, .inl rfl⟩
  | _ => cases typed

end Json

namespace Substitution

theorem typedLooks {v : Json} (typed : isTyped v = true) : looksTyped v.compactChars = true := by
  obtain ⟨c, rest, text, opening⟩ := Json.typedOpening typed
  have visible : Text.isBlank c = false := by
    rcases opening with rfl | rfl | rfl | digit
    · decide
    · decide
    · decide
    · have bounds : 48 ≤ c.toNat ∧ c.toNat ≤ 57 := by
        simpa [Json.isDigit, Char.le_def, UInt32.le_iff_toNat_le] using digit
      simp [Text.isBlank]
      omega
  have marked : (decide (c = '\x7b') || decide (c = '[') || decide (c = '-') || c.isDigit) = true := by
    rcases opening with rfl | rfl | rfl | digit
    · rfl
    · rfl
    · rfl
    · have same : c.isDigit = Json.isDigit c := rfl
      rw [same, digit, Bool.or_true]
  rw [looksTyped, Text.trimStart, text, List.dropWhile_cons_of_neg (by simp [visible])]
  exact marked

theorem coerceCompact {v : Json} (readable : v.Readable) (other : ∀ s, v ≠ .str s) : coerce v.compact = v := by
  have typedRead (typed : isTyped v = true) : coerce v.compact = v := by
    have read := Json.parseCompact readable
    have word (s : String) {w : Json} (named : Json.parse s = .ok w) (plain : isTyped w = false) : v.compact ≠ s := by
      intro same
      rw [same, named] at read
      cases read
      cases typed.symm.trans plain
    have looks : looksTyped v.compact.toList = true := by
      rw [Json.compact, String.toList_ofList]
      exact typedLooks typed
    rw [coerce, if_neg (word "true" (w := .bool true) rfl rfl), if_neg (word "false" (w := .bool false) rfl rfl),
      if_neg (word "null" (w := .null) rfl rfl), if_pos looks, read]
    exact if_pos typed
  cases v with
  | null => rfl
  | bool b => cases b <;> rfl
  | str s => exact absurd rfl (other s)
  | num n => exact typedRead rfl
  | arr items => exact typedRead rfl
  | obj fields => exact typedRead rfl

theorem renderCompact {v : Json} (other : ∀ s, v ≠ .str s) (some : v ≠ .null) : renderText v = v.compactChars := by
  cases v with
  | str s => exact absurd rfl (other s)
  | null => exact absurd rfl some
  | _ => rfl

variable {c : Context}

theorem loneSubstituted [Regex] {source : String} {e : Expr} (unclosed : Expression.Unclosed source.toList)
    (last : source.toList.getLast? ≠ some Expression.closeBrace)
    (parsed : Expression.parseChars (Text.trim source.toList) = .ok e) (some : e.eval c.scope ≠ .null) (limit : Nat) :
    substitute limit c none (.str (Expression.lone source))
      = ⟨.some (coerce (String.ofList (renderText (e.eval c.scope)))), [], []⟩ := by
  have opens : Expression.hasInterpolation (Expression.lone source).toList = true := by
    rw [Expression.hasInterpolation, Expression.loneOpens, Option.isSome_some]
  have given : (e.eval c.scope).isNull = false := by
    cases value : e.eval c.scope with
    | null => exact absurd value some
    | _ => rfl
  rw [substitute, resolve, if_neg (Nat.not_lt_zero limit)]
  simp only [opens, if_true]
  rw [interpolate, Expression.lonePieces unclosed last]
  simp [renderPieces, renderPiece, expression, parsed, given, Traced.both, Traced.map, Traced.outcome]

theorem loneTyped [Regex] (ordered : c.Ordered) {source : String} {p : Path} (spells : Expression.Spells source p)
    (unclosed : Expression.Unclosed source.toList) {v : Json} (value : (Expr.path p).eval c.scope = v)
    (shallow : v.depth ≤ 127) (other : ∀ s, v ≠ .str s) (limit : Nat) :
    substitute limit c none (.str (Expression.lone (Expression.stringifySource source))) = ⟨some v, [], []⟩
      ∧ (v ≠ .null → substitute limit c none (.str (Expression.lone source)) = ⟨some v, [], []⟩) := by
  have readable : v.Readable := ⟨value ▸ Expr.evalOrdered trivial (Context.scopeOrdered ordered), shallow⟩
  constructor
  · have text : (Expr.stringify (.path p)).eval c.scope = .str v.compact := by rw [Expr.eval, value]
    rw [loneSubstituted (Expression.stringifyUnclosed unclosed) (Expression.stringifyLast source) spells.stringified
      (by rw [text]; exact Json.noConfusion), text, renderText, String.ofList_toList, coerceCompact readable other]
  · intro some
    rw [loneSubstituted unclosed spells.last spells.parsed (by rw [value]; exact some), value, renderCompact other some]
    exact congrArg (fun w => (⟨.some w, [], []⟩ : Outcome)) (coerceCompact readable other)

def mixedList : Json := .arr [.num (.below 0), .str "a\n\x7d\x7d", .bool true, .obj [("x", .null)]]

def listContext : Context where
  params := .obj [("list", mixedList)]

attribute [local instance] Pattern.engine in
theorem listTyped :
    substitute defaultDepth listContext none (.str (Expression.lone "JSON.stringify( params['list'] )"))
        = ⟨some mixedList, [], []⟩
      ∧ substitute defaultDepth listContext none (.str (Expression.lone " params['list'] "))
        = ⟨some mixedList, [], []⟩ := by
  have ordered : listContext.Ordered := ⟨by decide, by decide, by decide, by decide, by decide⟩
  have spells : Expression.Spells " params['list'] " ⟨.params, [.key "list"]⟩ :=
    ⟨[(.ident "params", 1), (.openBracket, 7), (.text "list", 8), (.closeBracket, 14)], _, by decide +kernel, rfl,
      .quoted "list" .done⟩
  have unclosed : Expression.Unclosed " params['list'] ".toList := by
    rw [Expression.Unclosed]
    decide +kernel
  obtain ⟨written, alone⟩ :=
    loneTyped (v := mixedList) ordered spells unclosed rfl (by decide) (fun s => Json.noConfusion) defaultDepth
  exact ⟨written, alone Json.noConfusion⟩

end Substitution

end Conduit
