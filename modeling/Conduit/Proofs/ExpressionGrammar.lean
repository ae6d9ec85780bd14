import Conduit.Expression.Parser
import Conduit.Proofs.ExpressionHeights
import Conduit.Proofs.Outcomes

/-! The grammar of expressions as a relation between words and trees, and that reading follows it. The grammar knows of
no levels: what it derives has one tree, and that tree is read unless there are too few levels for it. -/
namespace Conduit.Expression

inductive Selects : List Token → List Segment → Prop where
  | done : Selects [] []
  | property (name : String) {ws : List Token} {ss : List Segment} (later : Selects ws ss) :
      Selects (.dot :: .ident name :: ws) (.key name :: ss)
  | place (n : UInt64) {ws : List Token} {ss : List Segment} (later : Selects ws ss) :
      Selects (.openBracket :: .number (.whole n) :: .closeBracket :: ws) (.index n.toNat :: ss)
  | quoted (name : String) {ws : List Token} {ss : List Segment} (later : Selects ws ss) :
      Selects (.openBracket :: .text name :: .closeBracket :: ws) (.key name :: ss)

inductive Phrase where
  | operand | chain | expression
  deriving DecidableEq, Repr

inductive Derives : Phrase → List Token → Expr → Prop where
  | text (s : String) : Derives .operand [.text s] (.literal (.str s))
  | number (n : Number) : Derives .operand [.number n] (.literal (.num n))
  | yes : Derives .operand [.ident "true"] (.literal (.bool true))
  | no : Derives .operand [.ident "false"] (.literal (.bool false))
  | nothing : Derives .operand [.ident "null"] (.literal .null)
  | stringify {ws : List Token} {e : Expr} (inner : Derives .expression ws e) :
      Derives .operand (.ident "JSON" :: .dot :: .ident "stringify" :: .openParen :: (ws ++ [.closeParen]))
        (.stringify e)
  | parentheses {ws : List Token} {e : Expr} (inner : Derives .expression ws e) :
      Derives .operand (.openParen :: (ws ++ [.closeParen])) e
  | path (root : Namespace) {ws : List Token} {ss : List Segment} (selected : Selects ws ss) :
      Derives .operand (.ident root.name :: ws) (.path ⟨root, ss⟩)
  | first {ws : List Token} {e : Expr} (operand : Derives .operand ws e) : Derives .chain ws e
  | orElse {ws us : List Token} {l r : Expr} (left : Derives .chain ws l) (right : Derives .operand us r) :
      Derives .chain (ws ++ .orElse :: us) (.orElse l r)
  | plain {ws : List Token} {e : Expr} (chain : Derives .chain ws e) : Derives .expression ws e
  | choose {cs ys ns : List Token} {c y n : Expr} (condition : Derives .chain cs c)
      (chosen : Derives .expression ys y) (otherwise : Derives .expression ns n) :
      Derives .expression (cs ++ .question :: (ys ++ .colon :: ns)) (.choose c y n)

def words (toks : Tokens) : List Token := toks.map (·.1)

@[simp] theorem wordsCons (t : Token) (n : Nat) (toks : Tokens) : words ((t, n) :: toks) = t :: words toks := rfl

@[simp] theorem wordsAppend (before after : Tokens) : words (before ++ after) = words before ++ words after :=
  List.map_append

/-! What is read is derived. -/

def Follows (phrase : Phrase) (read : Tokens → Except Error (Expr × Tokens)) : Prop :=
  ∀ toks e rest, read toks = .ok (e, rest) → ∃ taken, toks = taken ++ rest ∧ Derives phrase (words taken) e

theorem segmentsTaken {root : Namespace} {read : List Segment} {toks rest : Tokens} {p : Path}
    (followed : segments root read toks = .ok (p, rest)) :
    ∃ taken ss, toks = taken ++ rest ∧ Selects (words taken) ss ∧ p = ⟨root, read.reverse ++ ss⟩ := by
  fun_induction segments root read toks with
  | case1 read a name b more ih =>
    obtain ⟨taken, ss, rfl, selected, rfl⟩ := ih followed
    exact ⟨(.dot, a) :: (.ident name, b) :: taken, .key name :: ss, rfl, .property name selected, by simp⟩
  | case4 read a b i c more ih =>
    obtain ⟨taken, ss, rfl, selected, rfl⟩ := ih followed
    exact ⟨(.openBracket, a) :: (.number (.whole i), b) :: (.closeBracket, c) :: taken, .index i.toNat :: ss, rfl,
      .place i selected, by simp⟩
  | case8 read a name b c more ih =>
    obtain ⟨taken, ss, rfl, selected, rfl⟩ := ih followed
    exact ⟨(.openBracket, a) :: (.text name, b) :: (.closeBracket, c) :: taken, .key name :: ss, rfl,
      .quoted name selected, by simp⟩
  | case14 =>
    cases followed
    exact ⟨[], [], rfl, .done, by simp⟩
  | _ => cases followed

theorem namespaceNamed {name : String} {root : Namespace} (known : Namespace.ofName? name = some root) :
    name = root.name := by
  have named := List.find?_some known
  exact (decide_eq_true_iff.mp named).symm

theorem primaryFollows {levels : Nat} (inner : Follows .expression (expr levels)) :
    Follows .operand (primary levels) := by
  intro toks e rest read
  unfold primary at read
  split at read
  next => cases read
  next s n more =>
    cases read
    exact ⟨[(.text s, n)], rfl, .text s⟩
  next v n more =>
    cases read
    exact ⟨[(.number v, n)], rfl, .number v⟩
  next n more =>
    obtain ⟨⟨e', after⟩, first, read⟩ := Outcome.bindOk.mp read
    obtain ⟨closed, last, same⟩ := Outcome.bindOk.mp read
    cases same
    obtain ⟨taken, rfl, derived⟩ := inner _ _ _ first
    obtain ⟨m, rfl⟩ := expectTaken last
    exact ⟨(.openParen, n) :: (taken ++ [(.closeParen, m)]), by simp, by simpa using .parentheses derived⟩
  next name n more =>
    split_ifs at read with isTrue isFalse isNull isJson
    · cases read
      exact ⟨[(.ident name, n)], rfl, isTrue ▸ .yes⟩
    · cases read
      exact ⟨[(.ident name, n)], rfl, isFalse ▸ .no⟩
    · cases read
      exact ⟨[(.ident name, n)], rfl, isNull ▸ .nothing⟩
    · obtain ⟨opened, head, read⟩ := Outcome.bindOk.mp read
      obtain ⟨⟨e', after⟩, first, read⟩ := Outcome.bindOk.mp read
      obtain ⟨closed, last, same⟩ := Outcome.bindOk.mp read
      cases same
      obtain ⟨a, b, c, rfl⟩ := stringifyTaken head
      obtain ⟨taken, rfl, derived⟩ := inner _ _ _ first
      obtain ⟨m, rfl⟩ := expectTaken last
      refine ⟨(.ident name, n) :: (.dot, a) :: (.ident "stringify", b) :: (.openParen, c)
        :: (taken ++ [(.closeParen, m)]), by simp, ?_⟩
      simpa [isJson] using .stringify derived
    · split at read
      next => cases read
      next root known =>
        obtain ⟨⟨p, after⟩, followed, same⟩ := Outcome.bindOk.mp read
        cases same
        obtain ⟨taken, ss, rfl, selected, rfl⟩ := segmentsTaken followed
        exact ⟨(.ident name, n) :: taken, rfl, namespaceNamed known ▸ .path root selected⟩
  next => cases read

theorem chainFollows (levels : Nat) (operand : ∀ below < levels, Follows .operand (primary below))
    {before toks rest : Tokens} {left e : Expr} (sofar : Derives .chain (words before) left)
    (read : chain levels left toks = .ok (e, rest)) :
    ∃ taken, toks = taken ++ rest ∧ Derives .chain (words (before ++ taken)) e := by
  induction levels generalizing before toks left with
  | zero =>
    unfold chain at read
    split at read
    · cases read
    · cases read
      exact ⟨[], rfl, by simpa using sofar⟩
  | succ levels ih =>
    unfold chain at read
    split at read
    next n more =>
      obtain ⟨⟨right, after⟩, first, later⟩ := Outcome.bindOk.mp read
      obtain ⟨one, rfl, derived⟩ := operand levels (Nat.lt_succ_self _) _ _ _ first
      have longer : Derives .chain (words (before ++ (.orElse, n) :: one)) (.orElse left right) := by
        simpa using .orElse sofar derived
      obtain ⟨taken, rfl, whole⟩ := ih (fun below less => operand below (Nat.lt_succ_of_lt less)) longer later
      exact ⟨(.orElse, n) :: (one ++ taken), by simp, by simpa using whole⟩
    next =>
      cases read
      exact ⟨[], rfl, by simpa using sofar⟩

theorem choiceFollows {levels : Nat} (inner : Follows .expression (expr levels))
    (operand : ∀ below ≤ levels, Follows .operand (primary below)) : Follows .expression (choice levels) := by
  intro toks e rest read
  rw [choice] at read
  obtain ⟨⟨first, rest₁⟩, one, afterOne⟩ := Outcome.bindOk.mp read
  obtain ⟨⟨condition, rest₂⟩, others, last⟩ := Outcome.bindOk.mp afterOne
  obtain ⟨start, rfl, derived⟩ := operand levels (Nat.le_refl _) _ _ _ one
  obtain ⟨more, rfl, chained⟩ :=
    chainFollows levels (fun below less => operand below (Nat.le_of_lt less)) (.first derived) others
  clear read afterOne
  simp only at last
  split at last
  next n after =>
    obtain ⟨⟨yes, rest₃⟩, second, afterSecond⟩ := Outcome.bindOk.mp last
    obtain ⟨colon, met, afterColon⟩ := Outcome.bindOk.mp afterSecond
    obtain ⟨⟨no, rest₄⟩, third, same⟩ := Outcome.bindOk.mp afterColon
    cases same
    obtain ⟨chosen, rfl, derivedYes⟩ := inner _ _ _ second
    obtain ⟨m, rfl⟩ := expectTaken met
    obtain ⟨otherwise, rfl, derivedNo⟩ := inner _ _ _ third
    refine ⟨start ++ more ++ (.question, n) :: (chosen ++ (.colon, m) :: otherwise), by simp, ?_⟩
    rw [wordsAppend, wordsCons, wordsAppend chosen, wordsCons]
    exact .choose chained derivedYes derivedNo
  next =>
    cases last
    exact ⟨start ++ more, by simp, .plain chained⟩

theorem exprFollows (levels : Nat) : Follows .expression (expr levels) := by
  induction levels using Nat.strongRecOn with
  | ind levels ih =>
    intro toks e rest read
    cases levels with
    | zero => rw [expr] at read; cases read
    | succ levels =>
      rw [expr] at read
      have operand : ∀ below ≤ levels, Follows .operand (primary below) := fun below within =>
        primaryFollows (ih below (Nat.lt_succ_of_le within))
      exact choiceFollows (ih levels (Nat.lt_succ_self _)) operand _ _ _ read

/-! What is derived is read. -/

def Phrase.spare : Phrase → Nat
  | .operand => 1
  | .chain => 1
  | .expression => 0

def Phrase.links : Phrase → List Token
  | .operand => [.dot, .openBracket, .openParen]
  | .chain => [.orElse, .dot, .openBracket, .openParen]
  | .expression => [.question, .orElse, .dot, .openBracket, .openParen]

def Phrase.Stops (phrase : Phrase) (rest : Tokens) : Prop := ∀ t ∈ rest.head?, t.1 ∉ phrase.links

theorem chainOfExpression {rest : Tokens} (stops : Phrase.expression.Stops rest) : Phrase.chain.Stops rest :=
  fun t first member => stops t first (List.mem_cons_of_mem _ member)

theorem operandOfChain {rest : Tokens} (stops : Phrase.chain.Stops rest) : Phrase.operand.Stops rest :=
  fun t first member => stops t first (List.mem_cons_of_mem _ member)

theorem stopsAt {phrase : Phrase} {t : Token} (other : t ∉ phrase.links) (n : Nat) (rest : Tokens) :
    phrase.Stops ((t, n) :: rest) := fun u first => by
  cases first
  exact other

/-- With enough levels the words are read as the tree, and with fewer they are too deep. No phrase needs more levels
than it has words, and only an expression as many. -/
def Takes (phrase : Phrase) (read : Nat → Tokens → Except Error (Expr × Tokens)) (ws : List Token) (e : Expr) : Prop :=
  ∃ need, need + phrase.spare ≤ ws.length ∧ ∀ levels taken rest, words taken = ws → phrase.Stops rest →
    read levels (taken ++ rest) = if need ≤ levels then .ok (e, rest) else .error .tooDeep

theorem wordsEqCons {toks : Tokens} {t : Token} {ws : List Token} (spelled : words toks = t :: ws) :
    ∃ n more, toks = (t, n) :: more ∧ words more = ws := by
  obtain ⟨⟨u, n⟩, more, rfl, rfl, same⟩ := List.map_eq_cons_iff.mp spelled
  exact ⟨n, more, rfl, same⟩

theorem wordsEqAppend {toks : Tokens} {ws us : List Token} (spelled : words toks = ws ++ us) :
    ∃ before after, toks = before ++ after ∧ words before = ws ∧ words after = us :=
  List.map_eq_append_iff.mp spelled

theorem segmentsRead {ws : List Token} {ss : List Segment} (selected : Selects ws ss) (root : Namespace)
    {read : List Segment} {taken rest : Tokens} (spelled : words taken = ws) (stops : Phrase.operand.Stops rest) :
    segments root read (taken ++ rest) = .ok (⟨root, read.reverse ++ ss⟩, rest) := by
  induction selected generalizing read taken with
  | done =>
    cases taken with
    | cons t more => cases spelled
    | nil =>
      cases rest with
      | nil => simp [segments]
      | cons t more =>
        obtain ⟨t, n⟩ := t
        have other := stops _ rfl
        simp only [Phrase.links, List.mem_cons, List.not_mem_nil, or_false, not_or] at other
        cases t <;> simp_all [segments]
  | property name later ih =>
    obtain ⟨a, more₁, rfl, first⟩ := wordsEqCons spelled
    obtain ⟨b, more₂, rfl, others⟩ := wordsEqCons first
    simp [segments, ih others]
  | place n later ih =>
    obtain ⟨a, more₁, rfl, first⟩ := wordsEqCons spelled
    obtain ⟨b, more₂, rfl, second⟩ := wordsEqCons first
    obtain ⟨c, more₃, rfl, others⟩ := wordsEqCons second
    simp [segments, ih others]
  | quoted name later ih =>
    obtain ⟨a, more₁, rfl, first⟩ := wordsEqCons spelled
    obtain ⟨b, more₂, rfl, second⟩ := wordsEqCons first
    obtain ⟨c, more₃, rfl, others⟩ := wordsEqCons second
    simp [segments, ih others]

theorem wordsEqOne {toks : Tokens} {t : Token} (spelled : words toks = [t]) : ∃ n, toks = [(t, n)] := by
  obtain ⟨n, more, rfl, last⟩ := wordsEqCons spelled
  exact ⟨n, by rw [List.map_eq_nil_iff.mp last]⟩

theorem closedRead {ws : List Token} {e : Expr} (inner : Takes .expression expr ws e) (f : Expr → Expr) :
    ∃ need ≤ ws.length, ∀ levels taken rest, words taken = ws ++ [.closeParen] →
      (do
        let (inner, rest) ← expr levels (taken ++ rest)
        return (f inner, ← expect .closeParen rest)) = if need ≤ levels then .ok (f e, rest) else .error .tooDeep := by
  obtain ⟨need, few, read⟩ := inner
  refine ⟨need, few, fun levels taken rest spelled => ?_⟩
  obtain ⟨inside, last, rfl, here, close⟩ := wordsEqAppend spelled
  obtain ⟨n, rfl⟩ := wordsEqOne close
  rw [List.append_assoc, List.singleton_append, read levels inside _ here (stopsAt (by simp [Phrase.links]) n rest)]
  split <;> simp [bind, Except.bind, expect, pure, Except.pure]

/-! One lemma for each kind of phrase. -/

theorem scalarTaken {t : Token} {e : Expr} (read : ∀ levels n rest, primary levels ((t, n) :: rest) = .ok (e, rest)) :
    Takes .operand primary [t] e := by
  refine ⟨0, Nat.le_refl 1, fun levels taken rest spelled _ => ?_⟩
  obtain ⟨n, rfl⟩ := wordsEqOne spelled
  rw [if_pos (Nat.zero_le _)]
  exact read levels n rest

theorem parenthesesTaken {ws : List Token} {e : Expr} (inner : Takes .expression expr ws e) :
    Takes .operand primary (.openParen :: (ws ++ [.closeParen])) e := by
  obtain ⟨need, few, read⟩ := closedRead inner id
  refine ⟨need, by simp [Phrase.spare]; omega, fun levels taken rest spelled _ => ?_⟩
  obtain ⟨n, inside, rfl, here⟩ := wordsEqCons spelled
  refine Eq.trans ?_ (read levels inside rest here)
  rw [List.cons_append, primary]
  rfl

theorem stringifyRead {ws : List Token} {e : Expr} (inner : Takes .expression expr ws e) :
    Takes .operand primary (.ident "JSON" :: .dot :: .ident "stringify" :: .openParen :: (ws ++ [.closeParen]))
      (.stringify e) := by
  obtain ⟨need, few, read⟩ := closedRead inner .stringify
  refine ⟨need, by simp [Phrase.spare]; omega, fun levels taken rest spelled _ => ?_⟩
  obtain ⟨a, more₁, rfl, first⟩ := wordsEqCons spelled
  obtain ⟨b, more₂, rfl, second⟩ := wordsEqCons first
  obtain ⟨c, more₃, rfl, third⟩ := wordsEqCons second
  obtain ⟨d, inside, rfl, here⟩ := wordsEqCons third
  rw [← read levels inside rest here, List.cons_append, primary]
  rfl

theorem pathOperand (root : Namespace) {ws : List Token} {ss : List Segment} (selected : Selects ws ss) (levels : Nat)
    {taken rest : Tokens} (spelled : words taken = .ident root.name :: ws) (stops : Phrase.operand.Stops rest) :
    primary levels (taken ++ rest) = .ok (.path ⟨root, ss⟩, rest) := by
  obtain ⟨n, more, rfl, others⟩ := wordsEqCons spelled
  have followed : segments root [] (more ++ rest) = .ok (⟨root, [] ++ ss⟩, rest) :=
    segmentsRead selected root others stops
  rw [List.cons_append, primary]
  have word : root.name ≠ "true" ∧ root.name ≠ "false" ∧ root.name ≠ "null" ∧ root.name ≠ "JSON" := by
    cases root <;> decide
  simp [word, Namespace.ofName?_name, followed, bind, Except.bind, pure, Except.pure]

theorem pathRead (root : Namespace) {ws : List Token} {ss : List Segment} (selected : Selects ws ss) :
    Takes .operand primary (.ident root.name :: ws) (.path ⟨root, ss⟩) := by
  refine ⟨0, by simp [Phrase.spare], fun levels taken rest spelled stops => ?_⟩
  rw [if_pos (Nat.zero_le _)]
  exact pathOperand root selected levels spelled stops

def operands (levels : Nat) (toks : Tokens) : Except Error (Expr × Tokens) := do
  let (first, rest) ← primary levels toks
  chain levels first rest

theorem choiceOperands (levels : Nat) (toks : Tokens) : choice levels toks = (do
    let (condition, rest) ← operands levels toks
    match rest with
    | (.question, _) :: rest =>
      let (yes, rest) ← expr levels rest
      let (no, rest) ← expr levels (← expect .colon rest)
      return (.choose condition yes no, rest)
    | rest => return (condition, rest)) := by
  rw [choice, operands]
  cases primary levels toks <;> rfl

/-- The words of a chain are read as its tree, and then it goes on with the levels that its operands leave. -/
def Chained (ws : List Token) (e : Expr) : Prop :=
  ∃ need links, links ≤ need ∧ need < ws.length ∧ ∀ levels taken rest, words taken = ws → Phrase.operand.Stops rest →
    operands levels (taken ++ rest) = if need ≤ levels then chain (levels - links) e rest else .error .tooDeep

theorem firstChained {ws : List Token} {e : Expr} (operand : Takes .operand primary ws e) : Chained ws e := by
  obtain ⟨need, few, read⟩ := operand
  refine ⟨need, 0, Nat.zero_le _, few, fun levels taken rest spelled stops => ?_⟩
  rw [operands, read levels taken rest spelled stops]
  split <;> rfl

theorem chainLink (levels n : Nat) (left : Expr) (toks : Tokens) : chain levels left ((.orElse, n) :: toks) =
    (match levels with
    | 0 => .error .tooDeep
    | levels + 1 => do
      let (right, rest) ← primary levels toks
      chain levels (.orElse left right) rest) :=
  chain.eq_def levels left ((.orElse, n) :: toks)

theorem orElseChained {ws us : List Token} {l r : Expr} (left : Chained ws l) (right : Takes .operand primary us r) :
    Chained (ws ++ .orElse :: us) (.orElse l r) := by
  obtain ⟨need, links, within, few, read⟩ := left
  obtain ⟨more, fewRight, operand⟩ := right
  have fewAll : max need (links + 1 + more) < (ws ++ .orElse :: us).length := by
    simp only [Phrase.spare] at fewRight
    simp only [List.length_append, List.length_cons]
    omega
  refine ⟨max need (links + 1 + more), links + 1, by omega, fewAll, fun levels taken rest spelled stops => ?_⟩
  obtain ⟨before, after, rfl, sofar, later⟩ := wordsEqAppend spelled
  obtain ⟨n, others, rfl, last⟩ := wordsEqCons later
  have between : Phrase.operand.Stops ((.orElse, n) :: (others ++ rest)) := stopsAt (by simp [Phrase.links]) n _
  rw [List.append_assoc, List.cons_append, read levels before _ sofar between]
  -- The chain goes on to its next operand one level further down.
  by_cases enough : need ≤ levels
  · rw [if_pos enough, chainLink]
    cases left : levels - links with
    | zero => rw [if_neg (by omega)]
    | succ below =>
      dsimp only
      rw [operand below others rest last stops]
      by_cases fits : more ≤ below
      · rw [if_pos fits, if_pos (by omega), show levels - (links + 1) = below by omega]
        rfl
      · rw [if_neg fits, if_neg (by omega)]
        rfl
  · rw [if_neg enough, if_neg (by omega)]

theorem chainStops {levels : Nat} {e : Expr} {rest : Tokens} (stops : Phrase.chain.Stops rest) :
    chain levels e rest = .ok (e, rest) := by
  unfold chain
  split
  next n more => exact absurd (by simp [Phrase.links]) (stops _ rfl)
  next => rfl

theorem chainTaken {ws : List Token} {e : Expr} (chained : Chained ws e) : Takes .chain operands ws e := by
  obtain ⟨need, links, -, few, read⟩ := chained
  refine ⟨need, few, fun levels taken rest spelled stops => ?_⟩
  rw [read levels taken rest spelled (operandOfChain stops), chainStops stops]

theorem levelsThen {α β : Type} {a b c levels : Nat} {x : α} {y : β} {f : α → Except Error β}
    (later : f x = if b ≤ levels then .ok y else .error .tooDeep) (both : c ≤ levels ↔ a ≤ levels ∧ b ≤ levels) :
    ((if a ≤ levels then .ok x else .error .tooDeep) >>= f) = if c ≤ levels then .ok y else .error .tooDeep := by
  by_cases enough : a ≤ levels
  · simp only [enough, true_and] at both
    rw [if_pos enough, if_congr both rfl rfl, ← later]
    rfl
  · rw [if_neg enough, if_neg fun fits => enough (both.mp fits).1]
    rfl

theorem plainTaken {ws : List Token} {e : Expr} (chained : Chained ws e) : Takes .expression expr ws e := by
  obtain ⟨need, few, read⟩ := chainTaken chained
  refine ⟨need + 1, few, fun levels taken rest spelled stops => ?_⟩
  cases levels with
  | zero => rw [expr, if_neg (by omega)]
  | succ levels =>
    rw [expr, choiceOperands, read levels taken rest spelled (chainOfExpression stops),
      if_congr Nat.succ_le_succ_iff rfl rfl]
    refine levelsThen (b := 0) ?_ (by omega)
    rw [if_pos (Nat.zero_le _)]
    cases rest with
    | nil => rfl
    | cons t more =>
      obtain ⟨t, n⟩ := t
      have other : t ≠ .question := fun same => stops _ rfl (by simp [same, Phrase.links])
      cases t <;> first | rfl | exact absurd rfl other

theorem chooseTaken {cs ys ns : List Token} {c y n : Expr} (condition : Chained cs c)
    (chosen : Takes .expression expr ys y) (otherwise : Takes .expression expr ns n) :
    Takes .expression expr (cs ++ .question :: (ys ++ .colon :: ns)) (.choose c y n) := by
  obtain ⟨need, few, read⟩ := chainTaken condition
  obtain ⟨needYes, fewYes, readYes⟩ := chosen
  obtain ⟨needNo, fewNo, readNo⟩ := otherwise
  have fewAll : max need (max needYes needNo) + 1 ≤ (cs ++ .question :: (ys ++ .colon :: ns)).length := by
    simp only [Phrase.spare, Nat.add_zero] at few fewYes fewNo
    simp only [List.length_append, List.length_cons]
    omega
  refine ⟨max need (max needYes needNo) + 1, fewAll, fun levels taken rest spelled stops => ?_⟩
  obtain ⟨first, others, rfl, spelledFirst, later⟩ := wordsEqAppend spelled
  obtain ⟨a, branches, rfl, both⟩ := wordsEqCons later
  obtain ⟨second, last, rfl, spelledSecond, afterSecond⟩ := wordsEqAppend both
  obtain ⟨b, third, rfl, spelledThird⟩ := wordsEqCons afterSecond
  cases levels with
  | zero => rw [expr, if_neg (by omega)]
  | succ levels =>
    have condition := read levels first ((.question, a) :: (second ++ (.colon, b) :: (third ++ rest))) spelledFirst
      (stopsAt (by simp [Phrase.links]) a _)
    have yes := readYes levels second ((.colon, b) :: (third ++ rest)) spelledSecond
      (stopsAt (by simp [Phrase.links]) b _)
    have no := readNo levels third rest spelledThird stops
    simp only [List.append_assoc, List.cons_append]
    rw [expr, choiceOperands, condition, if_congr Nat.succ_le_succ_iff rfl rfl]
    refine levelsThen (b := max needYes needNo) ?_ (by omega)
    dsimp only
    rw [yes]
    refine levelsThen (b := needNo) ?_ (by omega)
    show (expr levels (third ++ rest) >>= fun read => pure (Expr.choose c y read.1, read.2)) = _
    rw [no]
    exact levelsThen (b := 0) (if_pos (Nat.zero_le _)).symm (by omega)

def Taken : Phrase → List Token → Expr → Prop
  | .operand, ws, e => Takes .operand primary ws e
  | .chain, ws, e => Chained ws e
  | .expression, ws, e => Takes .expression expr ws e

theorem derivedTaken {phrase : Phrase} {ws : List Token} {e : Expr} (derived : Derives phrase ws e) :
    Taken phrase ws e := by
  induction derived with
  | text s => exact scalarTaken fun levels n rest => by rw [primary]
  | number v => exact scalarTaken fun levels n rest => by rw [primary]
  | yes => exact scalarTaken fun levels n rest => by rw [primary]; rfl
  | no => exact scalarTaken fun levels n rest => by rw [primary]; rfl
  | nothing => exact scalarTaken fun levels n rest => by rw [primary]; rfl
  | stringify inner ih => exact stringifyRead ih
  | parentheses inner ih => exact parenthesesTaken ih
  | path root selected => exact pathRead root selected
  | first operand ih => exact firstChained ih
  | orElse left right ihLeft ihRight => exact orElseChained ihLeft ihRight
  | plain chain ih => exact plainTaken ih
  | choose condition chosen otherwise ihCondition ihChosen ihOtherwise =>
    exact chooseTaken ihCondition ihChosen ihOtherwise

theorem derivedOnce {ws : List Token} {e other : Expr} (derived : Derives .expression ws e)
    (again : Derives .expression ws other) : other = e := by
  obtain ⟨need, -, read⟩ := derivedTaken derived
  obtain ⟨more, -, readAgain⟩ := derivedTaken again
  have spelled : words (ws.map (·, 0)) = ws := by simp [words, Function.comp_def]
  have first := read (max need more) _ [] spelled fun t first => by cases first
  have second := readAgain (max need more) _ [] spelled fun t first => by cases first
  rw [if_pos (Nat.le_max_left _ _)] at first
  rw [if_pos (Nat.le_max_right _ _), first] at second
  cases second
  rfl

theorem derivedSome {phrase : Phrase} {ws : List Token} {e : Expr} (derived : Derives phrase ws e) : ws ≠ [] := by
  induction derived with
  | first _ ih => exact ih
  | plain _ ih => exact ih
  | _ => simp

theorem tokensDerived {toks : Tokens} {e : Expr} (read : ofTokens toks = .ok e) :
    Derives .expression (words toks) e := by
  unfold ofTokens at read
  split at read
  next => cases read
  next =>
    obtain ⟨⟨e', rest⟩, inner, last⟩ := Outcome.bindOk.mp read
    obtain ⟨taken, rfl, derived⟩ := exprFollows maxNesting _ _ _ inner
    simp only at last
    split at last
    next =>
      cases last
      rwa [List.append_nil]
    next => cases last

theorem tokensRead {toks : Tokens} {e : Expr} (derived : Derives .expression (words toks) e) :
    (toks.length ≤ maxNesting → ofTokens toks = .ok e) ∧ (ofTokens toks = .ok e ∨ ofTokens toks = .error .tooDeep) := by
  obtain ⟨need, few, read⟩ := derivedTaken derived
  have some : toks.isEmpty = false := by
    cases toks with
    | nil => exact absurd rfl (derivedSome derived)
    | cons t rest => rfl
  have read := read maxNesting toks [] rfl fun t first => by cases first
  rw [List.append_nil] at read
  rw [ofTokens, some, if_neg Bool.false_ne_true, read]
  have few : need ≤ toks.length := by simpa [Phrase.spare, words] using few
  by_cases enough : need ≤ maxNesting
  · rw [if_pos enough]
    exact ⟨fun _ => rfl, .inl rfl⟩
  · rw [if_neg enough]
    exact ⟨fun short => absurd (Nat.le_trans few short) enough, .inr rfl⟩

theorem parsedByGrammar {source : String} {toks : Tokens} (scanned : tokenize source.toList = .ok toks) :
    (∀ e, parse source = .ok e → Derives .expression (words toks) e)
      ∧ ∀ e, Derives .expression (words toks) e →
        (∀ other, Derives .expression (words toks) other → other = e)
          ∧ (toks.length ≤ maxNesting → parse source = .ok e)
          ∧ (parse source = .ok e ∨ parse source = .error .tooDeep) := by
  have same : parse source = ofTokens toks := by
    rw [parse, parseChars, scanned]
    rfl
  rw [same]
  exact ⟨fun e read => tokensDerived read, fun e derived => ⟨fun other again => derivedOnce derived again,
    tokensRead derived⟩⟩

def nestedSource : String := "params.true||null?'x':stage?env[0]:false"

def nestedTokens : Tokens :=
  [(.ident "params", 0), (.dot, 6), (.ident "true", 7), (.orElse, 11), (.ident "null", 13), (.question, 17),
    (.text "x", 18), (.colon, 21), (.ident "stage", 22), (.question, 27), (.ident "env", 28), (.openBracket, 31),
    (.number (.whole 0), 32), (.closeBracket, 33), (.colon, 34), (.ident "false", 35)]

def nestedTree : Expr :=
  .choose (.orElse (.path ⟨.params, [.key "true"]⟩) (.literal .null)) (.literal (.str "x"))
    (.choose (.path ⟨.stage, []⟩) (.path ⟨.env, [.index 0]⟩) (.literal (.bool false)))

theorem nestedDerived : Derives .expression (words nestedTokens) nestedTree :=
  .choose (.orElse (.first (.path .params (.property "true" .done))) .nothing) (.plain (.first (.text "x")))
    (.choose (.first (.path .stage .done)) (.plain (.first (.path .env (.place 0 .done)))) (.plain (.first .no)))

theorem nestedParsed :
    tokenize nestedSource.toList = .ok nestedTokens ∧ parse nestedSource = .ok nestedTree := by
  have scanned : tokenize nestedSource.toList = .ok nestedTokens := by decide +kernel
  exact ⟨scanned, ((parsedByGrammar scanned).2 _ nestedDerived).2.1 (by decide)⟩

end Conduit.Expression
