import Conduit.Expression.Parser
import Conduit.Proofs.Outcomes
import Mathlib.Order.Bounds.Defs

/-! How high the trees of expressions get. A level is given back at the end of what it was taken for, but a chain
goes on to stand above its first operand, and a choice above its condition: so each pair of parentheses gives a tree
almost as many levels more as are left inside of it. Without parentheses no tree has more levels than are allowed. -/
namespace Conduit.Expression

/-- The most levels that a tree can have which is read with `levels` of nesting and no more than `opens`
parentheses. -/
def highest : Nat → Nat → Nat
  | 0, _ => 0
  | 1, _ => 0
  | levels + 2, 0 => levels + 2
  | levels + 2, opens + 1 => highest (levels + 1) opens + (levels + 3)

def highestOperand : Nat → Nat → Nat
  | 0, _ => 0
  | _ + 1, 0 => 0
  | levels + 1, opens + 1 => highest (levels + 1) opens + 1

theorem highestGrows (levels opens : Nat) :
    highest (levels + 1) opens + 1 ≤ highest (levels + 1 + 1) opens
      ∧ highest levels opens ≤ highest levels (opens + 1) := by
  induction levels generalizing opens with
  | zero => cases opens <;> simp [highest]
  | succ levels ih =>
    have wider : highest (levels + 1) opens ≤ highest (levels + 1) (opens + 1) := by
      cases levels with
      | zero => exact Nat.le_refl 0
      | succ levels =>
        cases opens with
        | zero => simp only [highest]; omega
        | succ opens =>
          have inside := (ih opens).2
          simp only [highest]
          omega
    refine ⟨?_, wider⟩
    cases opens with
    | zero => simp only [highest]; omega
    | succ opens =>
      have inside := (ih opens).1
      simp only [highest] at inside ⊢
      omega

theorem highestMono {levels more opens : Nat} (within : opens ≤ more) : highest levels opens ≤ highest levels more := by
  induction within with
  | refl => exact Nat.le_refl _
  | step _ ih => exact Nat.le_trans ih (highestGrows levels _).2

theorem highestDeeper (levels opens : Nat) : highest levels opens ≤ highest (levels + 1) opens := by
  cases levels with
  | zero => exact Nat.zero_le _
  | succ levels => exact Nat.le_of_succ_le (highestGrows levels opens).1

theorem highestOperandMono {levels more opens : Nat} (within : opens ≤ more) :
    highestOperand levels opens ≤ highestOperand levels more := by
  cases levels with
  | zero => exact Nat.le_refl 0
  | succ levels =>
    cases opens with
    | zero => exact Nat.zero_le _
    | succ opens =>
      obtain ⟨more, rfl⟩ : ∃ n, more = n + 1 := ⟨more - 1, by omega⟩
      exact Nat.add_le_add_right (highestMono (Nat.le_of_succ_le_succ within)) 1

theorem highestOperandDeeper (levels opens : Nat) :
    highestOperand levels opens ≤ highestOperand (levels + 1) opens := by
  cases levels with
  | zero => exact Nat.zero_le _
  | succ levels =>
    cases opens with
    | zero => exact Nat.le_refl 0
    | succ opens => exact Nat.add_le_add_right (highestDeeper (levels + 1) opens) 1

theorem highestChoice (levels opens : Nat) :
    highest (levels + 1 + 1) opens = highestOperand (levels + 1) opens + (levels + 1) + 1 := by
  cases opens with
  | zero => simp only [highestOperand, highest]; omega
  | succ opens => simp only [highestOperand, highest]; omega

/-! What is read, and how many parentheses that takes. -/

def opens (toks : Tokens) : Nat := toks.countP (·.1 = .openParen)

theorem opensCons (t : Token) (n : Nat) (toks : Tokens) :
    opens ((t, n) :: toks) = (if t = .openParen then 1 else 0) + opens toks := by
  simp [opens, List.countP_cons, Nat.add_comm]

def Reaches (bound : Nat → Nat) (read : Tokens → Except Error (Expr × Tokens)) : Prop :=
  ∀ toks e rest, read toks = .ok (e, rest) → ∃ taken, opens toks = taken + opens rest ∧ e.height ≤ bound taken

theorem expectTaken {t : Token} {toks rest : Tokens} (met : expect t toks = .ok rest) : ∃ n, toks = (t, n) :: rest := by
  unfold expect at met
  split at met
  next => cases met
  next u n more =>
    split at met
    next same =>
      cases met
      exact ⟨n, by rw [same]⟩
    next => cases met

theorem stringifyTaken {toks rest : Tokens} (met : stringifyHead toks = .ok rest) :
    ∃ a b c, toks = (.dot, a) :: (.ident "stringify", b) :: (.openParen, c) :: rest := by
  obtain ⟨after, dot, member⟩ := Outcome.bindOk.mp met
  obtain ⟨a, rfl⟩ := expectTaken dot
  split at member
  next => cases member
  next t b more =>
    split at member
    next word =>
      obtain ⟨c, rfl⟩ := expectTaken member
      exact ⟨a, b, c, by rw [word]⟩
    next => cases member

theorem expectTakes {t : Token} {toks rest : Tokens} (met : expect t toks = .ok rest) :
    opens toks = (if t = .openParen then 1 else 0) + opens rest := by
  obtain ⟨n, rfl⟩ := expectTaken met
  exact opensCons t n rest

theorem segmentsTake {root : Namespace} {read : List Segment} {toks rest : Tokens} {p : Path}
    (followed : segments root read toks = .ok (p, rest)) : opens toks = opens rest := by
  fun_induction segments root read toks with
  | case1 read n name m more ih => simpa [opensCons] using ih followed
  | case4 read n m i k more ih => simpa [opensCons] using ih followed
  | case8 read n name m k more ih => simpa [opensCons] using ih followed
  | case14 =>
    cases followed
    rfl
  | _ => cases followed

theorem stringifyHeadTakes {toks rest : Tokens} (met : stringifyHead toks = .ok rest) :
    opens toks = 1 + opens rest := by
  obtain ⟨a, b, c, rfl⟩ := stringifyTaken met
  simp [opensCons]

theorem primaryReaches {levels : Nat} (inner : Reaches (highest levels) (expr levels)) :
    Reaches (highestOperand levels) (primary levels) := by
  -- An expression inside of parentheses is read at the same level, so that there is one.
  have wrapped {toks rest : Tokens} {e : Expr} (read : expr levels toks = .ok (e, rest)) :
      ∃ taken, opens toks = taken + opens rest ∧ e.height + 1 ≤ highestOperand levels (taken + 1) := by
    obtain ⟨taken, all, high⟩ := inner _ _ _ read
    cases levels with
    | zero => rw [expr] at read; cases read
    | succ levels => exact ⟨taken, all, Nat.succ_le_succ high⟩
  intro toks e rest read
  unfold primary at read
  split at read
  next => cases read
  next s n more =>
    cases read
    exact ⟨0, by simp [opensCons], Nat.zero_le _⟩
  next v n more =>
    cases read
    exact ⟨0, by simp [opensCons], Nat.zero_le _⟩
  next n more =>
    obtain ⟨⟨e', after⟩, first, read⟩ := Outcome.bindOk.mp read
    obtain ⟨closed, last, same⟩ := Outcome.bindOk.mp read
    cases same
    obtain ⟨taken, all, high⟩ := wrapped first
    have close := expectTakes last
    refine ⟨taken + 1, ?_, Nat.le_of_succ_le high⟩
    simp only [opensCons, all, close, if_true, reduceCtorEq, if_false]
    omega
  next name n more =>
    split_ifs at read
    · cases read
      exact ⟨0, by simp [opensCons], Nat.zero_le _⟩
    · cases read
      exact ⟨0, by simp [opensCons], Nat.zero_le _⟩
    · cases read
      exact ⟨0, by simp [opensCons], Nat.zero_le _⟩
    · obtain ⟨opened, head, read⟩ := Outcome.bindOk.mp read
      obtain ⟨⟨e', after⟩, first, read⟩ := Outcome.bindOk.mp read
      obtain ⟨closed, last, same⟩ := Outcome.bindOk.mp read
      cases same
      obtain ⟨taken, all, high⟩ := wrapped first
      have start := stringifyHeadTakes head
      have close := expectTakes last
      refine ⟨taken + 1, ?_, high⟩
      simp only [opensCons, start, all, close, reduceCtorEq, if_false]
      omega
    · split at read
      next => cases read
      next root known =>
        obtain ⟨⟨p, after⟩, followed, same⟩ := Outcome.bindOk.mp read
        cases same
        exact ⟨0, by simp [opensCons, segmentsTake followed], Nat.zero_le _⟩
  next => cases read

theorem chainReaches (levels : Nat) (operand : ∀ below < levels, Reaches (highestOperand below) (primary below))
    (left : Expr) : Reaches (fun taken => max left.height (highestOperand levels taken) + levels) (chain levels left) := by
  induction levels generalizing left with
  | zero =>
    intro toks e rest read
    unfold chain at read
    split at read
    · cases read
    · cases read
      exact ⟨0, by simp, Nat.le_max_left _ _⟩
  | succ levels ih =>
    intro toks e rest read
    unfold chain at read
    split at read
    next n more =>
      obtain ⟨⟨right, after⟩, first, read⟩ := Outcome.bindOk.mp read
      obtain ⟨taken, one, high⟩ := operand levels (Nat.lt_succ_self _) _ _ _ first
      obtain ⟨others, all, higher⟩ :=
        ih (fun below less => operand below (Nat.lt_succ_of_lt less)) (.orElse left right) _ _ _ read
      refine ⟨taken + others, by simp only [opensCons, one, all]; simp; omega, ?_⟩
      have deeper := highestOperandDeeper levels (taken + others)
      have here : highestOperand levels taken ≤ highestOperand levels (taken + others) :=
        highestOperandMono (Nat.le_add_right _ _)
      have later : highestOperand levels others ≤ highestOperand levels (taken + others) :=
        highestOperandMono (Nat.le_add_left _ _)
      simp only [Expr.height] at higher ⊢
      omega
    next =>
      cases read
      exact ⟨0, by simp, by dsimp only; omega⟩

theorem choiceReaches {levels : Nat} (inner : Reaches (highest levels) (expr levels))
    (operand : ∀ below ≤ levels, Reaches (highestOperand below) (primary below)) :
    Reaches (highest (levels + 1)) (choice levels) := by
  intro toks e rest read
  rw [choice] at read
  obtain ⟨⟨first, rest₁⟩, one, read⟩ := Outcome.bindOk.mp read
  obtain ⟨⟨condition, rest₂⟩, others, read⟩ := Outcome.bindOk.mp read
  obtain ⟨taken₁, all₁, high₁⟩ := operand levels (Nat.le_refl _) _ _ _ one
  obtain ⟨taken₂, all₂, high₂⟩ := chainReaches levels (fun below less => operand below (Nat.le_of_lt less)) first _ _ _ others
  have high : condition.height ≤ highestOperand levels (taken₁ + taken₂) + levels := by
    have here : highestOperand levels taken₁ ≤ highestOperand levels (taken₁ + taken₂) :=
      highestOperandMono (Nat.le_add_right _ _)
    have later : highestOperand levels taken₂ ≤ highestOperand levels (taken₁ + taken₂) :=
      highestOperandMono (Nat.le_add_left _ _)
    dsimp only at high₂
    omega
  simp only at read
  split at read
  next n more =>
    obtain ⟨⟨yes, rest₃⟩, second, read⟩ := Outcome.bindOk.mp read
    obtain ⟨colon, met, read⟩ := Outcome.bindOk.mp read
    obtain ⟨⟨no, rest₄⟩, third, same⟩ := Outcome.bindOk.mp read
    cases same
    obtain ⟨taken₃, all₃, high₃⟩ := inner _ _ _ second
    obtain ⟨taken₄, all₄, high₄⟩ := inner _ _ _ third
    have between := expectTakes met
    cases levels with
    | zero => rw [expr] at second; cases second
    | succ levels =>
      let taken := taken₁ + taken₂ + taken₃ + taken₄
      have all : opens toks = taken + opens rest₄ := by
        simp only [opensCons, reduceCtorEq, if_false] at all₂ between
        omega
      have condition : highestOperand (levels + 1) (taken₁ + taken₂) ≤ highestOperand (levels + 1) taken :=
        highestOperandMono (by omega)
      have yes : highest (levels + 1) taken₃ ≤ highest (levels + 1) taken := highestMono (by omega)
      have no : highest (levels + 1) taken₄ ≤ highest (levels + 1) taken := highestMono (by omega)
      have branch := (highestGrows levels taken).1
      have whole := highestChoice levels taken
      refine ⟨taken, all, ?_⟩
      simp only [Expr.height]
      omega
  next =>
    cases read
    refine ⟨taken₁ + taken₂, by omega, ?_⟩
    cases levels with
    | zero => exact high
    | succ levels =>
      have whole := highestChoice levels (taken₁ + taken₂)
      omega

theorem exprReaches (levels : Nat) : Reaches (highest levels) (expr levels) := by
  induction levels using Nat.strongRecOn with
  | ind levels ih =>
    intro toks e rest read
    cases levels with
    | zero => rw [expr] at read; cases read
    | succ levels =>
      rw [expr] at read
      have operand : ∀ below ≤ levels, Reaches (highestOperand below) (primary below) := fun below within =>
        primaryReaches (ih below (Nat.lt_succ_of_le within))
      exact choiceReaches (ih levels (Nat.lt_succ_self _)) operand _ _ _ read

/-! Characters. Each parenthesis among the tokens is one in the text. -/

theorem stringRestSuffix {quote : Char} {read cs s rest : List Char}
    (found : stringRest quote read cs = some (s, rest)) : rest <:+ cs := by
  fun_induction stringRest quote read cs with
  | case1 => cases found
  | case2 => cases found
  | case3 read c more ih => exact (ih found).trans ((List.suffix_cons _ _).trans (List.suffix_cons _ _))
  | case4 read more =>
    cases found
    exact List.suffix_cons _ _
  | case5 read c more _ _ _ ih => exact (ih found).trans (List.suffix_cons _ _)

theorem openParenOnly {c : Char} (mark : punctuation? c = some .openParen) : c = '(' := by
  unfold punctuation? at mark
  split_ifs at mark <;> first | assumption | cases mark

theorem lexemeTakes {c : Char} {rest after : List Char} {place : Nat} {t : Token}
    (read : lexeme c rest place = .ok (t, after)) : after <:+ rest ∧ (t = .openParen → c = '(') := by
  unfold lexeme at read
  split at read
  next mark =>
    cases read
    exact ⟨List.suffix_refl _, fun same => openParenOnly (same ▸ mark)⟩
  next =>
    split_ifs at read
    · split at read
      · cases read
        exact ⟨List.suffix_cons _ _, fun same => (by cases same)⟩
      · cases read
    · split at read
      next found =>
        cases read
        exact ⟨stringRestSuffix found, fun same => (by cases same)⟩
      next => cases read
    · split at read
      · cases read
        exact ⟨List.dropWhile_suffix _, fun same => (by cases same)⟩
      · cases read
    · cases read
      exact ⟨List.dropWhile_suffix _, fun same => (by cases same)⟩

theorem scanOpens {fuel place : Nat} {cs : List Char} {toks : Tokens} (read : scan fuel place cs = .ok toks) :
    opens toks ≤ cs.count '(' := by
  fun_induction scan fuel place cs generalizing toks with
  | case1 =>
    cases read
    exact Nat.zero_le _
  | case2 =>
    cases read
    exact Nat.zero_le _
  | case3 fuel place c rest blank ih => exact Nat.le_trans (ih read) (List.count_le_count_cons ..)
  | case4 fuel place c rest visible ih =>
    obtain ⟨⟨t, after⟩, first, read⟩ := Outcome.bindOk.mp read
    obtain ⟨others, later, same⟩ := Outcome.bindOk.mp read
    cases same
    obtain ⟨suffix, only⟩ := lexemeTakes first
    have inside : opens others ≤ after.count '(' := ih after later
    have below : after.count '(' ≤ rest.count '(' := suffix.sublist.count_le _
    rw [opensCons, List.count_cons]
    split
    next paren =>
      rw [only paren]
      simp
      omega
    next => omega

theorem parsedWithin {source : String} {e : Expr} (read : parse source = .ok e) :
    e.height ≤ highest maxNesting (source.toList.count '(') := by
  obtain ⟨toks, scanned, read⟩ := Outcome.bindOk.mp read
  unfold ofTokens at read
  split at read
  next => cases read
  next =>
    obtain ⟨⟨e', rest⟩, inner, read⟩ := Outcome.bindOk.mp read
    simp only at read
    split at read
    next =>
      cases read
      obtain ⟨taken, all, high⟩ := exprReaches maxNesting _ _ _ inner
      have counted := scanOpens scanned
      exact Nat.le_trans high (highestMono (by omega))
    next => cases read

/-! Expressions that are as high as can be. -/

def zero : Expr := .literal (.num (.whole 0))

def chainTree (left : Expr) : Nat → Expr
  | 0 => left
  | n + 1 => chainTree (.orElse left zero) n

def chainText : Nat → List Char
  | 0 => []
  | n + 1 => '|' :: '|' :: '0' :: chainText n

/-- A choice, above a chain of all the levels that are left, above the same inside of parentheses. -/
def tallTree : Nat → Nat → Expr
  | 0, _ => zero
  | 1, _ => zero
  | levels + 2, 0 => .choose (chainTree zero (levels + 1)) zero zero
  | levels + 2, opens + 1 => .choose (chainTree (.stringify (tallTree (levels + 1) opens)) (levels + 1)) zero zero

def stringifyText : List Char := "JSON.stringify(".toList

def endText (levels : Nat) : List Char := chainText levels ++ "?0:0".toList

def tallText : Nat → Nat → List Char
  | 0, _ => ['0']
  | 1, _ => ['0']
  | levels + 2, 0 => '0' :: endText (levels + 1)
  | levels + 2, opens + 1 => stringifyText ++ (tallText (levels + 1) opens ++ ')' :: endText (levels + 1))

theorem chainHeight (left : Expr) (n : Nat) : (chainTree left n).height = left.height + n := by
  induction n generalizing left with
  | zero => rfl
  | succ n ih =>
    rw [chainTree, ih]
    simp only [Expr.height, zero]
    omega

theorem tallHeight (levels opens : Nat) : (tallTree levels opens).height = highest levels opens := by
  fun_induction tallTree levels opens with
  | case1 => rfl
  | case2 => rfl
  | case3 levels =>
    simp only [Expr.height, chainHeight, zero, highest]
    omega
  | case4 levels opens ih =>
    simp only [Expr.height, chainHeight, zero, highest, ih]
    omega

theorem endOpens (levels : Nat) : (endText levels).count '(' = 0 := by
  have chain : (chainText levels).count '(' = 0 := by
    induction levels with
    | zero => rfl
    | succ levels ih => simpa [chainText] using ih
  simp [endText, chain]

theorem tallOpens (levels opens : Nat) : (tallText levels opens).count '(' ≤ opens := by
  fun_induction tallText levels opens with
  | case1 => exact Nat.zero_le _
  | case2 => exact Nat.zero_le _
  | case3 levels => simp [endOpens]
  | case4 levels opens ih =>
    have one : stringifyText.count '(' = 1 := by decide
    simp [one, endOpens]
    omega

def Scans (cs : List Char) (told : Tokens → Prop) : Prop :=
  ∀ place fuel, cs.length ≤ fuel → ∃ toks, scan fuel place cs = .ok toks ∧ told toks

theorem lexemeScans (c : Char) (rest : List Char) {after : List Char} {t : Token} {told : Tokens → Prop}
    (visible : Text.isBlank c = false) (read : ∀ place, lexeme c rest place = .ok (t, after)) (later : Scans after told) :
    Scans (c :: rest) fun toks => ∃ place others, toks = (t, place) :: others ∧ told others := by
  intro place fuel enough
  cases fuel with
  | zero => cases enough
  | succ fuel =>
    have shorter : after.length ≤ fuel :=
      Nat.le_trans (lexemeTakes (read place)).1.length_le (Nat.le_of_succ_le_succ enough)
    obtain ⟨others, scanned, holds⟩ := later (place + 1 + (rest.length - after.length)) fuel shorter
    refine ⟨(t, place) :: others, ?_, place, others, rfl, holds⟩
    simp only [scan, visible, Bool.false_eq_true, if_false, read, scanned, bind, Except.bind, pure, Except.pure]

def Quiet (cs : List Char) : Prop := ∀ c ∈ cs.head?, isNumberChar c = false

theorem zeroScans {more : List Char} {told : Tokens → Prop} (quiet : Quiet more) (later : Scans more told) :
    Scans ('0' :: more) fun toks => ∃ place others, toks = (.number (.whole 0), place) :: others ∧ told others := by
  refine lexemeScans _ _ (by decide) (fun place => ?_) later
  have stops : more.takeWhile isNumberChar = [] ∧ more.dropWhile isNumberChar = more := by
    cases more with
    | nil => exact ⟨rfl, rfl⟩
    | cons c rest => simp [List.takeWhile, List.dropWhile, quiet c rfl]
  have number : number? ['0'] = some (.whole 0) := by decide +kernel
  have starts : startsNumber '0' more = true := rfl
  have word : punctuation? '0' = none := by decide
  simp [lexeme, word, starts, stops, number]

theorem stringifyScans {more : List Char} {told : Tokens → Prop} (later : Scans more told) :
    Scans (stringifyText ++ more) fun toks => ∃ a b c d others,
      toks = (.ident "JSON", a) :: (.dot, b) :: (.ident "stringify", c) :: (.openParen, d) :: others ∧ told others := by
  have paren := lexemeScans '(' more (by decide) (fun _ => rfl) later
  have word := lexemeScans 's' ("tringify(".toList ++ more) (t := .ident "stringify") (by decide)
    (fun _ => rfl) paren
  have dot := lexemeScans '.' ("stringify(".toList ++ more) (by decide) (fun _ => rfl) word
  have name := lexemeScans 'J' ("SON.stringify(".toList ++ more) (t := .ident "JSON") (by decide)
    (fun _ => rfl) dot
  intro place fuel enough
  obtain ⟨toks, scanned, a, _, rfl, b, _, rfl, c, _, rfl, d, others, rfl, holds⟩ := name place fuel enough
  exact ⟨_, scanned, a, b, c, d, others, rfl, holds⟩

def Ends (toks : Tokens) : Prop := ∀ t ∈ toks.head?, t.1 ≠ .orElse ∧ t.1 ≠ .question

theorem chainEnds {levels : Nat} {left : Expr} {toks : Tokens} (ends : ∀ t ∈ toks.head?, t.1 ≠ .orElse) :
    chain levels left toks = .ok (left, toks) := by
  unfold chain
  split
  next n more => exact absurd rfl (ends _ rfl)
  next => rfl

theorem zeroOperand (levels n : Nat) (toks : Tokens) :
    primary levels ((.number (.whole 0), n) :: toks) = .ok (zero, toks) := by
  unfold primary
  rfl

theorem chainScans {more : List Char} {told : Tokens → Prop} (quiet : Quiet more) (later : Scans more told) (n : Nat) :
    Quiet (chainText n ++ more) ∧ Scans (chainText n ++ more) fun toks => ∃ rest, told rest ∧
      ((∀ t ∈ rest.head?, t.1 ≠ .orElse) → ∀ left levels, n ≤ levels →
        chain levels left toks = .ok (chainTree left n, rest)) := by
  induction n with
  | zero =>
    refine ⟨quiet, fun place fuel enough => ?_⟩
    obtain ⟨toks, scanned, holds⟩ := later place fuel enough
    exact ⟨toks, scanned, toks, holds, fun ends left levels _ => chainEnds ends⟩
  | succ n ih =>
    obtain ⟨still, others⟩ := ih
    have bar : isNumberChar '|' = false := by decide
    refine ⟨fun c first => (by cases first; exact bar), ?_⟩
    have read := lexemeScans '|' ('|' :: '0' :: (chainText n ++ more)) (by decide) (fun _ => rfl)
      (zeroScans still others)
    intro place fuel enough
    obtain ⟨toks, scanned, a, _, rfl, b, toks, rfl, rest, holds, goes⟩ := read place fuel enough
    refine ⟨_, scanned, rest, holds, fun ends left levels within => ?_⟩
    obtain ⟨levels, rfl⟩ : ∃ m, levels = m + 1 := ⟨levels - 1, by omega⟩
    unfold chain
    simp only [zeroOperand, bind, Except.bind]
    exact goes ends _ levels (Nat.le_of_succ_le_succ within)

theorem operandExpr {levels : Nat} {operand toks rest : Tokens} {first condition : Expr}
    (read : primary levels operand = .ok (first, toks)) (chained : chain levels first toks = .ok (condition, rest))
    (ends : Ends rest) : expr (levels + 1) operand = .ok (condition, rest) := by
  rw [expr, choice]
  simp only [read, chained, bind, Except.bind]
  split
  next n more => exact absurd rfl (ends _ rfl).2
  next => rfl

theorem zeroExpr (levels n : Nat) {toks : Tokens} (ends : Ends toks) :
    expr (levels + 1) ((.number (.whole 0), n) :: toks) = .ok (zero, toks) :=
  operandExpr (zeroOperand levels n toks) (chainEnds fun t first => (ends t first).1) ends

theorem endScans {more : List Char} {told : Tokens → Prop} (quiet : Quiet more) (later : Scans more told)
    (levels : Nat) :
    Quiet (endText (levels + 1) ++ more) ∧ Scans (endText (levels + 1) ++ more) fun toks => ∃ rest, told rest ∧
      (Ends rest → ∀ operand first, primary (levels + 1) operand = .ok (first, toks) →
        expr (levels + 2) operand = .ok (.choose (chainTree first (levels + 1)) zero zero, rest)) := by
  have colon := lexemeScans ':' _ (by decide) (fun _ => rfl) (zeroScans quiet later)
  have beforeColon : Quiet (':' :: '0' :: more) := fun c first => (by cases first; decide)
  have question := lexemeScans '?' _ (by decide) (fun _ => rfl) (zeroScans beforeColon colon)
  have beforeQuestion : Quiet ('?' :: '0' :: ':' :: '0' :: more) := fun c first => (by cases first; decide)
  obtain ⟨still, chained⟩ := chainScans beforeQuestion question (levels + 1)
  have text : endText (levels + 1) ++ more = chainText (levels + 1) ++ '?' :: '0' :: ':' :: '0' :: more := by
    simp [endText]
  rw [text]
  refine ⟨still, fun place fuel enough => ?_⟩
  obtain ⟨toks, scanned, _, ⟨a, _, rfl, b, _, rfl, c, _, rfl, d, rest, rfl, holds⟩, goes⟩ := chained place fuel enough
  refine ⟨toks, scanned, rest, holds, fun ends operand first read => ?_⟩
  have condition := goes (fun t first => by cases first; simp) first (levels + 1) (Nat.le_refl _)
  have yes : expr (levels + 1) ((.number (.whole 0), b) :: (.colon, c) :: (.number (.whole 0), d) :: rest)
      = .ok (zero, (.colon, c) :: (.number (.whole 0), d) :: rest) :=
    zeroExpr levels b fun t first => by cases first; simp
  have no : expr (levels + 1) ((.number (.whole 0), d) :: rest) = .ok (zero, rest) := zeroExpr levels d ends
  rw [expr, choice]
  simp only [read, condition, yes, no, expect, bind, Except.bind, if_true]
  rfl

theorem tallScans (levels opens : Nat) {more : List Char} {told : Tokens → Prop} (quiet : Quiet more)
    (later : Scans more told) : Scans (tallText (levels + 1) opens ++ more) fun toks => ∃ rest, told rest ∧
      (Ends rest → expr (levels + 1) toks = .ok (tallTree (levels + 1) opens, rest)) := by
  induction levels generalizing opens more told with
  | zero =>
    intro place fuel enough
    obtain ⟨toks, scanned, n, rest, rfl, holds⟩ := zeroScans quiet later place fuel enough
    exact ⟨_, scanned, rest, holds, fun ends => zeroExpr 0 n ends⟩
  | succ levels ih =>
    obtain ⟨still, ended⟩ := endScans quiet later levels
    cases opens with
    | zero =>
      intro place fuel enough
      obtain ⟨toks, scanned, n, behind, rfl, rest, holds, goes⟩ := zeroScans still ended place fuel enough
      exact ⟨_, scanned, rest, holds, fun ends => goes ends _ zero (zeroOperand (levels + 1) n behind)⟩
    | succ opens =>
      have paren : Quiet (')' :: (endText (levels + 1) ++ more)) := fun c first => (by cases first; decide)
      have close := lexemeScans ')' _ (by decide) (fun _ => rfl) ended
      have whole := stringifyScans (ih opens paren close)
      have text : tallText (levels + 1 + 1) (opens + 1) ++ more
          = stringifyText ++ (tallText (levels + 1) opens ++ ')' :: (endText (levels + 1) ++ more)) := by
        simp [tallText]
      rw [text]
      intro place fuel enough
      obtain ⟨toks, scanned, a, b, c, d, inside, rfl, _, ⟨e, behind, rfl, rest, holds, goes⟩, inner⟩ :=
        whole place fuel enough
      refine ⟨_, scanned, rest, holds, fun ends => goes ends _ (.stringify (tallTree (levels + 1) opens)) ?_⟩
      have read := inner fun t first => by cases first; simp
      unfold primary
      simp only [stringifyHead, expect, read, bind, Except.bind, if_true]
      rfl

theorem tallParsed (opens : Nat) :
    parse (String.ofList (tallText maxNesting opens)) = .ok (tallTree maxNesting opens) := by
  have none : Scans [] (· = []) := fun place fuel _ => ⟨[], by cases fuel <;> rfl, rfl⟩
  obtain ⟨toks, scanned, _, rfl, read⟩ := tallScans 63 opens (fun c first => by cases first) none 0
    (tallText maxNesting opens).length (by simp [maxNesting])
  have read : expr maxNesting toks = .ok (tallTree maxNesting opens, []) := read fun t first => by cases first
  have some : toks.isEmpty = false := by
    cases toks with
    | nil =>
      rw [maxNesting, expr, choice] at read
      simp [primary, bind, Except.bind] at read
    | cons t rest => rfl
  rw [List.append_nil] at scanned
  have tokens : tokenize (tallText maxNesting opens) = .ok toks := scanned
  rw [parse, String.toList_ofList, parseChars, tokens]
  simp only [bind, Except.bind, ofTokens, some, Bool.false_eq_true, if_false, read]
  rfl

def heights (opens : Nat) : Set Nat :=
  fun height => ∃ source e, parse source = .ok e ∧ source.toList.count '(' ≤ opens ∧ e.height = height

theorem highestOfParentheses (opens : Nat) :
    IsGreatest (heights opens) (highest maxNesting opens)
      ∧ ((∀ source e, parse source = .ok e → source.toList.count '(' ≤ opens → e.height ≤ maxNesting) ↔ opens = 0) := by
  have few : (String.ofList (tallText maxNesting opens)).toList.count '(' ≤ opens := by
    rw [String.toList_ofList]
    exact tallOpens maxNesting opens
  have within {source : String} {e : Expr} (read : parse source = .ok e) (few : source.toList.count '(' ≤ opens) :
      e.height ≤ highest maxNesting opens :=
    Nat.le_trans (parsedWithin read) (highestMono few)
  refine ⟨⟨⟨_, _, tallParsed opens, few, tallHeight maxNesting opens⟩, ?_⟩, fun claimed => ?_, ?_⟩
  · rintro height ⟨source, e, read, few, rfl⟩
    exact within read few
  · have high := claimed _ _ (tallParsed opens) few
    rw [tallHeight] at high
    refine Nat.eq_zero_of_not_pos fun some => ?_
    exact absurd (Nat.le_trans (highestMono some) high) (by decide)
  · rintro rfl source e
    exact within

example : highest maxNesting 1 = 128 ∧ highest maxNesting 2 = 191 ∧ highest maxNesting 63 = 2142
    ∧ highest maxNesting 64 = 2142 := by decide

theorem chainsNested : ¬ ∀ source e, parse source = .ok e → e.height ≤ maxNesting := by
  intro claimed
  have high := claimed _ _ (tallParsed 1)
  rw [tallHeight] at high
  exact absurd high (by decide)

end Conduit.Expression
