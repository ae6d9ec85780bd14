import Conduit.Expression.Parser
import Conduit.Proofs.ExpressionGrammar

/-! The words of texts that are put together. A text that no word can run into is scanned on its own, so that blanks
around a source are of no matter, and a source in parentheses has the words that it has alone. -/
namespace Conduit.Expression

def Unquoted (more : List Char) : Prop := ∀ c ∈ more, c ≠ '\'' ∧ c ≠ '"'

structure Trails (more : List Char) : Prop where
  unquoted : Unquoted more
  apart : ∀ c ∈ more.head?, isNumberChar c = false ∧ continuesWord c = false ∧ c ≠ '|'

theorem trailsOne {c : Char} (unquoted : c ≠ '\'' ∧ c ≠ '"')
    (apart : isNumberChar c = false ∧ continuesWord c = false ∧ c ≠ '|') : Trails [c] :=
  ⟨List.forall_mem_singleton.mpr unquoted, fun _ first => Option.some.inj first ▸ apart⟩

theorem takeWhileApart {p : Char → Bool} {more : List Char} (stops : ∀ c ∈ more.head?, p c = false) (cs : List Char) :
    (cs ++ more).takeWhile p = cs.takeWhile p ∧ (cs ++ more).dropWhile p = cs.dropWhile p ++ more := by
  induction cs with
  | nil =>
    cases more with
    | nil => exact ⟨rfl, rfl⟩
    | cons c rest => simp [stops c rfl]
  | cons c cs ih =>
    by_cases holds : p c = true
    · simp [holds, ih]
    · simp [holds]

/-! Strings. -/

theorem stringRestPlain {quote c : Char} (plain : c ≠ '\\') (read rest : List Char) : stringRest quote read (c :: rest)
    = if c = quote then some (read.reverse, rest) else stringRest quote (c :: read) rest := by
  rw [stringRest]
  · exact fun same => absurd same plain
  · exact fun _ _ same => absurd same plain

theorem stringRestNone {quote : Char} (mark : quote = '\'' ∨ quote = '"') {more : List Char} (unquoted : Unquoted more)
    (read : List Char) : stringRest quote read more = none := by
  fun_induction stringRest quote read more with
  | case1 => rfl
  | case2 => rfl
  | case3 read c rest ih => exact ih fun d member => unquoted d (by simp [member])
  | case4 read rest _ =>
    obtain ⟨single, double⟩ := unquoted quote List.mem_cons_self
    exact absurd mark (by simp [single, double])
  | case5 read c rest _ _ _ ih => exact ih fun d member => unquoted d (List.mem_cons_of_mem _ member)

theorem stringRestAppend {quote : Char} (mark : quote = '\'' ∨ quote = '"') {more : List Char}
    (unquoted : Unquoted more) (read cs : List Char) :
    stringRest quote read (cs ++ more) = (stringRest quote read cs).map fun r => (r.1, r.2 ++ more) := by
  fun_induction stringRest quote read cs with
  | case1 read => exact stringRestNone mark unquoted read
  | case2 read =>
    cases more with
    | nil => rfl
    | cons c rest => exact stringRestNone mark (fun d member => unquoted d (List.mem_cons_of_mem _ member)) _
  | case3 read c rest ih => exact ih
  | case4 read rest =>
    have plain : quote ≠ '\\' := by rcases mark with rfl | rfl <;> decide
    rw [List.cons_append, stringRestPlain plain, if_pos rfl]
    rfl
  | case5 read c rest alone paired other ih =>
    have plain : c ≠ '\\' := by
      intro same
      cases rest with
      | nil => exact alone same rfl
      | cons d rest => exact paired d rest same rfl
    rw [List.cons_append, stringRestPlain plain, if_neg other]
    exact ih

/-! Words. -/

section

variable {more : List Char} (trails : Trails more)
include trails

theorem startsNumberAppend (c : Char) (rest : List Char) : startsNumber c (rest ++ more) = startsNumber c rest := by
  cases rest with
  | cons d rest => rfl
  | nil =>
    cases more with
    | nil => rfl
    | cons d more =>
      have apart := (trails.apart d rfl).1
      simp only [isNumberChar, Bool.or_eq_false_iff] at apart
      simp [startsNumber, apart.1]

theorem orElseAppend (rest : List Char) (place : Nat) :
    (match rest ++ more with
      | '|' :: rest => (.ok (.orElse, rest) : Except Error (Token × List Char))
      | _ => .error (.unsupportedOperator '|' place))
    = (match rest with
      | '|' :: rest => .ok (.orElse, rest)
      | _ => .error (.unsupportedOperator '|' place) : Except Error (Token × List Char)).map
        fun r => (r.1, r.2 ++ more) := by
  cases rest with
  | nil =>
    cases more with
    | nil => rfl
    | cons d more =>
      have other := (trails.apart d rfl).2.2
      simp [Except.map, other]
  | cons d rest =>
    by_cases bar : d = '|'
    · subst bar
      rfl
    · simp [Except.map, bar]

theorem lexemeAppend (c : Char) (rest : List Char) (place : Nat) :
    lexeme c (rest ++ more) place = (lexeme c rest place).map fun r => (r.1, r.2 ++ more) := by
  obtain ⟨digits, afterDigits⟩ := takeWhileApart (fun c first => (trails.apart c first).1) rest
  obtain ⟨word, afterWord⟩ := takeWhileApart (fun c first => (trails.apart c first).2.1) rest
  unfold lexeme
  rw [startsNumberAppend trails, digits, afterDigits, word, afterWord]
  split
  · rfl
  · split_ifs with bar quoted
    · exact orElseAppend trails rest place
    · rw [stringRestAppend quoted trails.unquoted]
      cases stringRest c [] rest <;> rfl
    · cases number? (c :: rest.takeWhile isNumberChar) <;> rfl
    · rfl
    · rfl
    · rfl

end

theorem lexemePlace {c : Char} {rest : List Char} {place : Nat} {r : Token × List Char}
    (read : lexeme c rest place = .ok r) (other : Nat) : lexeme c rest other = .ok r := by
  have same : (lexeme c rest place).toOption = (lexeme c rest other).toOption := by
    unfold lexeme
    split
    · rfl
    · split_ifs
      · split <;> rfl
      · cases stringRest c [] rest <;> rfl
      · cases number? (c :: rest.takeWhile isNumberChar) <;> rfl
      · rfl
      · rfl
      · rfl
  rw [read] at same
  cases there : lexeme c rest other with
  | error e => rw [there] at same; cases same
  | ok r' => rw [there] at same; cases same; rfl

theorem scanFuel {fuel : Nat} {cs : List Char} (enough : cs.length ≤ fuel) (place : Nat) :
    scan fuel place cs = scan cs.length place cs := by
  suffices same : ∀ fuel other : Nat, cs.length ≤ fuel → cs.length ≤ other → ∀ place,
      scan fuel place cs = scan other place cs from same _ _ enough (Nat.le_refl _) place
  clear enough fuel place
  intro fuel other enough within place
  induction fuel generalizing other cs place with
  | zero =>
    rw [List.eq_nil_of_length_eq_zero (Nat.le_zero.mp enough)]
    cases other <;> rfl
  | succ fuel ih =>
    cases cs with
    | nil => cases other <;> rfl
    | cons c rest =>
      cases other with
      | zero => cases within
      | succ other =>
        have shorter := Nat.le_of_succ_le_succ enough
        have shorter' := Nat.le_of_succ_le_succ within
        rw [scan, scan]
        split
        · exact ih other shorter shorter' _
        · cases read : lexeme c rest place with
          | error e => rfl
          | ok r =>
            have less := (lexemeTakes read).1.length_le
            have later := ih other (Nat.le_trans less shorter) (Nat.le_trans less shorter')
              (place + 1 + (rest.length - r.2.length))
            simp only [bind, Except.bind, later]

theorem scanAppend {more : List Char} (trails : Trails more) {fuel : Nat} {cs : List Char}
    (enough : (cs ++ more).length ≤ fuel) (place : Nat) :
    scan fuel place (cs ++ more) = (do
      let toks ← scan fuel place cs
      let others ← scan more.length (place + cs.length) more
      return toks ++ others) := by
  induction fuel generalizing cs place with
  | zero =>
    obtain ⟨rfl, rfl⟩ := List.append_eq_nil_iff.mp (List.eq_nil_of_length_eq_zero (Nat.le_zero.mp enough))
    rfl
  | succ fuel ih =>
    cases cs with
    | nil =>
      rw [List.nil_append] at enough ⊢
      rw [scanFuel enough]
      cases scan more.length place more <;> rfl
    | cons c rest =>
      have shorter : (rest ++ more).length ≤ fuel := Nat.le_of_succ_le_succ enough
      rw [List.cons_append, scan, scan]
      split
      · rw [ih shorter, show place + 1 + rest.length = place + (c :: rest).length by simp; omega]
      · rw [lexemeAppend trails]
        cases read : lexeme c rest place with
        | error e => rfl
        | ok r =>
          obtain ⟨t, after⟩ := r
          have less := (lexemeTakes read).1.length_le
          have later : (after ++ more).length ≤ fuel := by
            rw [List.length_append] at shorter ⊢
            omega
          have reached : (rest ++ more).length - (after ++ more).length = rest.length - after.length := by
            rw [List.length_append, List.length_append]
            omega
          have stands : place + 1 + (rest.length - after.length) + after.length = place + (c :: rest).length := by
            rw [List.length_cons]
            omega
          simp only [Except.map, bind, Except.bind, pure, Except.pure, reached]
          rw [ih later]
          simp only [stands, bind, Except.bind, pure, Except.pure]
          cases scan fuel (place + 1 + (rest.length - after.length)) after with
          | error e => rfl
          | ok toks => cases scan more.length (place + (c :: rest).length) more <;> rfl

/-! Blanks. -/

theorem scanBlanks {blanks : List Char} (all : ∀ c ∈ blanks, Text.isBlank c = true) (fuel place : Nat)
    (cs : List Char) : scan (blanks.length + fuel) place (blanks ++ cs) = scan fuel (place + blanks.length) cs := by
  induction blanks generalizing place with
  | nil => rw [List.length_nil, Nat.zero_add, List.nil_append, Nat.add_zero]
  | cons b blanks ih =>
    obtain ⟨here, others⟩ := List.forall_mem_cons.mp all
    rw [List.length_cons, Nat.succ_add, List.cons_append, scan, if_pos here, ih others, Nat.add_assoc, Nat.add_comm 1]

def blankCodes : List Nat :=
  [9, 10, 11, 12, 13, 32, 0x85, 0xA0, 0x1680, 0x2000, 0x2001, 0x2002, 0x2003, 0x2004, 0x2005, 0x2006, 0x2007, 0x2008,
    0x2009, 0x200A, 0x2028, 0x2029, 0x202F, 0x205F, 0x3000]

theorem blankCode {c : Char} (blank : Text.isBlank c = true) : c.toNat ∈ blankCodes := by
  simp only [Text.isBlank, Bool.or_eq_true, Bool.and_eq_true, decide_eq_true_eq] at blank
  simp only [blankCodes, List.mem_cons, List.not_mem_nil, or_false]
  omega

theorem blankTrails {blanks : List Char} (all : ∀ c ∈ blanks, Text.isBlank c = true) : Trails blanks := by
  have codes : ∀ n ∈ blankCodes, let c := Char.ofNat n
      (c ≠ '\'' ∧ c ≠ '"') ∧ isNumberChar c = false ∧ continuesWord c = false ∧ c ≠ '|' := by decide +kernel
  have apart (c : Char) (blank : Text.isBlank c = true) :
      (c ≠ '\'' ∧ c ≠ '"') ∧ isNumberChar c = false ∧ continuesWord c = false ∧ c ≠ '|' := by
    simpa only [Char.ofNat_toNat] using codes c.toNat (blankCode blank)
  exact ⟨fun c member => (apart c (all c member)).1, fun c first => (apart c (all c (List.mem_of_head? first))).2⟩

theorem scanScans {fuel place : Nat} {cs : List Char} {toks : Tokens} (enough : cs.length ≤ fuel)
    (read : scan fuel place cs = .ok toks) : Scans cs fun others => words others = words toks := by
  induction fuel generalizing place cs toks with
  | zero =>
    cases List.eq_nil_of_length_eq_zero (Nat.le_zero.mp enough)
    cases read
    exact fun place fuel _ => ⟨[], by cases fuel <;> rfl, rfl⟩
  | succ fuel ih =>
    cases cs with
    | nil =>
      cases read
      exact fun place fuel _ => ⟨[], by cases fuel <;> rfl, rfl⟩
    | cons c rest =>
      have shorter := Nat.le_of_succ_le_succ enough
      rw [scan] at read
      split at read
      next blank =>
        have later := ih shorter read
        intro place fuel enough
        cases fuel with
        | zero => cases enough
        | succ fuel =>
          obtain ⟨others, scanned, same⟩ := later (place + 1) fuel (Nat.le_of_succ_le_succ enough)
          exact ⟨others, by rw [scan, if_pos blank, scanned], same⟩
      next visible =>
        obtain ⟨⟨t, after⟩, first, read⟩ := Outcome.bindOk.mp read
        obtain ⟨others, later, same⟩ := Outcome.bindOk.mp read
        cases same
        have less := (lexemeTakes first).1.length_le
        have scans := lexemeScans c rest ((Bool.not_eq_true _).mp visible) (lexemePlace first)
          (ih (Nat.le_trans less shorter) later)
        intro place fuel enough
        obtain ⟨toks, scanned, n, more, rfl, same⟩ := scans place fuel enough
        exact ⟨_, scanned, congrArg (t :: ·) same⟩

theorem scanTail {fuel place : Nat} {cs blanks : List Char} (all : ∀ c ∈ blanks, Text.isBlank c = true)
    (enough : (cs ++ blanks).length ≤ fuel) : scan fuel place (cs ++ blanks) = scan fuel place cs := by
  have nothing (place : Nat) : scan blanks.length place blanks = .ok [] := by
    simpa [scan] using scanBlanks all 0 place []
  rw [scanAppend (blankTrails all) enough]
  simp only [nothing, bind, Except.bind, pure, Except.pure, List.append_nil]
  cases scan fuel place cs <;> rfl

theorem trimParts (cs : List Char) : ∃ before after, cs = before ++ (Text.trim cs ++ after)
    ∧ (∀ c ∈ before, Text.isBlank c = true) ∧ ∀ c ∈ after, Text.isBlank c = true := by
  refine ⟨cs.takeWhile Text.isBlank, ((Text.trimStart cs).reverse.takeWhile Text.isBlank).reverse, ?_, ?_, ?_⟩
  · rw [Text.trim, Text.trimEnd, ← List.reverse_append, List.takeWhile_append_dropWhile, List.reverse_reverse,
      Text.trimStart, List.takeWhile_append_dropWhile]
  · exact List.all_eq_true.mp List.all_takeWhile
  · exact fun c member => List.all_eq_true.mp List.all_takeWhile c (List.mem_reverse.mp member)

theorem trimScans {cs : List Char} {toks : Tokens} (read : tokenize cs = .ok toks) :
    Scans (Text.trim cs) fun others => words others = words toks := by
  obtain ⟨before, after, whole, front, back⟩ := trimParts cs
  generalize Text.trim cs = core at whole
  subst whole
  rw [tokenize, List.length_append, scanBlanks front, scanTail back (Nat.le_refl _)] at read
  exact scanScans (by simp) read

theorem closedScans {cs : List Char} {told : Tokens → Prop} (scans : Scans cs told) :
    Scans (cs ++ [')']) fun toks => ∃ inner n, toks = inner ++ [(.closeParen, n)] ∧ told inner := by
  have trails : Trails [')'] := trailsOne (by decide) (by decide)
  intro place fuel enough
  have shorter : cs.length ≤ fuel := by
    rw [List.length_append] at enough
    omega
  obtain ⟨toks, scanned, holds⟩ := scans place fuel shorter
  refine ⟨_, ?_, toks, place + cs.length, rfl, holds⟩
  rw [scanAppend trails enough, scanned]
  rfl

theorem lastNotBrace {cs : List Char} {toks : Tokens} (read : tokenize cs = .ok toks) :
    cs.getLast? ≠ some closeBrace := by
  have trails : Trails [closeBrace] := trailsOne (by decide) (by decide)
  intro last
  obtain ⟨front, rfl⟩ := List.getLast?_eq_some_iff.mp last
  rw [tokenize, scanAppend trails (Nat.le_refl _)] at read
  obtain ⟨before, -, read⟩ := Outcome.bindOk.mp read
  obtain ⟨others, brace, -⟩ := Outcome.bindOk.mp read
  cases brace

end Conduit.Expression
