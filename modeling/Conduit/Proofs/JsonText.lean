import Conduit.Proofs.NumberText
import Conduit.Proofs.SortedJson
import Mathlib.Data.List.DropRight

/-! JSON text that is written and read again. The writers differ in the blanks they leave, which the reader
passes over; what it then finds is the value, if its objects are ordered and it is not too deep. -/
namespace Conduit.Json

/-! Text in quotes. -/

theorem hexControl : ∀ n < 32, hex4? '0' '0' (hexDigit (n / 16)) (hexDigit (n % 16)) = some n := by decide

theorem escapeRead (c : Char) (read rest : List Char) :
    stringRest read (escape c ++ rest) = stringRest (c :: read) rest := by
  unfold escape
  split_ifs with quote back line feed tab eight twelve control
  · subst quote
    simp [stringRest, simpleEscape?]
  · subst back
    simp [stringRest, simpleEscape?]
  · subst line
    simp [stringRest, simpleEscape?]
  · subst feed
    simp [stringRest, simpleEscape?]
  · subst tab
    simp [stringRest, simpleEscape?]
  · obtain rfl : c = Char.ofNat 8 := by rw [← eight, Char.ofNat_toNat]
    simp [stringRest, simpleEscape?]
  · obtain rfl : c = Char.ofNat 12 := by rw [← twelve, Char.ofNat_toNat]
    simp [stringRest, simpleEscape?]
  · have same := hexControl c.toNat control
    have plain : isTailSurrogate c.toNat = false ∧ isLeadSurrogate c.toNat = false := by
      simp only [isTailSurrogate, isLeadSurrogate, Bool.and_eq_false_iff, decide_eq_false_iff_not]
      omega
    simp [stringRest, same, plain]
  · rw [List.singleton_append, stringRest]
    · rw [if_neg control]
    · exact quote
    all_goals
      intros
      exact back ‹_›

theorem stringRead (s read rest : List Char) :
    stringRest read (s.flatMap escape ++ '"' :: rest) = .ok (read.reverse ++ s, rest) := by
  induction s generalizing read with
  | nil => simp [stringRest]
  | cons c s ih =>
    rw [List.flatMap_cons, List.append_assoc, escapeRead, ih]
    simp

/-! Values. -/

structure Spacing where
  gap : Nat → List Char
  after : List Char
  gapBlank : ∀ n, ∀ c ∈ gap n, isBlank c = true
  afterBlank : ∀ c ∈ after, isBlank c = true

def Spacing.compact : Spacing := ⟨fun _ => [], [], by simp, by simp⟩

def Spacing.pretty : Spacing where
  gap := newline
  after := [' ']
  gapBlank n c member := by
    rcases List.mem_cons.mp member with rfl | member
    · rfl
    · rw [List.eq_of_mem_replicate member]
      rfl
  afterBlank := by simp [isBlank]

mutual
def spread (s : Spacing) (indent : Nat) : Json → List Char
  | .arr [] => ['[', ']']
  | .arr (v :: rest) =>
    '[' :: (s.gap (indent + 1) ++ (spread s (indent + 1) v ++ (spreadItems s (indent + 1) rest
      ++ (s.gap indent ++ [']']))))
  | .obj [] => ['\x7b', '\x7d']
  | .obj ((k, v) :: rest) =>
    '\x7b' :: (s.gap (indent + 1) ++ (quote k ++ ':' :: (s.after ++ (spread s (indent + 1) v
      ++ (spreadFields s (indent + 1) rest ++ (s.gap indent ++ ['\x7d']))))))
  | .null => ['n', 'u', 'l', 'l']
  | .bool true => ['t', 'r', 'u', 'e']
  | .bool false => ['f', 'a', 'l', 's', 'e']
  | .num n => numberText n
  | .str s => quote s
def spreadItems (s : Spacing) (indent : Nat) : List Json → List Char
  | [] => []
  | v :: rest => ',' :: (s.gap indent ++ (spread s indent v ++ spreadItems s indent rest))
def spreadFields (s : Spacing) (indent : Nat) : List (String × Json) → List Char
  | [] => []
  | (k, v) :: rest =>
    ',' :: (s.gap indent ++ (quote k ++ ':' :: (s.after ++ (spread s indent v ++ spreadFields s indent rest))))
end

mutual
theorem spreadPretty (indent : Nat) : (v : Json) → spread .pretty indent v = prettyChars indent v
  | .arr [] => by simp only [spread, prettyChars]
  | .arr (v :: rest) => by
    simp only [spread, prettyChars, spreadPretty, spreadPrettyItems, List.cons_append, List.append_assoc]
    rfl
  | .obj [] => by simp only [spread, prettyChars]
  | .obj ((k, v) :: rest) => by
    simp only [spread, prettyChars, spreadPretty, spreadPrettyFields, List.cons_append, List.append_assoc]
    rfl
  | .null => by simp only [spread, prettyChars]
  | .bool true => by simp only [spread, prettyChars]
  | .bool false => by simp only [spread, prettyChars]
  | .num n => by simp only [spread, prettyChars]
  | .str s => by simp only [spread, prettyChars]
theorem spreadPrettyItems (indent : Nat) : (vs : List Json) →
    spreadItems .pretty indent vs = prettyItems indent vs
  | [] => by simp only [spreadItems, prettyItems]
  | v :: rest => by
    simp only [spreadItems, prettyItems, spreadPretty, spreadPrettyItems, List.cons_append, List.append_assoc]
    rfl
theorem spreadPrettyFields (indent : Nat) : (fs : List (String × Json)) →
    spreadFields .pretty indent fs = prettyFields indent fs
  | [] => by simp only [spreadFields, prettyFields]
  | (k, v) :: rest => by
    simp only [spreadFields, prettyFields, spreadPretty, spreadPrettyFields, List.cons_append,
      List.append_assoc]
    rfl
end

mutual
theorem spreadCompact (indent : Nat) : (v : Json) → spread .compact indent v = compactChars v
  | .arr [] => by
    simp only [spread, compactChars, compactItems]
    rfl
  | .arr (v :: rest) => by
    simp only [spread, compactChars, spreadCompact, compactItemsCons (indent + 1) rest, List.append_assoc,
      List.cons_append]
    rfl
  | .obj [] => by
    simp only [spread, compactChars, compactFields]
    rfl
  | .obj ((k, v) :: rest) => by
    simp only [spread, compactChars, spreadCompact, compactFieldsCons (indent + 1) rest, List.append_assoc,
      List.cons_append]
    rfl
  | .null => by simp only [spread, compactChars]
  | .bool true => by simp only [spread, compactChars]
  | .bool false => by simp only [spread, compactChars]
  | .num n => by simp only [spread, compactChars]
  | .str s => by simp only [spread, compactChars]
theorem compactItemsCons (indent : Nat) : (rest : List Json) → {v : Json} →
    compactItems (v :: rest) = compactChars v ++ spreadItems .compact indent rest
  | [], v => by simp only [compactItems, spreadItems, List.append_nil]
  | w :: rest, v => by
    simp only [compactItems, spreadItems, compactItemsCons indent rest, spreadCompact]
    rfl
theorem compactFieldsCons (indent : Nat) : (rest : List (String × Json)) → {k : String} → {v : Json} →
    compactFields ((k, v) :: rest) = quote k ++ ':' :: (compactChars v ++ spreadFields .compact indent rest)
  | [], k, v => by simp only [compactFields, spreadFields, List.append_nil]
  | (j, w) :: rest, k, v => by
    simp only [compactFields, spreadFields, compactFieldsCons indent rest, spreadCompact, List.append_assoc,
      List.cons_append]
    rfl
end

/-! Reading what is spread. -/

theorem skipBlanks {blanks : List Char} (all : ∀ c ∈ blanks, isBlank c = true) (rest : List Char) :
    skipBlank (blanks ++ rest) = skipBlank rest := List.dropWhile_append_of_pos all

def Starts (cs : List Char) : Prop :=
  ∃ c rest, cs = c :: rest ∧ isBlank c = false ∧ c ≠ ']' ∧ c ≠ '\x7d' ∧ c ≠ ','

theorem startsDigit {c : Char} {rest : List Char} (digit : isDigit c = true) : Starts (c :: rest) := by
  have other (d : Char) (no : isDigit d = false) : c ≠ d := by
    rintro rfl
    rw [no] at digit
    cases digit
  have visible : isBlank c = false := by
    simp only [isBlank, Bool.or_eq_false_iff, decide_eq_false_iff_not]
    exact ⟨⟨⟨other _ rfl, other _ rfl⟩, other _ rfl⟩, other _ rfl⟩
  exact ⟨c, rest, rfl, visible, other _ rfl, other _ rfl, other _ rfl⟩

theorem numberOpening (n : Number) : ∃ c rest, numberText n = c :: rest ∧ (c = '-' ∨ isDigit c = true) := by
  have digit {negative : Bool} {text : List Char} {m : Number} (alone : unsignedNumber negative text = .ok (m, [])) :
      ∃ c rest, text = c :: rest ∧ (c = '-' ∨ isDigit c = true) := by
    obtain ⟨c, rest, rfl, digit⟩ := unsignedFirst alone
    exact ⟨c, rest, rfl, .inr digit⟩
  cases n with
  | whole n =>
    have alone := wholeRead n endsNil
    rw [List.append_nil] at alone
    exact digit alone
  | below n => exact ⟨'-', _, rfl, .inl rfl⟩
  | real d =>
    rw [numberText, textMagnitude]
    split
    · exact ⟨'-', _, rfl, .inl rfl⟩
    · exact digit (by simpa using magnitudeRead d endsNil)

theorem numberStarts (n : Number) : Starts (numberText n) := by
  obtain ⟨c, rest, text, opening⟩ := numberOpening n
  rw [text]
  rcases opening with rfl | digit
  · exact ⟨'-', rest, rfl, by decide⟩
  · exact startsDigit digit

theorem spreadStarts (s : Spacing) (indent : Nat) (v : Json) : Starts (spread s indent v) := by
  cases v with
  | null => exact ⟨_, _, by rw [spread], by decide⟩
  | bool b => cases b <;> exact ⟨_, _, by rw [spread], by decide⟩
  | num n =>
    rw [spread]
    exact numberStarts n
  | str s => exact ⟨_, _, by rw [spread, quote, quoteChars, List.cons_append], by decide⟩
  | arr items => cases items <;> exact ⟨_, _, by rw [spread], by decide⟩
  | obj fields =>
    cases fields with
    | nil => exact ⟨_, _, by rw [spread], by decide⟩
    | cons f rest => exact ⟨_, _, by rw [spread], by decide⟩

theorem spreadFuel {s : Spacing} {indent fuel : Nat} {v : Json} (enough : 2 * (spread s indent v).length ≤ fuel) :
    ∃ n, fuel = n + 1 := by
  obtain ⟨c, others, same, -⟩ := spreadStarts s indent v
  rw [same, List.length_cons] at enough
  exact ⟨fuel - 1, by omega⟩

theorem skipStarts {cs : List Char} (starts : Starts cs) (rest : List Char) :
    skipBlank (cs ++ rest) = cs ++ rest := by
  obtain ⟨c, others, rfl, visible, -⟩ := starts
  simp [skipBlank, visible]

theorem endsBlank {blanks : List Char} (all : ∀ c ∈ blanks, isBlank c = true) {mark : Char}
    (known : mark = ',' ∨ mark = ']' ∨ mark = '\x7d') (rest : List Char) : Ends (blanks ++ mark :: rest) := by
  intro c first
  cases blanks with
  | nil =>
    obtain rfl : mark = c := by simpa using first
    rcases known with rfl | rfl | rfl <;> decide
  | cons b blanks =>
    obtain rfl : b = c := by simpa using first
    have blank := all b List.mem_cons_self
    simp only [isBlank, Bool.or_eq_true, decide_eq_true_eq] at blank
    rcases blank with ((rfl | rfl) | rfl) | rfl <;> decide

theorem endsMark {mark : Char} (known : mark = ',' ∨ mark = ']' ∨ mark = '\x7d') (rest : List Char) :
    Ends (mark :: rest) :=
  endsBlank (List.forall_mem_nil _) known rest

theorem itemFirst {blanks cs : List Char} (all : ∀ c ∈ blanks, isBlank c = true) (starts : Starts cs)
    (rest : List Char) : nextItem true (blanks ++ (cs ++ rest)) = .ok (true, cs ++ rest) := by
  obtain ⟨c, others, rfl, visible, notClose, -⟩ := starts
  have skipped : skipBlank (c :: others ++ rest) = c :: others ++ rest := by simp [skipBlank, visible]
  unfold nextItem
  rw [skipBlanks all, skipped, List.cons_append]
  split
  · contradiction
  next same => exact absurd (List.cons.inj same).1 notClose
  next same =>
    obtain ⟨rfl, rfl⟩ := List.cons.inj same
    rfl

theorem itemLater {blanks cs : List Char} (all : ∀ c ∈ blanks, isBlank c = true) (starts : Starts cs)
    (rest : List Char) : nextItem false (',' :: (blanks ++ (cs ++ rest))) = .ok (true, cs ++ rest) := by
  obtain ⟨c, others, rfl, visible, notClose, -⟩ := starts
  have skipped : skipBlank (c :: others ++ rest) = c :: others ++ rest := by simp [skipBlank, visible]
  have comma (more : List Char) : skipBlank (',' :: more) = ',' :: more := rfl
  unfold nextItem
  rw [comma]
  split
  · contradiction
  next same => exact absurd (List.cons.inj same).1 (by decide)
  next same =>
    obtain ⟨rfl, rfl⟩ := List.cons.inj same
    rw [if_neg Bool.false_ne_true, if_pos rfl, skipBlanks all, skipped, List.cons_append]
    split
    · contradiction
    next same => exact absurd (List.cons.inj same).1 notClose
    next => rfl

theorem itemNone {blanks : List Char} (all : ∀ c ∈ blanks, isBlank c = true) (first : Bool) (rest : List Char) :
    nextItem first (blanks ++ ']' :: rest) = .ok (false, rest) := by
  have close : skipBlank (']' :: rest) = ']' :: rest := rfl
  simp only [nextItem, skipBlanks all, close]

theorem fieldFirst {blanks : List Char} (all : ∀ c ∈ blanks, isBlank c = true) (rest : List Char) :
    nextField true (blanks ++ '"' :: rest) = .ok (true, rest) := by
  have open' : skipBlank ('"' :: rest) = '"' :: rest := rfl
  simp [nextField, skipBlanks all, open']

theorem fieldLater {blanks : List Char} (all : ∀ c ∈ blanks, isBlank c = true) (rest : List Char) :
    nextField false (',' :: (blanks ++ '"' :: rest)) = .ok (true, rest) := by
  have comma : skipBlank (',' :: (blanks ++ '"' :: rest)) = ',' :: (blanks ++ '"' :: rest) := rfl
  have open' : skipBlank ('"' :: rest) = '"' :: rest := rfl
  simp [nextField, comma, skipBlanks all, open']

theorem fieldNone {blanks : List Char} (all : ∀ c ∈ blanks, isBlank c = true) (first : Bool) (rest : List Char) :
    nextField first (blanks ++ '\x7d' :: rest) = .ok (false, rest) := by
  have close : skipBlank ('\x7d' :: rest) = '\x7d' :: rest := rfl
  simp only [nextField, skipBlanks all, close]

theorem quoteAppend (k : String) (rest : List Char) :
    quote k ++ rest = '"' :: (k.toList.flatMap escape ++ '"' :: rest) := by
  simp [quote, quoteChars]

theorem colonRead (rest : List Char) : colon (':' :: rest) = .ok rest := rfl

theorem simpleRead (s : Spacing) (indent : Nat) {v : Json} (simple : v.Simple) {rest : List Char} (ends : Ends rest) :
    scalar (spread s indent v ++ rest) = .ok (v, rest) := by
  cases v with
  | null =>
    rw [spread]
    rfl
  | bool b =>
    cases b <;> simp only [spread] <;> rfl
  | num n =>
    rw [spread]
    exact numberRead n ends
  | str text =>
    rw [spread, quoteAppend, scalar, stringRead]
    simp only [bind, Except.bind, pure, Except.pure, List.reverse_nil, List.nil_append, String.ofList_toList]
  | arr items => cases simple
  | obj fields => cases simple

theorem scalarOpens {c : Char} (special : c = '[' ∨ c = '\x7b') (others : List Char) (r : Json × List Char) :
    scalar (c :: others) ≠ .ok r := by
  rcases special with rfl | rfl <;> simp [scalar, isDigit, failOn]

theorem valueSimple {s : Spacing} {indent fuel : Nat} (v : Json) (simple : v.Simple) {rest : List Char}
    (ends : Ends rest) (enough : 2 * (spread s indent v).length ≤ fuel) (depth : Nat) :
    value depth fuel (spread s indent v ++ rest) = .ok (v, rest) := by
  obtain ⟨fuel, rfl⟩ := spreadFuel enough
  have read := simpleRead s indent simple ends
  rw [value, skipStarts (spreadStarts s indent v)]
  split
  next same => exact absurd (same ▸ read) (scalarOpens (.inl rfl) _ _)
  next same => exact absurd (same ▸ read) (scalarOpens (.inr rfl) _ _)
  next => exact read

/-! The steps of reading containers. -/

theorem valueArr {depth fuel : Nat} {cs rest : List Char} {vs : List Json} (deep : 1 < depth)
    (read : items (depth - 1) fuel true cs = .ok (vs, rest)) :
    value depth (fuel + 1) ('[' :: cs) = .ok (.arr vs, rest) := by
  have opens : skipBlank ('[' :: cs) = '[' :: cs := rfl
  simp only [value, opens, if_neg (Nat.not_le.mpr deep), read, bind, Except.bind, pure, Except.pure]

theorem valueObj {depth fuel : Nat} {cs rest : List Char} {fs : Fields} (deep : 1 < depth)
    (read : fields (depth - 1) fuel true [] cs = .ok (fs, rest)) :
    value depth (fuel + 1) ('\x7b' :: cs) = .ok (.obj fs, rest) := by
  have opens : skipBlank ('\x7b' :: cs) = '\x7b' :: cs := rfl
  simp only [value, opens, if_neg (Nat.not_le.mpr deep), read, bind, Except.bind, pure, Except.pure]

theorem itemsStop {first : Bool} {cs rest : List Char} (none : nextItem first cs = .ok (false, rest))
    (depth fuel : Nat) : items depth (fuel + 1) first cs = .ok ([], rest) := by
  simp only [items, none, bind, Except.bind, pure, Except.pure]

theorem itemsStep {depth fuel : Nat} {first : Bool} {cs here later rest : List Char} {v : Json} {vs : List Json}
    (next : nextItem first cs = .ok (true, here)) (read : value depth fuel here = .ok (v, later))
    (others : items depth fuel false later = .ok (vs, rest)) :
    items depth (fuel + 1) first cs = .ok (v :: vs, rest) := by
  simp only [items, next, read, others, bind, Except.bind, pure, Except.pure]

theorem fieldsStop {first : Bool} {cs rest : List Char} (none : nextField first cs = .ok (false, rest))
    (depth fuel : Nat) (known : Fields) : fields depth (fuel + 1) first known cs = .ok (known, rest) := by
  simp only [fields, none, bind, Except.bind, pure, Except.pure]

theorem fieldsStep {depth fuel : Nat} {first : Bool} {known fs : Fields} {cs here later rest : List Char} {k : String}
    {v : Json} (next : nextField first cs = .ok (true, k.toList.flatMap escape ++ '"' :: ':' :: here))
    (read : value depth fuel here = .ok (v, later))
    (others : fields depth fuel false (Table.insert k v known) later = .ok (fs, rest)) :
    fields depth (fuel + 1) first known cs = .ok (fs, rest) := by
  simp only [fields, next, stringRead, colonRead, List.reverse_nil, List.nil_append, String.ofList_toList, read,
    others, bind, Except.bind]

theorem valueBlanks {blanks : List Char} (all : ∀ c ∈ blanks, isBlank c = true) (depth fuel : Nat)
    (cs : List Char) : value depth (fuel + 1) (blanks ++ cs) = value depth (fuel + 1) (skipBlank cs) := by
  have twice : skipBlank (skipBlank cs) = skipBlank cs := List.dropWhile_idempotent ..
  simp only [value, skipBlanks all, twice]

variable (s : Spacing)

theorem itemsEnd (vs : List Json) (above indent : Nat) (rest : List Char) :
    Ends (spreadItems s indent vs ++ (s.gap above ++ ']' :: rest)) := by
  cases vs with
  | nil => exact endsBlank (s.gapBlank above) (.inr (.inl rfl)) rest
  | cons v vs =>
    rw [spreadItems]
    exact endsMark (.inl rfl) _

theorem fieldsEnd (fs : List (String × Json)) (above indent : Nat) (rest : List Char) :
    Ends (spreadFields s indent fs ++ (s.gap above ++ '\x7d' :: rest)) := by
  cases fs with
  | nil => exact endsBlank (s.gapBlank above) (.inr (.inr rfl)) rest
  | cons f fs =>
    rw [spreadFields]
    exact endsMark (.inl rfl) _

theorem itemsText (v : Json) (vs : List Json) (indent : Nat) (rest : List Char) :
    spreadItems s indent (v :: vs) ++ rest
      = ',' :: (s.gap indent ++ (spread s indent v ++ (spreadItems s indent vs ++ rest))) := by
  simp only [spreadItems, List.cons_append, List.append_assoc]

theorem fieldsText (k : String) (v : Json) (fs : List (String × Json)) (indent : Nat) (rest : List Char) :
    spreadFields s indent ((k, v) :: fs) ++ rest
      = ',' :: (s.gap indent ++ '"' :: (k.toList.flatMap escape ++ '"' :: ':' :: (s.after ++ (spread s indent v
        ++ (spreadFields s indent fs ++ rest))))) := by
  simp only [spreadFields, List.cons_append, List.append_assoc, quoteAppend]

theorem arrText (v : Json) (vs : List Json) (indent : Nat) (rest : List Char) :
    spread s indent (.arr (v :: vs)) ++ rest
      = '[' :: (s.gap (indent + 1) ++ (spread s (indent + 1) v ++ (spreadItems s (indent + 1) vs
        ++ (s.gap indent ++ ']' :: rest)))) := by
  simp only [spread, List.cons_append, List.append_assoc, List.nil_append]

theorem objText (k : String) (v : Json) (fs : List (String × Json)) (indent : Nat) (rest : List Char) :
    spread s indent (.obj ((k, v) :: fs)) ++ rest
      = '\x7b' :: (s.gap (indent + 1) ++ '"' :: (k.toList.flatMap escape ++ '"' :: ':' :: (s.after
        ++ (spread s (indent + 1) v ++ (spreadFields s (indent + 1) fs ++ (s.gap indent ++ '\x7d' :: rest)))))) := by
  simp only [spread, List.cons_append, List.append_assoc, List.nil_append, quoteAppend]

theorem afterColon {v w : Json} {depth fuel indent : Nat} {cs rest : List Char}
    (read : value depth fuel (spread s indent v ++ cs) = .ok (w, rest)) :
    value depth fuel (s.after ++ (spread s indent v ++ cs)) = .ok (w, rest) := by
  cases fuel with
  | zero => simp [value, failAt] at read
  | succ fuel => rw [valueBlanks s.afterBlank, skipStarts (spreadStarts s indent v), read]

mutual
/-- A value is read from its text as it is sorted, if as many containers may open as it needs; the fuel counts two for
each character. -/
theorem spreadRead (indent depth fuel : Nat) : (v : Json) → {rest : List Char} → v.depth < depth →
    2 * (spread s indent v).length ≤ fuel → Ends rest →
    value depth fuel (spread s indent v ++ rest) = .ok (v.sorted, rest)
  | .null, _, _, enough, ends => valueSimple .null trivial ends enough depth
  | .bool b, _, _, enough, ends => valueSimple (.bool b) trivial ends enough depth
  | .num n, _, _, enough, ends => valueSimple (.num n) trivial ends enough depth
  | .str text, _, _, enough, ends => valueSimple (.str text) trivial ends enough depth
  | .arr [], rest, shallow, enough, _ => by
    simp only [spread, List.length_cons, List.length_nil] at enough ⊢
    obtain ⟨fuel, rfl⟩ : ∃ n, fuel = n + 2 := ⟨fuel - 2, by omega⟩
    have deep : 1 < depth := by simp only [Json.depth] at shallow; omega
    exact valueArr deep (itemsStop (itemNone (List.forall_mem_nil _) true rest) _ _)
  | .arr (v :: vs), rest, shallow, enough, _ => by
    have lower : ∀ w ∈ v :: vs, w.depth ≤ depth - 2 := depthArr.mp (by omega)
    simp only [spread, List.length_cons, List.length_append, List.length_nil] at enough
    simp only [Json.depth] at shallow
    obtain ⟨low, lower⟩ := List.forall_mem_cons.mp lower
    obtain ⟨fuel, rfl⟩ : ∃ n, fuel = n + 2 := ⟨fuel - 2, by omega⟩
    have here := spreadRead (indent + 1) (depth - 1) fuel v (by omega) (by omega)
      (itemsEnd s vs indent (indent + 1) rest)
    have later := itemsRead (indent + 1) (depth - 1) fuel vs indent rest
      (fun w member => by have := lower w member; omega) (by omega)
    rw [arrText s]
    exact valueArr (by omega) (itemsStep (itemFirst (s.gapBlank _) (spreadStarts s _ v) _) here later)
  | .obj [], rest, shallow, enough, _ => by
    simp only [spread, List.length_cons, List.length_nil] at enough ⊢
    obtain ⟨fuel, rfl⟩ : ∃ n, fuel = n + 2 := ⟨fuel - 2, by omega⟩
    have deep : 1 < depth := by simp only [Json.depth] at shallow; omega
    exact valueObj deep (fieldsStop (fieldNone (List.forall_mem_nil _) true rest) _ _ _)
  | .obj ((k, v) :: fs), rest, shallow, enough, _ => by
    have lower : ∀ p ∈ (k, v) :: fs, p.2.depth ≤ depth - 2 := depthObj.mp (by omega)
    simp only [spread, List.length_cons, List.length_append, List.length_nil] at enough
    simp only [Json.depth] at shallow
    obtain ⟨low, lower⟩ := List.forall_mem_cons.mp lower
    obtain ⟨fuel, rfl⟩ : ∃ n, fuel = n + 2 := ⟨fuel - 2, by omega⟩
    have here := spreadRead (indent + 1) (depth - 1) fuel v (by simp only at low; omega) (by omega)
      (fieldsEnd s fs indent (indent + 1) rest)
    have later := fieldsRead (indent + 1) (depth - 1) fuel fs (Table.insert k v.sorted []) indent rest
      (fun p member => by have := lower p member; omega) (by omega)
    rw [objText s]
    exact valueObj (by omega) (fieldsStep (fieldFirst (s.gapBlank _) _) (afterColon s here) later)
theorem itemsRead (indent depth fuel : Nat) : (vs : List Json) → (above : Nat) → (rest : List Char) →
    (∀ v ∈ vs, v.depth < depth) → 2 * (spreadItems s indent vs).length < fuel →
    items depth fuel false (spreadItems s indent vs ++ (s.gap above ++ ']' :: rest)) = .ok (sortedItems vs, rest)
  | [], above, rest, _, enough => by
    obtain ⟨fuel, rfl⟩ : ∃ n, fuel = n + 1 := ⟨fuel - 1, by omega⟩
    exact itemsStop (itemNone (s.gapBlank above) false rest) _ _
  | v :: vs, above, rest, shallow, enough => by
    obtain ⟨low, lower⟩ := List.forall_mem_cons.mp shallow
    simp only [spreadItems, List.length_cons, List.length_append] at enough
    obtain ⟨fuel, rfl⟩ : ∃ n, fuel = n + 1 := ⟨fuel - 1, by omega⟩
    have here := spreadRead indent depth fuel v low (by omega) (itemsEnd s vs above indent rest)
    have later := itemsRead indent depth fuel vs above rest lower (by omega)
    rw [itemsText s]
    exact itemsStep (itemLater (s.gapBlank _) (spreadStarts s _ v) _) here later
theorem fieldsRead (indent depth fuel : Nat) : (fs : List (String × Json)) → (known : Fields) → (above : Nat) →
    (rest : List Char) → (∀ p ∈ fs, p.2.depth < depth) → 2 * (spreadFields s indent fs).length < fuel →
    fields depth fuel false known (spreadFields s indent fs ++ (s.gap above ++ '\x7d' :: rest))
      = .ok ((sortedFields fs).foldl (fun table p => Table.insert p.1 p.2 table) known, rest)
  | [], known, above, rest, _, enough => by
    obtain ⟨fuel, rfl⟩ : ∃ n, fuel = n + 1 := ⟨fuel - 1, by omega⟩
    exact fieldsStop (fieldNone (s.gapBlank above) false rest) _ _ _
  | (k, v) :: fs, known, above, rest, shallow, enough => by
    obtain ⟨low, lower⟩ := List.forall_mem_cons.mp shallow
    simp only [spreadFields, List.length_cons, List.length_append] at enough
    obtain ⟨fuel, rfl⟩ : ∃ n, fuel = n + 1 := ⟨fuel - 1, by omega⟩
    have here := spreadRead indent depth fuel v low (by omega) (fieldsEnd s fs above indent rest)
    have later := fieldsRead indent depth fuel fs (Table.insert k v.sorted known) above rest lower (by omega)
    rw [fieldsText s]
    exact fieldsStep (fieldLater (s.gapBlank _) _) (afterColon s here) later
end

theorem orderedRead (indent depth fuel : Nat) (v : Json) {rest : List Char} (ordered : v.Ordered)
    (shallow : v.depth < depth) (enough : 2 * (spread s indent v).length ≤ fuel) (ends : Ends rest) :
    value depth fuel (spread s indent v ++ rest) = .ok (v, rest) := by
  rw [spreadRead s indent depth fuel v shallow enough ends, sortedSame v ordered]

def Readable (v : Json) : Prop := v.Within 127

theorem spreadParsed (indent : Nat) {v : Json} (readable : v.Readable) : parseChars (spread s indent v) = .ok v := by
  obtain ⟨ordered, shallow⟩ := readable
  have read := orderedRead s indent depthLimit (readFuel (spread s indent v)) v ordered
    (by rw [depthLimit]; omega) (by rw [readFuel]; omega) endsNil
  rw [List.append_nil] at read
  rw [parseChars, read]
  rfl

theorem parsePretty {v : Json} (readable : v.Readable) : parse v.pretty = .ok v := by
  rw [parse, pretty, String.toList_ofList, ← spreadPretty, spreadParsed .pretty 0 readable]
  rfl

theorem parseCompact {v : Json} (readable : v.Readable) : parse v.compact = .ok v := by
  rw [parse, compact, String.toList_ofList, ← spreadCompact 0, spreadParsed .compact 0 readable]
  rfl

theorem compactInjective {v w : Json} (ordered : v.Ordered) (other : w.Ordered) (same : v.compact = w.compact) :
    v = w := by
  have chars : spread .compact 0 v = spread .compact 0 w := by
    rw [spreadCompact, spreadCompact]
    exact String.ofList_injective same
  have first := orderedRead .compact 0 (v.depth + w.depth + 1) (2 * (spread .compact 0 v).length) v ordered (by omega)
    (Nat.le_refl _) endsNil
  have second := orderedRead .compact 0 (v.depth + w.depth + 1) (2 * (spread .compact 0 w).length) w other (by omega)
    (Nat.le_refl _) endsNil
  rw [chars, second] at first
  cases first
  rfl

/-! What is too deep is refused: a reader that may open more containers reads all that another one reads. -/

structure Deepens (fuel : Nat) : Prop where
  value : ∀ {depth more cs r}, depth ≤ more → value depth fuel cs = .ok r → value more fuel cs = .ok r
  items : ∀ {depth more first cs r}, depth ≤ more → items depth fuel first cs = .ok r → items more fuel first cs = .ok r
  fields : ∀ {depth more first known cs r}, depth ≤ more → fields depth fuel first known cs = .ok r →
    fields more fuel first known cs = .ok r

theorem deepensNone : Deepens 0 where
  value _ read := by cases read
  items _ read := by cases read
  fields _ read := by cases read

section

variable {fuel : Nat} (below : Deepens fuel) {depth more : Nat} (le : depth ≤ more)
include below le

theorem deeperValue {cs : List Char} {r : Json × List Char} (read : value depth (fuel + 1) cs = .ok r) :
    value more (fuel + 1) cs = .ok r := by
  have inner : depth - 1 ≤ more - 1 := Nat.sub_le_sub_right le 1
  simp only [Json.value] at read ⊢
  split at read
  · split at read
    · cases read
    next deep =>
      obtain ⟨⟨vs, after⟩, inside, same⟩ := Outcome.bindOk.mp read
      rw [if_neg (by omega)]
      exact Outcome.bindOk.mpr ⟨_, below.items inner inside, same⟩
  · split at read
    · cases read
    next deep =>
      obtain ⟨⟨fs, after⟩, inside, same⟩ := Outcome.bindOk.mp read
      rw [if_neg (by omega)]
      exact Outcome.bindOk.mpr ⟨_, below.fields inner inside, same⟩
  · exact read

theorem deeperItems {first : Bool} {cs : List Char} {r : List Json × List Char}
    (read : items depth (fuel + 1) first cs = .ok r) : items more (fuel + 1) first cs = .ok r := by
  simp only [Json.items] at read ⊢
  obtain ⟨⟨found, after⟩, next, read⟩ := Outcome.bindOk.mp read
  refine Outcome.bindOk.mpr ⟨_, next, ?_⟩
  cases found with
  | false => exact read
  | true =>
    obtain ⟨⟨v, afterValue⟩, here, read⟩ := Outcome.bindOk.mp read
    obtain ⟨⟨vs, last⟩, later, same⟩ := Outcome.bindOk.mp read
    exact Outcome.bindOk.mpr ⟨_, below.value le here, Outcome.bindOk.mpr ⟨_, below.items le later, same⟩⟩

theorem deeperFields {first : Bool} {known : Fields} {cs : List Char} {r : Fields × List Char}
    (read : fields depth (fuel + 1) first known cs = .ok r) : fields more (fuel + 1) first known cs = .ok r := by
  simp only [Json.fields] at read ⊢
  obtain ⟨⟨found, after⟩, next, read⟩ := Outcome.bindOk.mp read
  refine Outcome.bindOk.mpr ⟨_, next, ?_⟩
  cases found with
  | false => exact read
  | true =>
    obtain ⟨⟨name, afterName⟩, named, read⟩ := Outcome.bindOk.mp read
    obtain ⟨afterColon, mark, read⟩ := Outcome.bindOk.mp read
    obtain ⟨⟨v, afterValue⟩, here, later⟩ := Outcome.bindOk.mp read
    exact Outcome.bindOk.mpr ⟨_, named, Outcome.bindOk.mpr ⟨_, mark, Outcome.bindOk.mpr
      ⟨_, below.value le here, below.fields le later⟩⟩⟩

end

theorem deepens (fuel : Nat) : Deepens fuel := by
  induction fuel with
  | zero => exact deepensNone
  | succ fuel below =>
    exact ⟨fun le read => deeperValue below le read, fun le read => deeperItems below le read,
      fun le read => deeperFields below le read⟩

theorem parseDeep {v : Json} (ordered : v.Ordered) (deep : 127 < v.depth) :
    ∃ reason, parse v.pretty = .error reason := by
  cases read : parse v.pretty with
  | error reason => exact ⟨reason, rfl⟩
  | ok w =>
    have shallow := (parseFits read).2
    simp only [parse, Outcome.mapErrorOk, parseChars, Outcome.bindOk, pretty, String.toList_ofList,
      ← spreadPretty] at read
    obtain ⟨⟨w', rest⟩, inside, last⟩ := read
    have more : depthLimit ≤ v.depth + 1 := by rw [depthLimit]; omega
    have all := (deepens _).value more inside
    have whole := orderedRead .pretty 0 (v.depth + 1) (readFuel (spread .pretty 0 v)) v ordered (Nat.lt_succ_self _)
      (by rw [readFuel]; omega) endsNil
    rw [List.append_nil, all] at whole
    cases whole
    cases last
    exact absurd shallow (Nat.not_le.mpr deep)

/-! The compact text leaves nothing but blanks out. -/

mutual
theorem spreadThin (i j : Nat) : (v : Json) → (spread .compact i v).Sublist (spread s j v)
  | .arr [] => by
    simp only [spread]
    exact List.Sublist.refl _
  | .arr (v :: vs) => by
    simp only [spread]
    exact .cons_cons _ ((List.nil_sublist _).append ((spreadThin _ _ v).append ((itemsThin _ _ vs).append
      ((List.nil_sublist _).append (.refl _)))))
  | .obj [] => by
    simp only [spread]
    exact List.Sublist.refl _
  | .obj ((k, v) :: fs) => by
    simp only [spread]
    exact .cons_cons _ ((List.nil_sublist _).append ((List.Sublist.refl _).append (.cons_cons _
      ((List.nil_sublist _).append ((spreadThin _ _ v).append ((fieldsThin _ _ fs).append
        ((List.nil_sublist _).append (.refl _))))))))
  | .null => by
    simp only [spread]
    exact List.Sublist.refl _
  | .bool true => by
    simp only [spread]
    exact List.Sublist.refl _
  | .bool false => by
    simp only [spread]
    exact List.Sublist.refl _
  | .num n => by
    simp only [spread]
    exact List.Sublist.refl _
  | .str text => by
    simp only [spread]
    exact List.Sublist.refl _
theorem itemsThin (i j : Nat) : (vs : List Json) → (spreadItems .compact i vs).Sublist (spreadItems s j vs)
  | [] => by
    simp only [spreadItems]
    exact List.Sublist.refl _
  | v :: vs => by
    simp only [spreadItems]
    exact .cons_cons _ ((List.nil_sublist _).append ((spreadThin _ _ v).append (itemsThin _ _ vs)))
theorem fieldsThin (i j : Nat) : (fs : List (String × Json)) →
    (spreadFields .compact i fs).Sublist (spreadFields s j fs)
  | [] => by
    simp only [spreadFields]
    exact List.Sublist.refl _
  | (k, v) :: fs => by
    simp only [spreadFields]
    exact .cons_cons _ ((List.nil_sublist _).append ((List.Sublist.refl _).append (.cons_cons _
      ((List.nil_sublist _).append ((spreadThin _ _ v).append (fieldsThin _ _ fs))))))
end

theorem compactWithin (v : Json) : (compactChars v).Sublist (prettyChars 0 v) := by
  rw [← spreadCompact 0, ← spreadPretty]
  exact spreadThin _ 0 0 v

theorem compactFieldsHead (f : String × Json) (rest : List (String × Json)) :
    compactFields (f :: rest)
      = quote f.1 ++ ':' :: (compactChars f.2 ++ if rest = [] then [] else ',' :: compactFields rest) := by
  cases rest with
  | nil => simp [compactFields]
  | cons g rest => simp [compactFields]

theorem compactFewer {fewer fields : List (String × Json)} (sub : fewer.Sublist fields) :
    (compactFields fewer).Sublist (compactFields fields) := by
  induction sub with
  | slnil => exact List.Sublist.refl _
  | @cons fewer fields f sub ih =>
    rw [compactFieldsHead]
    split
    next none =>
      rw [none, List.sublist_nil] at sub
      subst sub
      simp [compactFields]
    next =>
      exact List.Sublist.trans ih (List.sublist_append_of_sublist_right (.cons _ (List.sublist_append_of_sublist_right
        (.cons _ (.refl _)))))
  | @cons_cons fewer fields f sub ih =>
    rw [compactFieldsHead, compactFieldsHead]
    refine (List.Sublist.refl _).append (.cons_cons _ ((List.Sublist.refl _).append ?_))
    by_cases none : fewer = []
    · rw [if_pos none]
      exact List.nil_sublist _
    · have filled : fields ≠ [] := fun empty => none (List.sublist_nil.mp (empty ▸ sub))
      rw [if_neg none, if_neg filled]
      exact .cons_cons _ ih

end Conduit.Json
