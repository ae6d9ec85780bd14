import Conduit.Expression.Parser
import Conduit.Proofs.ScannedText
import Conduit.Proofs.TextBytes

/-! Text that falls into pieces, scanned from the left. Nothing of it is lost but the blanks around expressions, and it
has no pieces only where a pair of braces that opens is not closed any more. -/
namespace Conduit.Expression

/-! Pairs of braces. -/

theorem findPairIff (c : Char) (cs : List Char) : (findPair c cs).isSome ↔ [c, c] <:+: cs := by
  fun_induction findPair c cs with
  | case1 a b rest same =>
    obtain ⟨rfl, rfl⟩ := same
    exact iff_of_true rfl (List.prefix_append [_, _] rest).isInfix
  | case2 a b rest different ih =>
    have notHere : ¬ [c, c] <+: a :: b :: rest := by
      rw [List.cons_prefix_cons, List.cons_prefix_cons]
      exact fun here => different ⟨here.1.symm, here.2.1.symm⟩
    rw [Option.isSome_map, ih]
    exact (List.infix_cons_iff.trans (or_iff_right notHere)).symm
  | case3 cs short =>
    refine iff_of_false Bool.false_ne_true fun inside => ?_
    have long := inside.length_le
    rcases cs with _ | ⟨a, _ | ⟨b, rest⟩⟩
    · cases long
    · simp at long
    · exact short a b rest rfl

def opening : List Char := [openBrace, openBrace]

def closing : List Char := [closeBrace, closeBrace]

structure FirstPair (c : Char) (cs before after : List Char) : Prop where
  whole : cs = before ++ c :: c :: after
  first : ¬ [c, c] <:+: before ++ [c]

theorem FirstPair.found {c : Char} {cs before after : List Char} (pair : FirstPair c cs before after) :
    findPair c cs = some (before, after) := by
  obtain ⟨rfl, first⟩ := pair
  induction before with
  | nil => simp [findPair]
  | cons a before ih =>
    have later := ih fun inside => first (inside.trans (List.suffix_cons a (before ++ [c])).isInfix)
    cases before with
    | nil =>
      have other : a ≠ c := by
        rintro rfl
        exact first ⟨[], [], rfl⟩
      simp [findPair, other]
    | cons b before =>
      have other : ¬ (a = c ∧ b = c) := by
        rintro ⟨rfl, rfl⟩
        exact first ⟨[], before ++ [_], rfl⟩
      rw [List.cons_append] at later
      rw [List.cons_append, List.cons_append, findPair, if_neg other, later]
      rfl

theorem FirstPair.apart {c : Char} {cs before after : List Char} (pair : FirstPair c cs before after) :
    ¬ [c, c] <:+: before := fun inside => pair.first (inside.trans (List.prefix_append before [c]).isInfix)

theorem firstPairFound {c : Char} {cs before after : List Char} (found : findPair c cs = some (before, after)) :
    FirstPair c cs before after := by
  refine ⟨findPair_eq found, ?_⟩
  fun_induction findPair c cs generalizing before after with
  | case1 a b rest same =>
    cases found
    exact fun inside => absurd inside.length_le (by simp)
  | case2 a b rest different ih =>
    obtain ⟨⟨others, _⟩, later, same⟩ := Option.map_eq_some_iff.mp found
    cases same
    intro inside
    rcases List.infix_cons_iff.mp inside with here | within
    · have next : (others ++ [c]).head? = some b := by
        have whole := congrArg List.head? (findPair_eq later)
        cases others <;> simpa using whole.symm
      obtain ⟨first, more, second⟩ := List.cons_prefix_cons.mp here
      have second : [c] ++ more = others ++ [c] := second
      rw [← second] at next
      exact different ⟨first.symm, (Option.some.inj next).symm⟩
    · exact ih later within
  | case3 => cases found

theorem noPair {c : Char} {cs : List Char} (none : findPair c cs = none) : ¬ [c, c] <:+: cs := fun inside =>
  absurd ((findPairIff c cs).mpr inside) (by simp [none])

/-! Scanning. -/

def textPiece (cs : List Char) : List Piece := if cs.isEmpty then [] else [.text cs]

inductive Parted : List Char → List Piece → Prop
  | plain {cs : List Char} (unopened : ¬ opening <:+: cs) : Parted cs (textPiece cs)
  | expr {cs before after source rest : List Char} {ps : List Piece} (opens : FirstPair openBrace cs before after)
      (closes : FirstPair closeBrace after source rest) (later : Parted rest ps) :
      Parted cs (textPiece before ++ .expr (Text.trim source) :: ps)

inductive Opens : List Char → List Char → List Char → Prop
  | first {cs before after : List Char} (pair : FirstPair openBrace cs before after) : Opens cs before after
  | later {cs text inside source rest before after : List Char} (opens : FirstPair openBrace cs text inside)
      (closes : FirstPair closeBrace inside source rest) (found : Opens rest before after) :
      Opens cs (text ++ (opening ++ (source ++ (closing ++ before)))) after

theorem splitParted {offset : Nat} {cs : List Char} {ps : List Piece} (parted : split offset cs = .ok ps) :
    Parted cs ps := by
  fun_induction split offset cs generalizing ps with
  | case1 offset cs none =>
    cases parted
    exact .plain (noPair none)
  | case2 => cases parted
  | case3 offset cs before after opens source rest closes ih =>
    obtain ⟨tail, later, same⟩ := Outcome.bindOk.mp parted
    cases same
    have parts := Parted.expr (firstPairFound opens) (firstPairFound closes) (ih later)
    cases before <;> exact parts

section

variable {cs before after : List Char}

theorem unopened (none : findPair openBrace cs = none) : ¬ Opens cs before after := by
  intro opens
  cases opens with
  | first pair => cases pair.found.symm.trans none
  | later pair => cases pair.found.symm.trans none

theorem opensUnclosed {text inside : List Char} (opens : findPair openBrace cs = some (text, inside))
    (unclosed : findPair closeBrace inside = none) : Opens cs before after ↔ before = text ∧ after = inside := by
  constructor
  · intro found
    cases found with
    | first pair =>
      cases pair.found.symm.trans opens
      exact ⟨rfl, rfl⟩
    | later pair closes =>
      cases pair.found.symm.trans opens
      cases closes.found.symm.trans unclosed
  · rintro ⟨rfl, rfl⟩
    exact .first (firstPairFound opens)

theorem opensClosed {text inside source rest : List Char} (opens : findPair openBrace cs = some (text, inside))
    (closes : findPair closeBrace inside = some (source, rest)) (unclosed : ¬ closing <:+: after) :
    Opens cs before after ↔
      ∃ front, Opens rest front after ∧ before = text ++ (opening ++ (source ++ (closing ++ front))) := by
  constructor
  · intro found
    cases found with
    | first pair =>
      cases pair.found.symm.trans opens
      exact absurd ⟨source, rest, by simp [closing, findPair_eq closes]⟩ unclosed
    | later pair closed found =>
      cases pair.found.symm.trans opens
      cases closed.found.symm.trans closes
      exact ⟨_, found, rfl⟩
  · rintro ⟨front, found, rfl⟩
    exact .later (firstPairFound opens) (firstPairFound closes) found

end

theorem splitFails {offset : Nat} {cs : List Char} {e : Error} : split offset cs = .error e ↔
    ∃ before after, Opens cs before after ∧ ¬ closing <:+: after
      ∧ e = .unterminatedInterpolation (offset + Text.byteCount before) := by
  fun_induction split offset cs generalizing e with
  | case1 offset cs none =>
    refine iff_of_false (fun failed => by cases failed) ?_
    rintro ⟨before, after, opens, -⟩
    exact unopened none opens
  | case2 offset cs before after opens none =>
    simp only [opensUnclosed opens none, Except.error.injEq, and_assoc, exists_and_left, exists_eq_left]
    exact ⟨fun same => ⟨noPair none, same.symm⟩, fun failed => failed.2.symm⟩
  | case3 offset cs text inside opens source rest closes ih =>
    have marks : Text.byteCount opening = 2 ∧ Text.byteCount closing = 2 := by decide
    have place (front : List Char) : offset + Text.byteCount text + Text.byteCount source + 4 + Text.byteCount front
        = offset + Text.byteCount (text ++ (opening ++ (source ++ (closing ++ front)))) := by
      simp only [Text.byteCountAppend, marks]
      omega
    rw [Outcome.bindError, or_iff_left (fun ⟨_, _, failed⟩ => by cases failed), ih]
    constructor
    · rintro ⟨front, after, found, unclosed, rfl⟩
      exact ⟨_, after, .later (firstPairFound opens) (firstPairFound closes) found, unclosed, by rw [place]⟩
    · rintro ⟨before, after, found, unclosed, rfl⟩
      obtain ⟨front, later, rfl⟩ := (opensClosed opens closes unclosed).mp found
      exact ⟨front, after, later, unclosed, by rw [place]⟩

/-! What the pieces are. -/

inductive Joined : List Piece → List Char → Prop
  | nil : Joined [] []
  | text {ps : List Piece} {cs : List Char} (chars : List Char) (later : Joined ps cs) :
      Joined (.text chars :: ps) (chars ++ cs)
  | expr {ps : List Piece} {cs before source after : List Char} (front : ∀ c ∈ before, Text.isBlank c = true)
      (back : ∀ c ∈ after, Text.isBlank c = true) (later : Joined ps cs) :
      Joined (.expr source :: ps) (opening ++ (before ++ (source ++ (after ++ (closing ++ cs)))))

structure Tidy (ps : List Piece) : Prop where
  texts : ∀ chars, .text chars ∈ ps → chars ≠ [] ∧ ¬ opening <:+: chars
  apart : ∀ chars more, ¬ [.text chars, .text more] <:+: ps
  unclosed : ∀ source, .expr source ∈ ps → ¬ closing <:+: source
  trimmed : ∀ source, .expr source ∈ ps →
    (∀ c ∈ source.head?, Text.isBlank c = false) ∧ ∀ c ∈ source.getLast?, Text.isBlank c = false

theorem joinedText (chars : List Char) {ps : List Piece} {cs : List Char} (later : Joined ps cs) :
    Joined (textPiece chars ++ ps) (chars ++ cs) := by
  cases chars with
  | nil => exact later
  | cons c chars => exact .text (c :: chars) later

theorem Parted.joined {cs : List Char} {ps : List Piece} (parted : Parted cs ps) : Joined ps cs := by
  induction parted with
  | @plain cs unopened => simpa using joinedText cs .nil
  | @expr cs before after source rest ps opens closes later ih =>
    obtain ⟨front, back, whole, blankFront, blankBack⟩ := trimParts source
    have same : cs = before ++ (opening ++ (front ++ (Text.trim source ++ (back ++ (closing ++ rest))))) := by
      rw [opens.whole, closes.whole]
      nth_rewrite 1 [whole]
      simp [opening, closing]
    rw [same]
    exact joinedText before (.expr blankFront blankBack ih)

theorem firstVisible (cs : List Char) : ∀ c ∈ (cs.dropWhile Text.isBlank).head?, Text.isBlank c = false :=
  fun c first => by
  have visible := List.head?_dropWhile_not Text.isBlank cs
  rw [first] at visible
  exact visible

theorem trimEdges (cs : List Char) : (∀ c ∈ (Text.trim cs).head?, Text.isBlank c = false) ∧
    ∀ c ∈ (Text.trim cs).getLast?, Text.isBlank c = false := by
  constructor
  · intro c first
    have front : (Text.trim cs) <+: Text.trimStart cs := by
      rw [← List.reverse_suffix, Text.trim, Text.trimEnd, List.reverse_reverse]
      exact List.dropWhile_suffix _
    obtain ⟨more, whole⟩ := front
    refine firstVisible cs c ?_
    rw [← Text.trimStart, ← whole]
    exact List.mem_head?_append_of_mem_head? first
  · rw [Text.trim, Text.trimEnd, List.getLast?_reverse]
    exact firstVisible _

theorem tidyNothing : Tidy [] where
  texts _ member := by cases member
  apart _ _ inside := absurd inside.length_le (by simp)
  unclosed _ member := by cases member
  trimmed _ member := by cases member

theorem Tidy.expr {ps : List Piece} (tidy : Tidy ps) {source : List Char} (unclosed : ¬ closing <:+: source) :
    Tidy (.expr (Text.trim source) :: ps) := by
  have inner : Text.trim source <:+: source := by
    obtain ⟨front, back, whole, -⟩ := trimParts source
    exact ⟨front, back, by rw [List.append_assoc, ← whole]⟩
  constructor
  case texts => simpa using tidy.texts
  case apart =>
    intro chars more inside
    rcases List.infix_cons_iff.mp inside with here | later
    · cases (List.cons_prefix_cons.mp here).1
    · exact tidy.apart chars more later
  case unclosed =>
    intro other member
    rcases List.mem_cons.mp member with same | later
    · cases same
      exact fun inside => unclosed (inside.trans inner)
    · exact tidy.unclosed other later
  case trimmed =>
    intro other member
    rcases List.mem_cons.mp member with same | later
    · cases same
      exact trimEdges source
    · exact tidy.trimmed other later

theorem Tidy.text {ps : List Piece} (tidy : Tidy ps) {before : List Char} (unopened : ¬ opening <:+: before)
    (next : ∀ chars, .text chars ∉ ps.head?) : Tidy (textPiece before ++ ps) := by
  cases before with
  | nil => exact tidy
  | cons c before =>
    constructor
    case texts =>
      intro chars member
      rcases List.mem_cons.mp member with same | later
      · cases same
        exact ⟨List.cons_ne_nil _ _, unopened⟩
      · exact tidy.texts chars later
    case apart =>
      intro chars more inside
      rcases List.infix_cons_iff.mp inside with here | later
      · obtain ⟨rest, same⟩ := (List.cons_prefix_cons.mp here).2
        have same : [.text more] ++ rest = ps := same
        exact next more (by rw [← same]; rfl)
      · exact tidy.apart chars more later
    case unclosed => exact fun source member => tidy.unclosed source (by simpa [textPiece] using member)
    case trimmed => exact fun source member => tidy.trimmed source (by simpa [textPiece] using member)

theorem Parted.tidy {cs : List Char} {ps : List Piece} (parted : Parted cs ps) : Tidy ps := by
  induction parted with
  | @plain cs unopened => simpa using tidyNothing.text unopened (by simp)
  | expr opens closes later ih => exact (ih.expr closes.apart).text opens.apart (by simp)

theorem Opens.whole {cs before after : List Char} (opens : Opens cs before after) :
    cs = before ++ (opening ++ after) := by
  induction opens with
  | first pair => exact pair.whole
  | later opens closes found ih =>
    rw [opens.whole, closes.whole]
    nth_rewrite 1 [ih]
    simp [opening, closing]

theorem splitLosesNothing (s : String) :
    (∀ ps, pieces s.toList = .ok ps → Joined ps s.toList ∧ Tidy ps) ∧
    ∀ e, pieces s.toList = .error e ↔ ∃ before after, s.toList = before ++ (opening ++ after) ∧
      Opens s.toList before after ∧ ¬ closing <:+: after ∧ e = .unterminatedInterpolation (Text.byteCount before) := by
  refine ⟨fun ps parted => ?_, fun e => ?_⟩
  · have parted := splitParted parted
    exact ⟨parted.joined, parted.tidy⟩
  · rw [pieces, splitFails]
    simp only [Nat.zero_add]
    constructor
    · rintro ⟨before, after, opens, unclosed, rfl⟩
      exact ⟨before, after, opens.whole, opens, unclosed, rfl⟩
    · rintro ⟨before, after, -, opens, unclosed, rfl⟩
      exact ⟨before, after, opens, unclosed, rfl⟩

example : pieces "é\x7b\x7ba\x7d\x7d\x7b\x7bb".toList = .error (.unterminatedInterpolation 7) := by decide +kernel

theorem crowdedLosesNothing :
    pieces "é{{{ a }}}".toList
      = .ok [.text ['é'], .expr ['{', ' ', 'a'], .text ['}']]
    ∧ Joined [.text ['é'], .expr ['{', ' ', 'a'], .text ['}']] "é{{{ a }}}".toList
    ∧ Tidy [.text ['é'], .expr ['{', ' ', 'a'], .text ['}']] := by
  have parted : pieces "é{{{ a }}}".toList
      = .ok [.text ['é'], .expr ['{', ' ', 'a'], .text ['}']] := by decide +kernel
  exact ⟨parted, (splitLosesNothing _).1 _ parted⟩

end Conduit.Expression
