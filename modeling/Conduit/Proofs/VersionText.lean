import Conduit.Proofs.Decimals
import Conduit.Proofs.NexonKeys

/-! Versions and their texts. A text is read as a version just when it is the text that the version has, so no two texts
are read as one version. -/
namespace Conduit.Version

/-! Numbers. -/

theorem numberIff {digits : List Char} {n : Nat} :
    number? digits = some n ↔ n < 2 ^ 64 ∧ Nat.toDigits 10 n = digits := by
  constructor
  · intro read
    unfold number? at read
    split at read
    · cases read
    next good =>
      split at read
      · cases read
      next plain =>
        simp only [Bool.or_eq_true, not_or, Bool.not_eq_true', Bool.not_eq_false, List.all_eq_true,
          List.isEmpty_iff] at good
        simp only at read
        split at read
        next small =>
          cases read
          refine ⟨small, Json.toDigitsWhole ⟨good.2, ?_⟩⟩
          cases digits with
          | nil => exact absurd rfl good.1
          | cons c rest =>
            by_cases zero : c = '0'
            · subst zero
              have alone : rest = [] := by simpa using plain
              exact .inl (by rw [alone])
            · exact .inr ⟨c, rest, rfl, zero⟩
        next => cases read
  · rintro ⟨small, rfl⟩
    have value : (Nat.toDigits 10 n).foldl (fun n c => n * 10 + (c.toNat - 48)) 0 = n := Json.natOfToDigits n
    have digits : (Nat.toDigits 10 n).all Char.isDigit = true := List.all_eq_true.mpr (Json.toDigitsDigits n)
    have front : ¬ ((Nat.toDigits 10 n).head? = some '0' ∧ 1 < (Nat.toDigits 10 n).length) := by
      rintro ⟨zero, long⟩
      rcases Nat.eq_zero_or_pos n with rfl | positive
      · exact absurd long (by decide)
      · obtain ⟨first, rest, written, -, some⟩ := Json.toDigitsCons positive
        rw [written] at zero
        exact some (Option.some.inj zero)
    unfold number?
    rw [if_neg (by simp [digits, Nat.toDigits_ne_nil]), if_neg (by simpa using front), value]
    exact if_pos small

/-! Lists of identifiers. -/

def dotted (parts : List (List Char)) : List Char := ['.'].intercalate parts

theorem dottedCons (part next : List Char) (parts : List (List Char)) :
    dotted (part :: next :: parts) = part ++ '.' :: dotted (next :: parts) := by
  simp [dotted, List.intercalate]

theorem splitSome (cs : List Char) : ∃ part parts, splitDots cs = part :: parts := by
  cases cs with
  | nil => exact ⟨_, _, rfl⟩
  | cons c rest =>
    rw [splitDots]
    split
    · exact ⟨_, _, rfl⟩
    · split <;> exact ⟨_, _, rfl⟩

theorem dottedSplit (cs : List Char) : dotted (splitDots cs) = cs := by
  induction cs with
  | nil => rfl
  | cons c rest ih =>
    obtain ⟨part, parts, split⟩ := splitSome rest
    rw [splitDots, split]
    rw [split] at ih
    split
    next dot =>
      rw [dottedCons, ih, dot]
      rfl
    next =>
      cases parts with
      | nil => simpa [dotted] using ih
      | cons next parts =>
        rw [dottedCons] at ih ⊢
        rw [List.cons_append, ih]

theorem splitPlain {part : List Char} (plain : '.' ∉ part) : splitDots part = [part] := by
  induction part with
  | nil => rfl
  | cons c rest ih =>
    obtain ⟨other, plain⟩ := not_or.mp (fun among => plain (List.mem_cons.mpr among))
    rw [splitDots, if_neg (Ne.symm other), ih plain]

theorem splitBehind {part : List Char} (plain : '.' ∉ part) (rest : List Char) :
    splitDots (part ++ '.' :: rest) = part :: splitDots rest := by
  induction part with
  | nil => rfl
  | cons c more ih =>
    obtain ⟨other, plain⟩ := not_or.mp (fun among => plain (List.mem_cons.mpr among))
    rw [List.cons_append, splitDots, if_neg (Ne.symm other), ih plain]

theorem splitDotted {parts : List (List Char)} (some : parts ≠ []) (plain : ∀ part ∈ parts, '.' ∉ part) :
    splitDots (dotted parts) = parts := by
  induction parts with
  | nil => exact absurd rfl some
  | cons part rest ih =>
    obtain ⟨here, later⟩ := List.forall_mem_cons.mp plain
    cases rest with
    | nil => simpa [dotted] using splitPlain here
    | cons next rest => rw [dottedCons, splitBehind here, ih (List.cons_ne_nil _ _) later]

theorem cutIff {mark : Char} {cs front : List Char} {back : Option (List Char)} :
    cut mark cs = (front, back) ↔ cs = front ++ back.elim [] (mark :: ·) ∧ mark ∉ front := by
  have halves : cs.takeWhile (· ≠ mark) ++ cs.dropWhile (· ≠ mark) = cs := List.takeWhile_append_dropWhile
  constructor
  · intro same
    have other : mark ∉ cs.takeWhile (· ≠ mark) := fun among => by
      simpa using List.all_eq_true.mp List.all_takeWhile mark among
    unfold cut at same
    split at same
    next none =>
      cases same
      rw [none, List.append_nil] at halves
      exact ⟨(List.append_nil _).symm, halves ▸ other⟩
    next first rest found =>
      cases same
      have stops := List.head?_dropWhile_not (fun c => decide (c ≠ mark)) cs
      rw [found] at stops
      have first : first = mark := by simpa using stops
      rw [found, first] at halves
      exact ⟨halves.symm, other⟩
  · rintro ⟨rfl, plain⟩
    have all : ∀ c ∈ front, decide (c ≠ mark) = true := fun c among => decide_eq_true fun same => plain (same ▸ among)
    unfold cut
    cases back with
    | none =>
      rw [Option.elim_none, List.dropWhile_append_of_pos all]
      simp
    | some rest =>
      rw [Option.elim_some, List.dropWhile_append_of_pos all, List.takeWhile_append_of_pos all]
      simp

def listed (idents : List String) : Option (List Char) :=
  if idents.isEmpty then none else some (dotted (idents.map String.toList))

theorem identNotDot {part : List Char} (chars : ∀ c ∈ part, isIdentChar c) : '.' ∉ part := fun among =>
  absurd (chars _ among) (by decide)

theorem identsIff {valid : List Char → Bool} {given : Option (List Char)} {idents : List String}
    (chars : ∀ part, valid part → ∀ c ∈ part, isIdentChar c) :
    idents? valid given = some idents ↔ given = listed idents ∧ ∀ ident ∈ idents, valid ident.toList := by
  have texts (idents : List String) : (idents.map String.toList).map String.ofList = idents := by simp [Function.comp_def]
  cases given with
  | none => cases idents <;> simp [idents?, listed]
  | some cs =>
    constructor
    · intro read
      simp only [idents?] at read
      split at read
      next good =>
        cases read
        have parts : ((splitDots cs).map String.ofList).map String.toList = splitDots cs := by simp [Function.comp_def]
        obtain ⟨part, rest, filled⟩ := splitSome cs
        refine ⟨?_, fun ident among => ?_⟩
        · rw [listed, parts, dottedSplit, if_neg (by simp [filled])]
        · obtain ⟨part, found, rfl⟩ := List.mem_map.mp among
          rw [String.toList_ofList]
          exact List.all_eq_true.mp good part found
      next => cases read
    · rintro ⟨same, good⟩
      unfold listed at same
      split at same
      · cases same
      next filled =>
        have parts : splitDots cs = idents.map String.toList := by
          rw [Option.some.inj same]
          refine splitDotted (by simpa using filled) fun part among => ?_
          obtain ⟨ident, here, rfl⟩ := List.mem_map.mp among
          exact identNotDot (chars _ (good ident here))
        have all : (idents.map String.toList).all valid = true := by
          simpa [List.all_eq_true] using good
        rw [idents?, parts, texts, if_pos all]

/-! Versions. -/

structure Sound (v : Version) : Prop where
  major : v.major < 2 ^ 64
  minor : v.minor < 2 ^ 64
  patch : v.patch < 2 ^ 64
  pre : ∀ ident ∈ v.pre, isPreIdent ident.toList
  build : ∀ ident ∈ v.build, isBuildIdent ident.toList

def numbers (v : Version) : List (List Char) :=
  [Nat.toDigits 10 v.major, Nat.toDigits 10 v.minor, Nat.toDigits 10 v.patch]

def front (v : Version) : List Char := dotted v.numbers ++ (listed v.pre).elim [] ('-' :: ·)

theorem textChars (v : Version) : v.text.toList = v.front ++ (listed v.build).elim [] ('+' :: ·) := by
  have tail (mark : Char) (sign : String) (one : sign.toList = [mark]) (idents : List String) :
      (if idents.isEmpty then "" else sign ++ ".".intercalate idents).toList = (listed idents).elim [] (mark :: ·) := by
    rw [listed]
    split
    · rfl
    · rw [String.toList_append, one, String.toList_intercalate]
      rfl
  rw [text, String.toList_append, String.toList_append, tail '-' "-" rfl, tail '+' "+" rfl]
  simp [front, numbers, dotted, List.intercalate, show (toString ".").toList = ['.'] from rfl]

theorem numberChars {v : Version} {mark : Char} (other : mark.isDigit = false) : ∀ part ∈ v.numbers, mark ∉ part := by
  have plain (n : Nat) : mark ∉ Nat.toDigits 10 n := fun among =>
    Bool.false_ne_true (other.symm.trans (Json.toDigitsDigits n mark among))
  exact List.forall_mem_cons.mpr ⟨plain _, List.forall_mem_cons.mpr ⟨plain _, List.forall_mem_singleton.mpr (plain _)⟩⟩

theorem memIntercalate {sep : List Char} {parts : List (List Char)} {c : Char} (member : c ∈ sep.intercalate parts) :
    c ∈ sep ∨ ∃ part ∈ parts, c ∈ part := by
  rw [List.intercalate] at member
  induction parts with
  | nil => cases member
  | cons first rest ih =>
    cases rest with
    | nil => exact .inr ⟨first, List.mem_cons_self, by simpa using member⟩
    | cons next others =>
      simp only [List.intersperse_cons_cons, List.flatten_cons, List.mem_append] at member
      rcases member with here | between | later
      · exact .inr ⟨first, List.mem_cons_self, here⟩
      · exact .inl between
      · rcases ih later with between | ⟨part, among, inside⟩
        · exact .inl between
        · exact .inr ⟨part, List.mem_cons_of_mem _ among, inside⟩

theorem notDotted {mark : Char} {parts : List (List Char)} (other : mark ≠ '.') (plain : ∀ part ∈ parts, mark ∉ part) :
    mark ∉ dotted parts := by
  intro among
  rcases memIntercalate among with dot | ⟨part, found, inside⟩
  · exact other (List.mem_singleton.mp dot)
  · exact plain part found inside

theorem frontPlain {v : Version} (pre : ∀ ident ∈ v.pre, isPreIdent ident.toList) : '+' ∉ v.front := by
  have numbers : '+' ∉ dotted v.numbers := notDotted (by decide) (numberChars rfl)
  rw [front, List.mem_append, not_or]
  refine ⟨numbers, ?_⟩
  unfold listed
  split
  · exact List.not_mem_nil
  · rw [Option.elim_some, List.mem_cons, not_or]
    refine ⟨by decide, notDotted (by decide) fun part among inside => ?_⟩
    obtain ⟨ident, here, rfl⟩ := List.mem_map.mp among
    exact absurd (preChars _ (pre ident here) _ inside) (by decide)

theorem parsedIff {s : String} {v : Version} : parse? s = some v ↔ v.Sound ∧ v.text = s := by
  rw [← String.toList_inj, textChars]
  constructor
  · intro read
    rcases outer : cut '+' s.toList with ⟨before, after⟩
    rcases inner : cut '-' before with ⟨digits, between⟩
    simp only [parse?, outer, inner] at read
    split at read
    next major minor patch numbers =>
      simp only [Option.bind_eq_bind, Option.bind_eq_some_iff] at read
      obtain ⟨a, readMajor, b, readMinor, c, readPatch, pre, readPre, build, readBuild, same⟩ := read
      cases same
      obtain ⟨majorSmall, rfl⟩ := numberIff.mp readMajor
      obtain ⟨minorSmall, rfl⟩ := numberIff.mp readMinor
      obtain ⟨patchSmall, rfl⟩ := numberIff.mp readPatch
      obtain ⟨rfl, preSound⟩ := (identsIff preChars).mp readPre
      obtain ⟨rfl, buildSound⟩ := (identsIff buildChars).mp readBuild
      refine ⟨⟨majorSmall, minorSmall, patchSmall, preSound, buildSound⟩, ?_⟩
      rw [(cutIff.mp outer).1, (cutIff.mp inner).1, ← dottedSplit digits, numbers]
      rfl
    next => cases read
  · rintro ⟨sound, same⟩
    have outer : cut '+' s.toList = (v.front, listed v.build) := cutIff.mpr ⟨same.symm, frontPlain sound.pre⟩
    have inner : cut '-' v.front = (dotted v.numbers, listed v.pre) :=
      cutIff.mpr ⟨rfl, notDotted (by decide) (numberChars rfl)⟩
    have parts : splitDots (dotted v.numbers)
        = [Nat.toDigits 10 v.major, Nat.toDigits 10 v.minor, Nat.toDigits 10 v.patch] :=
      splitDotted (List.cons_ne_nil _ _) (numberChars rfl)
    have major := numberIff.mpr ⟨sound.major, rfl⟩
    have minor := numberIff.mpr ⟨sound.minor, rfl⟩
    have patch := numberIff.mpr ⟨sound.patch, rfl⟩
    have pre := (identsIff preChars).mpr ⟨rfl, sound.pre⟩
    have build := (identsIff buildChars).mpr ⟨rfl, sound.build⟩
    simp only [parse?, outer, inner, parts, major, minor, patch, pre, build]
    rfl

theorem Sound.textPlain {v : Version} (sound : v.Sound) : NexonSource.Plain v.text.toList :=
  parsePlain (parsedIff.mpr ⟨sound, rfl⟩)

end Conduit.Version
