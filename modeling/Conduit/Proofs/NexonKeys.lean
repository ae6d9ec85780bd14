import Conduit.Nexon.Resolver

/-! The keys that nexons are kept under. An id and a version are joined by a character that neither has in
it, so a key tells them apart; a key without a version is that of a version which is none. -/
namespace Conduit

/-! Characters. -/

namespace NexonSource

def Plain (cs : List Char) : Prop := ∀ c ∈ cs, isSegmentChar c

theorem plainOfSegment {s : String} (segment : isSegment s) : Plain s.toList := by
  simp only [isSegment, Bool.and_eq_true, List.all_eq_true] at segment
  exact segment.2

theorem plainNotAt {cs : List Char} (plain : Plain cs) : '@' ∉ cs := by
  intro member
  have wrong : isSegmentChar '@' = true := plain _ member
  exact absurd wrong (by decide)

end NexonSource

namespace Version

theorem splitDotsJoined {c : Char} {cs : List Char} (member : c ∈ cs) :
    c = '.' ∨ ∃ part ∈ splitDots cs, c ∈ part := by
  induction cs with
  | nil => cases member
  | cons head rest ih =>
    simp only [splitDots]
    rcases List.mem_cons.mp member with rfl | member
    · split
      next dot => exact .inl dot
      next =>
        right
        split <;> simp
    · rcases ih member with dot | ⟨part, found, inside⟩
      · exact .inl dot
      · right
        split
        · exact ⟨part, List.mem_cons_of_mem _ found, inside⟩
        · cases parts : splitDots rest with
          | nil => rw [parts] at found; cases found
          | cons first others =>
            rw [parts] at found
            rcases List.mem_cons.mp found with rfl | found
            · exact ⟨head :: part, List.mem_cons_self, List.mem_cons_of_mem _ inside⟩
            · exact ⟨part, List.mem_cons_of_mem _ found, inside⟩

theorem cutJoined (sep : Char) {c : Char} {cs : List Char} (member : c ∈ cs) :
    c = sep ∨ c ∈ (cut sep cs).1 ∨ ∃ rest, (cut sep cs).2 = some rest ∧ c ∈ rest := by
  have halves : cs.takeWhile (· ≠ sep) ++ cs.dropWhile (· ≠ sep) = cs := List.takeWhile_append_dropWhile
  unfold cut
  split
  next => exact .inr (.inl member)
  next first rest found =>
    have atSep : first = sep := by
      have stays : (cs.dropWhile (· ≠ sep)).head (by rw [found]; simp) = first := by simp only [found, List.head_cons]
      have stops := List.head_dropWhile_not (fun c => decide (c ≠ sep)) (l := cs) (by rw [found]; simp)
      rw [stays] at stops
      simpa using stops
    rw [← halves, found, List.mem_append, List.mem_cons] at member
    rcases member with before | here | after
    · exact .inr (.inl before)
    · exact .inl (here.trans atSep)
    · exact .inr (.inr ⟨rest, rfl, after⟩)

theorem numberPlain {digits : List Char} {n : Nat} (read : number? digits = some n) :
    NexonSource.Plain digits := by
  intro c member
  unfold number? at read
  split at read
  · cases read
  next good =>
    simp only [Bool.or_eq_true, not_or, Bool.not_eq_true', Bool.not_eq_false, List.all_eq_true] at good
    have digit := good.2 c member
    simp [NexonSource.isSegmentChar, Char.isAlphanum, digit]

theorem identPlain {c : Char} (ident : isIdentChar c) : NexonSource.isSegmentChar c := by
  simp only [isIdentChar, Bool.or_eq_true, decide_eq_true_eq] at ident
  rcases ident with alphanum | hyphen
  · simp [NexonSource.isSegmentChar, alphanum]
  · simp [NexonSource.isSegmentChar, hyphen]

theorem identsPlain {valid : List Char → Bool} {cs : List Char} {texts : List String}
    (sound : ∀ part, valid part → ∀ c ∈ part, isIdentChar c) (read : idents? valid (some cs) = some texts) :
    NexonSource.Plain cs := by
  intro c member
  simp only [idents?] at read
  split at read
  next good =>
    rcases splitDotsJoined member with rfl | ⟨part, found, inside⟩
    · decide
    · exact identPlain (sound part (List.all_eq_true.mp good part found) c inside)
  next => cases read

theorem preChars (part : List Char) (valid : isPreIdent part) : ∀ c ∈ part, isIdentChar c := by
  simp only [isPreIdent, Bool.and_eq_true, List.all_eq_true] at valid
  exact valid.1.2

theorem buildChars (part : List Char) (valid : isBuildIdent part) : ∀ c ∈ part, isIdentChar c := by
  simp only [isBuildIdent, Bool.and_eq_true, List.all_eq_true] at valid
  exact valid.2

theorem parsePlain {s : String} {v : Version} (read : parse? s = some v) : NexonSource.Plain s.toList := by
  simp only [parse?] at read
  split at read
  next major minor patch numbers =>
    simp only [Option.bind_eq_bind, Option.bind_eq_some_iff] at read
    obtain ⟨a, first, b, second, c, third, pre, before, build, after, -⟩ := read
    intro char member
    rcases cutJoined '+' member with rfl | front | ⟨rest, found, inside⟩
    · decide
    · rcases cutJoined '-' front with rfl | core | ⟨rest, found, inside⟩
      · decide
      · rcases splitDotsJoined core with rfl | ⟨part, found, inside⟩
        · decide
        · rw [numbers] at found
          simp only [List.mem_cons, List.not_mem_nil, or_false] at found
          rcases found with rfl | rfl | rfl
          · exact numberPlain first char inside
          · exact numberPlain second char inside
          · exact numberPlain third char inside
      · rw [found] at before
        exact identsPlain preChars before char inside
    · rw [found] at after
      exact identsPlain buildChars after char inside
  next => cases read

end Version

/-! Keys. -/

theorem splitOnce {α : Type} {mark : α} {a b c d : List α} (same : a ++ mark :: b = c ++ mark :: d)
    (before : mark ∉ c) (after : mark ∉ d) : a = c ∧ b = d := by
  rcases List.append_eq_append_iff.mp same with ⟨rest, front, back⟩ | ⟨rest, front, back⟩
  · cases rest with
    | nil => simp_all
    | cons first rest =>
      simp only [List.cons_append, List.cons.injEq] at back
      exact absurd (by simp [front, ← back.1]) before
  · cases rest with
    | nil => simp_all
    | cons first rest =>
      simp only [List.cons_append, List.cons.injEq] at back
      exact absurd (by simp [back.2]) after

theorem cacheKeyChars (id : String) (version : Option String) :
    (cacheKey id version).toList = id.toList ++ '@' :: (version.getD "latest").toList := by
  simp [cacheKey]

theorem cacheKeyParts {id id' : String} {version version' : Option String}
    (same : cacheKey id' version' = cacheKey id version) (plainId : NexonSource.Plain id.toList)
    (plainVersion : NexonSource.Plain (version.getD "latest").toList) :
    id' = id ∧ version'.getD "latest" = version.getD "latest" := by
  have chars := congrArg String.toList same
  rw [cacheKeyChars, cacheKeyChars] at chars
  obtain ⟨ids, versions⟩ :=
    splitOnce chars (NexonSource.plainNotAt plainId) (NexonSource.plainNotAt plainVersion)
  exact ⟨String.toList_inj.mp ids, String.toList_inj.mp versions⟩

theorem idOfCacheKey {id : String} (unmarked : '@' ∉ id.toList) (version : Option String) :
    idOfKey (cacheKey id version) = id := by
  have other : ∀ c ∈ id.toList, decide (c ≠ '@') = true := fun c member =>
    decide_eq_true fun equal => unmarked (equal ▸ member)
  rw [idOfKey, cacheKeyChars, List.takeWhile_append_of_pos other]
  simp

theorem latestIsNoVersion : Version.parse? "latest" = none := by decide

theorem latestWordPlain : NexonSource.Plain "latest".toList := by
  have all : "latest".toList.all NexonSource.isSegmentChar = true := by decide
  exact List.all_eq_true.mp all

end Conduit
