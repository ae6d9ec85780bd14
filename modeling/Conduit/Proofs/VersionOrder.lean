import Conduit.Nexon.Version
import Conduit.Proofs.Decimals
import Mathlib.Data.List.Lex
import Mathlib.Data.Prod.Lex
import Mathlib.Data.Sum.Order
import Mathlib.Order.WithBot

/-! The order of versions. A version has a rank in a linear order, versions are compared by their ranks and no two have one
rank, so the latest of some versions does not depend on the order in which they are listed. -/
namespace Conduit.Version

/-! Ranks. -/

abbrev IdentRank := (Nat ×ₗ Nat) ⊕ₗ String

def identRank (s : String) : IdentRank :=
  if isNumeric s.toList then toLex (.inl (toLex (Json.natOfDigits s.toList, s.length))) else toLex (.inr s)

def preRank (pre : List String) : WithTop (List IdentRank) := if pre.isEmpty then ⊤ else ↑(pre.map identRank)

abbrev Rank := Nat ×ₗ Nat ×ₗ Nat ×ₗ WithTop (List IdentRank) ×ₗ List IdentRank

def rank (v : Version) : Rank :=
  toLex (v.major, toLex (v.minor, toLex (v.patch, toLex (preRank v.pre, v.build.map identRank))))

section

variable {α β : Type} [LinearOrder α] [LinearOrder β]

theorem comparesSelf (a b : α) : (compare a b).Compares a b := cmp_eq_compare a b ▸ cmp_compares a b

theorem comparesThen {o o' : Ordering} {a b : α} {c d : β} (first : o.Compares a b) (second : o'.Compares c d) :
    (o.then o').Compares (toLex (a, c)) (toLex (b, d)) := by
  cases o with
  | lt => exact Prod.Lex.toLex_lt_toLex.mpr (.inl first)
  | gt => exact Prod.Lex.toLex_lt_toLex.mpr (.inl first)
  | eq =>
    have first : a = b := first
    subst first
    cases o' with
    | lt => exact Prod.Lex.toLex_lt_toLex.mpr (.inr ⟨rfl, second⟩)
    | gt => exact Prod.Lex.toLex_lt_toLex.mpr (.inr ⟨rfl, second⟩)
    | eq => exact congrArg (fun c => toLex (a, c)) second

theorem comparesInto {o : Ordering} {a b : α} (f : α → β) (grows : StrictMono f) (compares : o.Compares a b) :
    o.Compares (f a) (f b) := by
  cases o with
  | lt => exact grows compares
  | eq => exact congrArg f compares
  | gt => exact grows compares

theorem comparesCons {o o' : Ordering} {a b : α} {as bs : List α} (first : o.Compares a b)
    (later : o'.Compares as bs) : (o.then o').Compares (a :: as) (b :: bs) := by
  cases o with
  | lt => exact List.Lex.rel first
  | gt => exact List.Lex.rel first
  | eq =>
    have first : a = b := first
    subst first
    cases o' with
    | lt => exact List.Lex.cons later
    | gt => exact List.Lex.cons later
    | eq => exact congrArg (a :: ·) later

end

theorem compareIdentRank (a b : String) : (compareIdent a b).Compares (identRank a) (identRank b) := by
  unfold compareIdent identRank
  cases digits : isNumeric a.toList <;> cases digits' : isNumeric b.toList
  · exact comparesInto (toLex ∘ Sum.inr) Sum.Lex.inr_strictMono (comparesSelf a b)
  · exact Sum.Lex.inl_lt_inr _ _
  · exact Sum.Lex.inl_lt_inr _ _
  · have numbers := Json.digitsCompared (Json.trimZerosDigits (List.all_eq_true.mp digits))
      (Json.trimZerosDigits (List.all_eq_true.mp digits')) (Json.trimZerosFirst _) (Json.trimZerosFirst _)
    rw [Json.natOfTrimZeros, Json.natOfTrimZeros] at numbers
    have both := comparesThen numbers (comparesSelf a.length b.length)
    rw [Ordering.then_assoc] at both
    exact comparesInto (toLex ∘ Sum.inl) Sum.Lex.inl_strictMono both

theorem compareIdentsRank (as bs : List String) :
    (compareIdents as bs).Compares (as.map identRank) (bs.map identRank) := by
  induction as generalizing bs with
  | nil =>
    cases bs with
    | nil => rfl
    | cons b bs => exact List.Lex.nil
  | cons a as ih =>
    cases bs with
    | nil => exact List.Lex.nil
    | cons b bs =>
      exact comparesCons (compareIdentRank a b) (ih bs)

theorem comparePreRank (as bs : List String) : (comparePre as bs).Compares (preRank as) (preRank bs) := by
  cases as with
  | nil =>
    cases bs with
    | nil => rfl
    | cons b bs => exact WithTop.coe_lt_top _
  | cons a as =>
    cases bs with
    | nil => exact WithTop.coe_lt_top _
    | cons b bs => exact comparesInto WithTop.some WithTop.coe_strictMono (compareIdentsRank (a :: as) (b :: bs))

theorem compareRank (v w : Version) : (v.compare w).Compares v.rank w.rank :=
  comparesThen (comparesSelf v.major w.major) <| comparesThen (comparesSelf v.minor w.minor) <|
    comparesThen (comparesSelf v.patch w.patch) <|
    comparesThen (comparePreRank v.pre w.pre) (compareIdentsRank v.build w.build)

theorem identRankInjective {a b : String} (same : identRank a = identRank b) : a = b := by
  unfold identRank at same
  cases digits : isNumeric a.toList <;> cases digits' : isNumeric b.toList <;> rw [digits, digits'] at same
  · exact Sum.inr.inj same
  · cases same
  · cases same
  · obtain ⟨value, count⟩ := Prod.mk.inj (Sum.inl.inj same)
    have all := List.all_eq_true.mp digits
    have all' := List.all_eq_true.mp digits'
    refine String.toList_inj.mp ?_
    rcases lt_trichotomy a.toList b.toList with less | equal | more
    · exact absurd value (Nat.ne_of_lt (Json.natOfLess all all' count less))
    · exact equal
    · exact absurd value (Nat.ne_of_gt (Json.natOfLess all' all count.symm more))

theorem identRanksInjective : Function.Injective (List.map identRank) :=
  List.map_injective_iff.mpr fun _ _ => identRankInjective

theorem preRankInjective {as bs : List String} (same : preRank as = preRank bs) : as = bs := by
  cases as with
  | nil =>
    cases bs with
    | nil => rfl
    | cons b bs => exact absurd same (WithTop.top_ne_coe)
  | cons a as =>
    cases bs with
    | nil => exact absurd same (WithTop.coe_ne_top)
    | cons b bs => exact identRanksInjective (WithTop.coe_injective same)

theorem rankInjective {v w : Version} (same : v.rank = w.rank) : v = w := by
  obtain ⟨major, same⟩ := Prod.mk.inj same
  obtain ⟨minor, same⟩ := Prod.mk.inj same
  obtain ⟨patch, same⟩ := Prod.mk.inj same
  obtain ⟨pre, build⟩ := Prod.mk.inj same
  cases v
  cases w
  obtain rfl := preRankInjective pre
  obtain rfl := identRanksInjective build
  simp_all

/-! The highest of some versions. -/

theorem newerRank (a b : Version) : newer a b = if a.rank < b.rank then b else a := by
  have compares := compareRank b a
  unfold newer
  cases o : b.compare a with
  | lt =>
    have less : b.rank < a.rank := by simpa [o] using compares
    rw [if_neg (by decide), if_neg less.not_gt]
  | eq =>
    have same : b.rank = a.rank := by simpa [o] using compares
    rw [if_neg (by decide), if_neg same.le.not_gt]
  | gt =>
    have less : a.rank < b.rank := by simpa [o] using compares
    rw [if_pos rfl, if_pos less]

theorem newestMember (v : Version) (others : List Version) : others.foldl newer v ∈ v :: others := by
  induction others generalizing v with
  | nil => exact List.mem_cons_self
  | cons w rest ih =>
    rw [List.foldl_cons]
    rcases List.mem_cons.mp (ih (v.newer w)) with same | later
    · rw [same, newer]
      split
      · exact List.mem_cons_of_mem _ List.mem_cons_self
      · exact List.mem_cons_self
    · exact List.mem_cons_of_mem _ (List.mem_cons_of_mem _ later)

theorem newestAbove (v : Version) (others : List Version) :
    ∀ w ∈ v :: others, w.rank ≤ (others.foldl newer v).rank := by
  induction others generalizing v with
  | nil => exact List.forall_mem_singleton.mpr (le_refl _)
  | cons w rest ih =>
    obtain ⟨here, later⟩ := List.forall_mem_cons.mp (ih (v.newer w))
    have first : v.rank ≤ (v.newer w).rank ∧ w.rank ≤ (v.newer w).rank := by
      rw [newerRank]
      split
      next less => exact ⟨le_of_lt less, le_refl _⟩
      next notLess => exact ⟨le_refl _, not_lt.mp notLess⟩
    exact List.forall_mem_cons.mpr ⟨le_trans first.1 here, List.forall_mem_cons.mpr ⟨le_trans first.2 here, later⟩⟩

theorem latestNone {versions : List Version} : latest? versions = none ↔ versions = [] := by
  cases versions <;> simp [latest?]

theorem latestSome {versions : List Version} {v : Version} :
    latest? versions = some v ↔ v ∈ versions ∧ ∀ w ∈ versions, w.rank ≤ v.rank := by
  cases versions with
  | nil => simp [latest?]
  | cons first rest =>
    constructor
    · intro same
      cases same
      exact ⟨newestMember first rest, newestAbove first rest⟩
    · rintro ⟨member, above⟩
      have below := above _ (newestMember first rest)
      exact congrArg some (rankInjective (le_antisymm below (newestAbove first rest v member)))

end Conduit.Version
