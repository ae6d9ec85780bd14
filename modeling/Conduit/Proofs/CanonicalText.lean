import Conduit.Digest.Content
import Conduit.Proofs.JsonText

/-! A text is the text of one value only. The steps of a reader tell two texts apart: texts that are the same, with
whatever follows them, are those of one value and one remainder, in whatever order its objects have their fields. -/
namespace Conduit

namespace Json

variable (s : Spacing)

theorem quotedSplits {k k' : String} {rest rest' : List Char}
    (same : k.toList.flatMap escape ++ '"' :: rest = k'.toList.flatMap escape ++ '"' :: rest') : k = k' ∧ rest = rest' := by
  have read := congrArg (stringRest []) same
  rw [stringRead, stringRead] at read
  obtain ⟨chars, left⟩ := Prod.mk.inj (Except.ok.inj read)
  exact ⟨String.toList_injective chars, left⟩

/-! What a reader finds where an item or a field may begin. -/

def itemsLeft (indent above : Nat) (rest : List Char) : List Json → Bool × List Char
  | [] => (false, rest)
  | v :: vs => (true, spread s indent v ++ (spreadItems s indent vs ++ (s.gap above ++ ']' :: rest)))

def fieldsLeft (indent above : Nat) (rest : List Char) : List (String × Json) → Bool × List Char
  | [] => (false, rest)
  | (k, v) :: fs =>
    (true, k.toList.flatMap escape ++ '"' :: ':' :: (s.after ++ (spread s indent v
      ++ (spreadFields s indent fs ++ (s.gap above ++ '\x7d' :: rest)))))

theorem itemsNext (indent above : Nat) (rest : List Char) (vs : List Json) :
    nextItem false (spreadItems s indent vs ++ (s.gap above ++ ']' :: rest)) = .ok (itemsLeft s indent above rest vs) := by
  cases vs with
  | nil => exact itemNone (s.gapBlank above) false rest
  | cons v vs =>
    rw [itemsText]
    exact itemLater (s.gapBlank indent) (spreadStarts s indent v) _

theorem fieldsNext (indent above : Nat) (rest : List Char) (fs : List (String × Json)) :
    nextField false (spreadFields s indent fs ++ (s.gap above ++ '\x7d' :: rest))
      = .ok (fieldsLeft s indent above rest fs) := by
  cases fs with
  | nil => exact fieldNone (s.gapBlank above) false rest
  | cons f fs =>
    rw [fieldsText]
    exact fieldLater (s.gapBlank indent) _

theorem arrOpens (indent : Nat) (rest : List Char) (vs : List Json) :
    ∃ inner, spread s indent (.arr vs) ++ rest = '[' :: inner
      ∧ nextItem true inner = .ok (itemsLeft s (indent + 1) indent rest vs) := by
  cases vs with
  | nil => exact ⟨']' :: rest, by rw [spread]; rfl, itemNone (List.forall_mem_nil _) true rest⟩
  | cons v vs => exact ⟨_, arrText s v vs indent rest, itemFirst (s.gapBlank _) (spreadStarts s _ v) _⟩

theorem objOpens (indent : Nat) (rest : List Char) (fs : List (String × Json)) :
    ∃ inner, spread s indent (.obj fs) ++ rest = '\x7b' :: inner
      ∧ nextField true inner = .ok (fieldsLeft s (indent + 1) indent rest fs) := by
  cases fs with
  | nil => exact ⟨'\x7d' :: rest, by rw [spread]; rfl, fieldNone (List.forall_mem_nil _) true rest⟩
  | cons f fs => exact ⟨_, objText s f.1 f.2 fs indent rest, fieldFirst (s.gapBlank _) _⟩

/-! Two texts side by side. -/

theorem simpleSplits {v w : Json} (simple : v.Simple) {indent : Nat} {rest rest' : List Char} (ends : Ends rest)
    (ends' : Ends rest') (same : spread s indent v ++ rest = spread s indent w ++ rest') : v = w ∧ rest = rest' := by
  have read := simpleRead s indent simple ends
  rw [same] at read
  by_cases plain : w.Simple
  · rw [simpleRead s indent plain ends'] at read
    cases read
    exact ⟨rfl, rfl⟩
  · cases w with
    | arr ws =>
      obtain ⟨inner, opened, -⟩ := arrOpens s indent rest' ws
      exact absurd (opened ▸ read) (scalarOpens (.inl rfl) _ _)
    | obj gs =>
      obtain ⟨inner, opened, -⟩ := objOpens s indent rest' gs
      exact absurd (opened ▸ read) (scalarOpens (.inr rfl) _ _)
    | _ => exact absurd trivial plain

mutual
theorem spreadSplits (indent : Nat) : (v w : Json) → {rest rest' : List Char} → Ends rest → Ends rest' →
    spread s indent v ++ rest = spread s indent w ++ rest' → v = w ∧ rest = rest'
  | .null, w, _, _, ends, ends', same => simpleSplits s (v := .null) trivial ends ends' same
  | .bool b, w, _, _, ends, ends', same => simpleSplits s (v := .bool b) trivial ends ends' same
  | .num n, w, _, _, ends, ends', same => simpleSplits s (v := .num n) trivial ends ends' same
  | .str text, w, _, _, ends, ends', same => simpleSplits s (v := .str text) trivial ends ends' same
  | .arr vs, w, rest, rest', ends, ends', same => by
    obtain ⟨inner, opened, next⟩ := arrOpens s indent rest vs
    by_cases simple : w.Simple
    · exact (simpleSplits s simple ends' ends same.symm).imp Eq.symm Eq.symm
    · cases w with
      | arr ws =>
        obtain ⟨inner', opened', next'⟩ := arrOpens s indent rest' ws
        obtain rfl : inner = inner' := by simpa [opened, opened'] using same
        obtain ⟨rfl, left⟩ := itemsSplits (indent + 1) indent vs ws (Except.ok.inj (next.symm.trans next'))
        exact ⟨rfl, left⟩
      | obj gs =>
        obtain ⟨inner', opened', -⟩ := objOpens s indent rest' gs
        rw [opened, opened'] at same
        exact absurd (List.cons.inj same).1 (by decide)
      | _ => exact absurd trivial simple
  | .obj fs, w, rest, rest', ends, ends', same => by
    obtain ⟨inner, opened, next⟩ := objOpens s indent rest fs
    by_cases simple : w.Simple
    · exact (simpleSplits s simple ends' ends same.symm).imp Eq.symm Eq.symm
    · cases w with
      | arr ws =>
        obtain ⟨inner', opened', -⟩ := arrOpens s indent rest' ws
        rw [opened, opened'] at same
        exact absurd (List.cons.inj same).1 (by decide)
      | obj gs =>
        obtain ⟨inner', opened', next'⟩ := objOpens s indent rest' gs
        obtain rfl : inner = inner' := by simpa [opened, opened'] using same
        obtain ⟨rfl, left⟩ := fieldsSplits (indent + 1) indent fs gs (Except.ok.inj (next.symm.trans next'))
        exact ⟨rfl, left⟩
      | _ => exact absurd trivial simple
theorem itemsSplits (indent above : Nat) : (vs ws : List Json) → {rest rest' : List Char} →
    itemsLeft s indent above rest vs = itemsLeft s indent above rest' ws → vs = ws ∧ rest = rest'
  | [], [], _, _, same => ⟨rfl, (Prod.mk.inj same).2⟩
  | [], _ :: _, _, _, same => Bool.noConfusion (Prod.mk.inj same).1
  | _ :: _, [], _, _, same => Bool.noConfusion (Prod.mk.inj same).1
  | v :: vs, w :: ws, rest, rest', same => by
    obtain ⟨rfl, later⟩ := spreadSplits indent v w (itemsEnd s vs above indent rest) (itemsEnd s ws above indent rest')
      (Prod.mk.inj same).2
    have next := congrArg (nextItem false) later
    rw [itemsNext, itemsNext] at next
    obtain ⟨rfl, left⟩ := itemsSplits indent above vs ws (Except.ok.inj next)
    exact ⟨rfl, left⟩
theorem fieldsSplits (indent above : Nat) : (fs gs : List (String × Json)) → {rest rest' : List Char} →
    fieldsLeft s indent above rest fs = fieldsLeft s indent above rest' gs → fs = gs ∧ rest = rest'
  | [], [], _, _, same => ⟨rfl, (Prod.mk.inj same).2⟩
  | [], _ :: _, _, _, same => Bool.noConfusion (Prod.mk.inj same).1
  | _ :: _, [], _, _, same => Bool.noConfusion (Prod.mk.inj same).1
  | (k, v) :: fs, (k', w) :: gs, rest, rest', same => by
    obtain ⟨rfl, afterName⟩ := quotedSplits (Prod.mk.inj same).2
    have text := List.append_cancel_left (List.cons.inj afterName).2
    obtain ⟨rfl, later⟩ := spreadSplits indent v w (fieldsEnd s fs above indent rest) (fieldsEnd s gs above indent rest')
      text
    have next := congrArg (nextField false) later
    rw [fieldsNext, fieldsNext] at next
    obtain ⟨rfl, left⟩ := fieldsSplits indent above fs gs (Except.ok.inj next)
    exact ⟨rfl, left⟩
end

end Json

theorem canonicalUnambiguous {v w : Json} (same : Text.utf8 (canonical v) = Text.utf8 (canonical w)) : v = w := by
  have chars : v.compactChars = w.compactChars := String.ofList_injective (Text.utf8_injective same)
  rw [← Json.spreadCompact 0, ← Json.spreadCompact 0] at chars
  exact (Json.spreadSplits .compact 0 v w Json.endsNil Json.endsNil (by rw [chars])).1

theorem regivenUnambiguous :
    let v : Json := .ofPairs [("z", .arr [.nat 1, .str "1"]), ("a", .ofPairs [("d", .null), ("c", .str "\",\"d")])]
    let w : Json := .ofPairs
      [("a", .bool true), ("a", .ofPairs [("c", .str "\",\"d"), ("d", .null)]), ("z", .arr [.nat 1, .str "1"])]
    Text.utf8 (canonical v) = Text.utf8 (canonical w) ∧ v = w := by
  intro v w
  have same : Text.utf8 (canonical v) = Text.utf8 (canonical w) := by decide +kernel
  exact ⟨same, canonicalUnambiguous same⟩

end Conduit
