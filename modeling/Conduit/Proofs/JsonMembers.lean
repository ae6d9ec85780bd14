import Conduit.Json.Shape
import Conduit.Proofs.Tables

/-! Members of objects, by their names. -/
namespace Conduit.Json

theorem fieldOfSome {pairs : List (String × Option Json)} (distinct : (pairs.map (·.1)).Nodup) (name : String) :
    (ofSome pairs).field? name = (Table.get? pairs name).join := by
  rw [ofSome, ofPairs, field?, Table.getOfList]
  induction pairs with
  | nil => rfl
  | cons p rest ih =>
    obtain ⟨k, v⟩ := p
    obtain ⟨fresh, others⟩ := List.nodup_cons.mp distinct
    have ih := ih others
    have absent : Table.get? rest k = none :=
      Option.eq_none_iff_forall_ne_some.mpr fun v found => fresh ((Table.getSome rest k).mp ⟨v, found⟩)
    rw [Table.getCons]
    cases v with
    | none =>
      rw [List.filterMap_cons, Option.map_none, ih]
      split
      next same => rw [same, absent, Option.join_none, Option.join_some]
      next => rfl
    | some v =>
      rw [List.filterMap_cons, Option.map_some, List.reverse_cons, List.find?_append, Option.map_or, ih]
      split
      next same => simp [same, absent]
      next different => simp [Ne.symm different]

theorem pairsSome (pairs : List (String × Json)) : ofPairs pairs = ofSome (pairs.map fun p => (p.1, some p.2)) := by
  rw [ofSome, List.filterMap_map]
  exact congrArg ofPairs List.filterMap_some.symm

theorem fieldOfPairs {pairs : List (String × Json)} (distinct : (pairs.map (·.1)).Nodup) (name : String) :
    (ofPairs pairs).field? name = Table.get? pairs name := by
  rw [pairsSome, fieldOfSome (by simpa [Function.comp_def] using distinct), Table.getOfMap]
  cases Table.get? pairs name <;> rfl

theorem natKept {n : Nat} (small : n < 2 ^ 64) : (nat n).asNat? = some n := by
  rw [nat, Number.ofNat, asNat?, UInt64.toNat_ofNat', Nat.mod_eq_of_lt small]

/-! A member that is `null` counts as none. -/

section

variable {α : Type} {v : Json} {key : String}

theorem memberOfField {w : Json} (found : v.field? key = some w) (some : w ≠ .null) : v.member? key = .some w := by
  rw [member?, found]
  split
  next same => exact absurd (Option.some.inj same) some
  next => rfl

theorem memberNull (found : v.field? key = some .null) : v.member? key = none := by
  rw [member?, found]

theorem memberNone (absent : v.field? key = none) : v.member? key = none := by
  rw [member?, absent]

theorem memberOfMap {f : α → Json} {o : Option α} (given : v.field? key = o.map f) (some : ∀ a, f a ≠ .null) :
    v.member? key = o.map f := by
  cases o with
  | none => exact memberNone given
  | some a => exact memberOfField given (some a)

theorem textGiven {s : String} (given : v.field? key = some (.str s)) (absent : String) : v.textAt key absent = s := by
  rw [textAt, memberOfField given (by simp)]
  rfl

theorem flagGiven {b : Bool} (given : v.field? key = some (.bool b)) : v.flagAt key = b := by
  rw [flagAt, memberOfField given (by simp)]
  rfl

theorem valueGiven {w : Json} (given : v.field? key = some w) : v.valueAt key = w := by
  rw [valueAt, given]
  rfl

theorem itemsGiven {items : List Json} (given : v.field? key = some (.arr items)) : v.itemsAt key = items := by
  rw [itemsAt, memberOfField given (by simp)]
  rfl

theorem itemsUnless {b : Bool} {items : List Json} (given : v.field? key = if b then none else some (.arr items))
    (empty : b = true → items = []) : v.itemsAt key = items := by
  cases b with
  | true => rw [itemsAt, memberNone given, empty rfl]; rfl
  | false => exact itemsGiven given

theorem memberSame {o : Option Json} (given : v.field? key = o) (filled : o ≠ some .null) : v.member? key = o := by
  cases o with
  | none => exact memberNone given
  | some w => exact memberOfField given fun null => filled (congrArg some null)

theorem doubleWritten {o : Option Double} (given : v.field? key = o.map fun d => .num (.real d)) :
    v.doubleAt? key = o := by
  rw [doubleAt?, memberOfMap given (by simp)]
  cases o <;> rfl

theorem natWritten {o : Option Nat} (given : v.field? key = o.map nat) (small : ∀ n ∈ o, n < 2 ^ 64) :
    v.natAt? key = o := by
  rw [natAt?, memberOfMap given (by simp [nat])]
  cases o with
  | none => rfl
  | some n => exact natKept (small n rfl)

theorem textsGiven {texts : List String} (given : v.itemsAt key = texts.map .str) : v.textsAt key = texts := by
  rw [textsAt, given, List.filterMap_map]
  exact List.filterMap_some

theorem textWritten {o : Option String} (given : v.member? key = o.map .str) : v.textAt? key = o := by
  rw [textAt?, given]
  cases o <;> rfl

end

end Conduit.Json
