import Conduit.Proofs.OrderedJson
import Mathlib.Data.List.Nodup

/-! Values whose objects have their fields in whatever order they were written in. Sorting them loses nothing as long as
no object has two fields of one name, and changes nothing that is in order already. -/
namespace Conduit.Json

def Simple : Json → Prop
  | .arr _ => False
  | .obj _ => False
  | _ => True

/-! What holds of a value if it holds of all in it. -/

structure Cases (P : Json → Prop) : Prop where
  simple : ∀ v : Json, v.Simple → P v
  items : ∀ vs, (∀ v ∈ vs, P v) → P (.arr vs)
  fields : ∀ fs : List (String × Json), (∀ p ∈ fs, P p.2) → P (.obj fs)

mutual
theorem Cases.value {P : Json → Prop} (cases : Cases P) : (v : Json) → P v
  | .arr vs => cases.items vs (cases.all vs)
  | .obj fs => cases.fields fs (cases.named fs)
  | .null => cases.simple .null trivial
  | .bool b => cases.simple (.bool b) trivial
  | .num n => cases.simple (.num n) trivial
  | .str s => cases.simple (.str s) trivial
theorem Cases.all {P : Json → Prop} (cases : Cases P) : (vs : List Json) → ∀ v ∈ vs, P v
  | [] => List.forall_mem_nil _
  | v :: rest => List.forall_mem_cons.mpr ⟨cases.value v, cases.all rest⟩
theorem Cases.named {P : Json → Prop} (cases : Cases P) : (fs : List (String × Json)) → ∀ p ∈ fs, P p.2
  | [] => List.forall_mem_nil _
  | (_, v) :: rest => List.forall_mem_cons.mpr ⟨cases.value v, cases.named rest⟩
end

theorem recurse {P : Json → Prop} (simple : ∀ v : Json, v.Simple → P v) (items : ∀ vs, (∀ v ∈ vs, P v) → P (.arr vs))
    (fields : ∀ fs : List (String × Json), (∀ p ∈ fs, P p.2) → P (.obj fs)) (v : Json) : P v :=
  Cases.value ⟨simple, items, fields⟩ v

/-! Sorting. -/

mutual
def sorted : Json → Json
  | .arr items => .arr (sortedItems items)
  | .obj fields => .obj (Table.ofList (sortedFields fields))
  | .null => .null
  | .bool b => .bool b
  | .num n => .num n
  | .str s => .str s
def sortedItems : List Json → List Json
  | [] => []
  | v :: rest => sorted v :: sortedItems rest
def sortedFields : List (String × Json) → List (String × Json)
  | [] => []
  | (k, v) :: rest => (k, sorted v) :: sortedFields rest
end

mutual
def Distinct : Json → Prop
  | .arr items => DistinctItems items
  | .obj fields => (fields.map (·.1)).Nodup ∧ DistinctFields fields
  | _ => True
def DistinctItems : List Json → Prop
  | [] => True
  | v :: rest => Distinct v ∧ DistinctItems rest
def DistinctFields : List (String × Json) → Prop
  | [] => True
  | (_, v) :: rest => Distinct v ∧ DistinctFields rest
end

theorem sortedItemsMap (items : List Json) : sortedItems items = items.map sorted := by
  induction items with
  | nil => rfl
  | cons v rest ih => rw [sortedItems, ih, List.map_cons]

theorem sortedFieldsMap (fields : List (String × Json)) :
    sortedFields fields = fields.map fun p => (p.1, p.2.sorted) := by
  induction fields with
  | nil => rfl
  | cons p rest ih => rw [sortedFields, ih, List.map_cons]

theorem sortedArr (items : List Json) : (arr items).sorted = .arr (items.map sorted) := by
  rw [sorted, sortedItemsMap]

theorem sortedObj (fields : List (String × Json)) :
    (obj fields).sorted = .obj (Table.ofList (fields.map fun p => (p.1, p.2.sorted))) := by
  rw [sorted, sortedFieldsMap]

theorem distinctArr {items : List Json} : (arr items).Distinct ↔ ∀ v ∈ items, v.Distinct := by
  simp only [Distinct]
  induction items with
  | nil => simp [DistinctItems]
  | cons v rest ih => simp [DistinctItems, ih]

theorem distinctObj {fields : List (String × Json)} :
    (obj fields).Distinct ↔ (fields.map (·.1)).Nodup ∧ ∀ p ∈ fields, p.2.Distinct := by
  rw [Distinct]
  refine and_congr_right' ?_
  induction fields with
  | nil => simp [DistinctFields]
  | cons p rest ih => simp [DistinctFields, ih]

/-! Values in order. -/

theorem sortedSimple {v : Json} (simple : v.Simple) : v.sorted = v := by
  cases v with
  | arr items => cases simple
  | obj fields => cases simple
  | _ => rfl

theorem sortedSame (v : Json) (ordered : v.Ordered) : v.sorted = v := by
  induction v using recurse with
  | simple v simple => exact sortedSimple simple
  | items vs each =>
    have same : vs.map sorted = vs :=
      (List.map_congr_left fun v member => each v member (orderedArr.mp ordered v member)).trans (List.map_id vs)
    rw [sortedArr, same]
  | fields fs each =>
    obtain ⟨table, values⟩ := orderedObj.mp ordered
    have same : fs.map (fun p => (p.1, p.2.sorted)) = fs.map id :=
      List.map_congr_left fun p member => congrArg (Prod.mk p.1) (each p member (values p member))
    rw [sortedObj, same, List.map_id, Table.ofListSame table]

theorem distinctOrdered (v : Json) (ordered : v.Ordered) : v.Distinct := by
  induction v using recurse with
  | simple v simple =>
    cases v with
    | arr items => cases simple
    | obj fields => cases simple
    | _ => trivial
  | items vs each => exact distinctArr.mpr fun v member => each v member (orderedArr.mp ordered v member)
  | fields fs each =>
    obtain ⟨table, values⟩ := orderedObj.mp ordered
    refine distinctObj.mpr ⟨?_, fun p member => each p member (values p member)⟩
    exact List.pairwise_map.mpr (table.imp fun less => String.ne_of_lt less)

/-! What sorting keeps. -/

theorem sortedMember {fields : List (String × Json)} (distinct : (fields.map (·.1)).Nodup) {p : String × Json}
    (member : p ∈ fields) : (p.1, p.2.sorted) ∈ Table.ofList (fields.map fun p => (p.1, p.2.sorted)) := by
  refine Table.memDistinct ?_ (List.mem_map.mpr ⟨p, member, rfl⟩)
  rwa [List.map_map]

theorem depthSorted (v : Json) (distinct : v.Distinct) {n : Nat} (shallow : v.sorted.depth ≤ n) : v.depth ≤ n := by
  induction v using recurse generalizing n with
  | simple v simple => rwa [sortedSimple simple] at shallow
  | items vs each =>
    rw [sortedArr] at shallow
    cases n with
    | zero => simp [depth] at shallow
    | succ n =>
      have lower := depthArr.mp shallow
      exact depthArr.mpr fun v member => each v member (distinctArr.mp distinct v member)
        (lower _ (List.mem_map.mpr ⟨v, member, rfl⟩))
  | fields fs each =>
    rw [sortedObj] at shallow
    cases n with
    | zero => simp [depth] at shallow
    | succ n =>
      obtain ⟨names, values⟩ := distinctObj.mp distinct
      have lower := depthObj.mp shallow
      exact depthObj.mpr fun p member => each p member (values p member) (lower _ (sortedMember names member))

end Conduit.Json
