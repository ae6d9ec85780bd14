import Conduit.Json.ShapeReader
import Conduit.Proofs.Outcomes
import Conduit.Proofs.Tables

/-! Values all of whose objects have their fields in order, as every reader makes them. Only such a value
is the one that its own text is read as. -/
namespace Conduit.Json

mutual
def Ordered : Json → Prop
  | .arr items => OrderedItems items
  | .obj fields => Table.Ordered fields ∧ OrderedFields fields
  | _ => True
def OrderedItems : List Json → Prop
  | [] => True
  | v :: rest => Ordered v ∧ OrderedItems rest
def OrderedFields : List (String × Json) → Prop
  | [] => True
  | (_, v) :: rest => Ordered v ∧ OrderedFields rest
end

mutual
def decideOrdered : (v : Json) → Decidable v.Ordered
  | .arr items => decideItems items
  | .obj fields => @instDecidableAnd _ _ (inferInstanceAs (Decidable (List.Pairwise _ fields))) (decideFields fields)
  | .null => .isTrue trivial
  | .bool _ => .isTrue trivial
  | .num _ => .isTrue trivial
  | .str _ => .isTrue trivial
def decideItems : (items : List Json) → Decidable (OrderedItems items)
  | [] => .isTrue trivial
  | v :: rest => @instDecidableAnd _ _ (decideOrdered v) (decideItems rest)
def decideFields : (fields : List (String × Json)) → Decidable (OrderedFields fields)
  | [] => .isTrue trivial
  | (_, v) :: rest => @instDecidableAnd _ _ (decideOrdered v) (decideFields rest)
end

instance : DecidablePred Ordered := decideOrdered

theorem orderedArr {items : List Json} : (arr items).Ordered ↔ ∀ v ∈ items, v.Ordered := by
  simp only [Ordered]
  induction items with
  | nil => simp [OrderedItems]
  | cons v rest ih => simp [OrderedItems, ih]

theorem orderedFields {fields : List (String × Json)} :
    OrderedFields fields ↔ ∀ p ∈ fields, p.2.Ordered := by
  induction fields with
  | nil => simp [OrderedFields]
  | cons p rest ih => simp [OrderedFields, ih]

theorem orderedObj {fields : Fields} :
    (obj fields).Ordered ↔ Table.Ordered fields ∧ ∀ p ∈ fields, p.2.Ordered := by
  rw [Ordered, orderedFields]

theorem depthArr {items : List Json} {n : Nat} :
    (arr items).depth ≤ n + 1 ↔ ∀ v ∈ items, v.depth ≤ n := by
  simp only [depth, Nat.add_le_add_iff_right]
  induction items with
  | nil => simp [depthItems]
  | cons v rest ih => rw [depthItems, Nat.max_le, ih, List.forall_mem_cons]

theorem depthObj {fields : Fields} {n : Nat} :
    (obj fields).depth ≤ n + 1 ↔ ∀ p ∈ fields, p.2.depth ≤ n := by
  simp only [depth, Nat.add_le_add_iff_right]
  induction fields with
  | nil => simp [depthFields]
  | cons p rest ih => rw [depthFields, Nat.max_le, ih, List.forall_mem_cons]

/-! What is built of ordered values. -/

theorem orderedInsert {k : String} {v : Json} {fields : Fields} (value : v.Ordered)
    (ordered : (obj fields).Ordered) : (obj (Table.insert k v fields)).Ordered := by
  rw [orderedObj] at ordered ⊢
  refine ⟨Table.insertOrdered k v ordered.1, fun p member => ?_⟩
  rcases Table.memInsert member with rfl | member
  · exact value
  · exact ordered.2 p member

theorem orderedOfPairs {pairs : List (String × Json)} (values : ∀ p ∈ pairs, p.2.Ordered) :
    (ofPairs pairs).Ordered :=
  orderedObj.mpr ⟨Table.ofListOrdered pairs, fun p member => values p (Table.memOfList member)⟩

theorem depthOfPairs {pairs : List (String × Json)} {n : Nat} (values : ∀ p ∈ pairs, p.2.depth ≤ n) :
    (ofPairs pairs).depth ≤ n + 1 :=
  depthObj.mpr fun p member => values p (Table.memOfList member)

theorem orderedStrings (items : List String) : (strings items).Ordered := by
  simp only [strings, orderedArr, List.mem_map]
  rintro v ⟨s, -, rfl⟩
  trivial

theorem orderedDouble (d : Option Double) : (double d).Ordered := by cases d <;> trivial

/-! What an ordered value holds. -/

theorem orderedField {v w : Json} {name : String} (ordered : v.Ordered) (found : v.field? name = some w) :
    w.Ordered := by
  cases v with
  | obj fields => exact (orderedObj.mp ordered).2 (name, w) (Table.memOfGet found)
  | _ => cases found

theorem orderedMember {v w : Json} {name : String} (ordered : v.Ordered)
    (found : v.member? name = some w) : w.Ordered := by
  unfold member? at found
  split at found
  · cases found
  · exact orderedField ordered found

theorem orderedValueAt {v : Json} (name : String) (ordered : v.Ordered) : (v.valueAt name).Ordered := by
  unfold valueAt
  cases found : v.field? name with
  | none => trivial
  | some w => exact orderedField ordered found

theorem orderedItemsAt {v : Json} {name : String} (ordered : v.Ordered) :
    ∀ w ∈ v.itemsAt name, w.Ordered := by
  unfold itemsAt
  cases found : v.member? name with
  | none => simp
  | some w =>
    have inner := orderedMember ordered found
    cases w with
    | arr items => exact orderedArr.mp inner
    | _ => simp [asArray?]

theorem orderedFieldsAt {v : Json} {name : String} (ordered : v.Ordered) :
    (obj (v.fieldsAt name)).Ordered := by
  unfold fieldsAt
  cases found : v.member? name with
  | none => exact orderedObj.mpr ⟨List.Pairwise.nil, by simp⟩
  | some w =>
    have inner := orderedMember ordered found
    cases w with
    | obj fields => exact inner
    | _ => exact orderedObj.mpr ⟨List.Pairwise.nil, by simp [asObject?]⟩

/-! Values of few levels. -/

def Within (levels : Nat) (v : Json) : Prop := v.Ordered ∧ v.depth ≤ levels

theorem withinItems {n : Nat} {items : List Json} : (arr items).Within (n + 1) ↔ ∀ v ∈ items, v.Within n := by
  rw [Within, orderedArr, depthArr]
  exact ⟨fun ⟨ordered, low⟩ v member => ⟨ordered v member, low v member⟩,
    fun each => ⟨fun v member => (each v member).1, fun v member => (each v member).2⟩⟩

theorem withinFields {n : Nat} {fields : Fields} :
    (obj fields).Within (n + 1) ↔ Table.Ordered fields ∧ ∀ p ∈ fields, p.2.Within n := by
  rw [Within, orderedObj, depthObj]
  exact ⟨fun ⟨⟨table, ordered⟩, low⟩ => ⟨table, fun p member => ⟨ordered p member, low p member⟩⟩,
    fun ⟨table, each⟩ => ⟨⟨table, fun p member => (each p member).1⟩, fun p member => (each p member).2⟩⟩

theorem levelArr {n : Nat} {items : List Json} (within : (arr items).Within n) : ∃ m, n = m + 1 :=
  Nat.exists_eq_succ_of_ne_zero fun none => by simp [Within, none, depth] at within

theorem levelObj {n : Nat} {fields : Fields} (within : (obj fields).Within n) : ∃ m, n = m + 1 :=
  Nat.exists_eq_succ_of_ne_zero fun none => by simp [Within, none, depth] at within

theorem withinMore {m n : Nat} {v : Json} (within : v.Within m) (more : m ≤ n) : v.Within n :=
  ⟨within.1, Nat.le_trans within.2 more⟩

theorem withinStr (n : Nat) (s : String) : (str s).Within n := ⟨trivial, Nat.zero_le n⟩

theorem withinBool (n : Nat) (b : Bool) : (bool b).Within n := ⟨trivial, Nat.zero_le n⟩

theorem withinNat (n m : Nat) : (nat m).Within n := ⟨trivial, Nat.zero_le n⟩

theorem withinArr {n : Nat} {items : List Json} (values : ∀ v ∈ items, v.Within n) : (arr items).Within (n + 1) :=
  withinItems.mpr values

theorem withinStrings (n : Nat) (items : List String) : (strings items).Within (n + 1) := by
  refine withinArr fun v member => ?_
  obtain ⟨s, -, rfl⟩ := List.mem_map.mp member
  exact withinStr n s

theorem withinPairs {n : Nat} {pairs : List (String × Json)} (values : ∀ p ∈ pairs, p.2.Within n) :
    (ofPairs pairs).Within (n + 1) :=
  ⟨orderedOfPairs fun p member => (values p member).1, depthOfPairs fun p member => (values p member).2⟩

theorem withinTable {α : Type} {n : Nat} {table : Table α} {f : String × α → Json} (ordered : Table.Ordered table)
    (values : ∀ p ∈ table, (f p).Within n) : (obj (table.map fun p => (p.1, f p))).Within (n + 1) := by
  have same : Table.names (table.map fun p => (p.1, f p)) = Table.names table := by simp [Table.names]
  have each : ∀ q ∈ table.map fun p => (p.1, f p), q.2.Within n := by
    intro q member
    obtain ⟨p, entry, rfl⟩ := List.mem_map.mp member
    exact values p entry
  exact ⟨orderedObj.mpr ⟨(Table.orderedNames same).mpr ordered, fun q member => (each q member).1⟩,
    depthObj.mpr fun q member => (each q member).2⟩

theorem withinSome {n : Nat} {pairs : List (String × Option Json)}
    (values : ∀ p ∈ pairs, ∀ v, p.2 = some v → v.Within n) : (ofSome pairs).Within (n + 1) := by
  refine withinPairs fun q member => ?_
  obtain ⟨p, among, same⟩ := List.mem_filterMap.mp member
  obtain ⟨v, found, rfl⟩ := Option.map_eq_some_iff.mp same
  exact values p among v found

theorem withinMap {α : Type} {n : Nat} {f : α → Json} {o : Option α} (each : ∀ a ∈ o, (f a).Within n) :
    ∀ v, o.map f = some v → v.Within n := by
  intro v found
  obtain ⟨a, given, rfl⟩ := Option.map_eq_some_iff.mp found
  exact each a given

theorem withinText {n : Nat} (o : Option String) : ∀ v, o.map str = some v → v.Within n :=
  withinMap fun s _ => withinStr n s

section

variable {n : Nat} {v w : Json} {name : String}

theorem withinField (within : v.Within (n + 1)) (found : v.field? name = some w) : w.Within n := by
  cases v with
  | obj fields => exact ⟨orderedField within.1 found, depthObj.mp within.2 _ (Table.memOfGet found)⟩
  | _ => cases found

theorem withinMember (within : v.Within (n + 1)) (found : v.member? name = some w) : w.Within n := by
  unfold member? at found
  split at found
  · cases found
  · exact withinField within found

theorem withinValueAt (within : v.Within (n + 1)) : (v.valueAt name).Within n := by
  unfold valueAt
  cases found : v.field? name with
  | none => exact ⟨trivial, Nat.zero_le n⟩
  | some w => exact withinField within found

theorem withinItemsAt (within : v.Within (n + 2)) : ∀ w ∈ v.itemsAt name, w.Within n := by
  unfold itemsAt
  cases found : v.member? name with
  | none => simp
  | some w =>
    have inner := withinMember within found
    cases w with
    | arr items => exact fun w member => ⟨orderedArr.mp inner.1 w member, depthArr.mp inner.2 w member⟩
    | _ => simp [asArray?]

theorem withinFieldsAt (within : v.Within (n + 2)) : (obj (v.fieldsAt name)).Within (n + 1) := by
  have empty : (obj []).Within (n + 1) :=
    ⟨orderedObj.mpr ⟨List.Pairwise.nil, List.forall_mem_nil _⟩, by simp [depth, depthFields]⟩
  unfold fieldsAt
  cases found : v.member? name with
  | none => exact empty
  | some w =>
    have inner := withinMember within found
    cases w with
    | obj fields => exact inner
    | _ => exact empty

end

/-! What is read. -/

theorem scalarFlat {cs rest : List Char} {v : Json} (read : scalar cs = .ok (v, rest)) :
    v.Ordered ∧ v.depth = 0 := by
  unfold scalar at read
  split at read
  · cases read
  all_goals first
    | (simp only [Outcome.bindOk] at read
       obtain ⟨_, _, same⟩ := read
       cases same
       exact ⟨trivial, rfl⟩)
    | (split at read
       · simp only [Outcome.bindOk] at read
         obtain ⟨_, _, same⟩ := read
         cases same
         exact ⟨trivial, rfl⟩
       · cases read)

def Fits (depth : Nat) (v : Json) : Prop := v.Within (depth - 1)

def FitFields (depth : Nat) (fs : Fields) : Prop := Table.Ordered fs ∧ ∀ p ∈ fs, Fits depth p.2

theorem fitInsert {depth : Nat} {k : String} {v : Json} {fs : Fields} (value : Fits depth v)
    (fit : FitFields depth fs) : FitFields depth (Table.insert k v fs) := by
  refine ⟨Table.insertOrdered k v fit.1, fun p member => ?_⟩
  rcases Table.memInsert member with rfl | member
  · exact value
  · exact fit.2 p member

theorem fitEmpty (depth : Nat) : FitFields depth [] := ⟨List.Pairwise.nil, List.forall_mem_nil _⟩

-- The equations are derived here, once, before the proofs that need them are checked side by side.
attribute [local simp] value items fields

structure Reads (fuel : Nat) : Prop where
  value : ∀ {depth cs v rest}, value depth fuel cs = .ok (v, rest) → Fits depth v
  items : ∀ {depth first cs vs rest}, items depth fuel first cs = .ok (vs, rest) → ∀ v ∈ vs, Fits depth v
  fields : ∀ {depth first before cs fs rest}, fields depth fuel first before cs = .ok (fs, rest) →
    FitFields depth before → FitFields depth fs

theorem readsNone : Reads 0 where
  value read := by simp [failAt] at read
  items read := by simp [failAt] at read
  fields read := by simp [failAt] at read

section

variable {fuel : Nat} (below : Reads fuel)
include below

theorem readValue {depth : Nat} {cs rest : List Char} {v : Json} (read : value depth (fuel + 1) cs = .ok (v, rest)) :
    Fits depth v := by
  simp only [value] at read
  split at read
  · split at read
    · cases read
    next deep =>
      simp only [Outcome.bindOk] at read
      obtain ⟨⟨vs, after⟩, inside, same⟩ := read
      cases same
      obtain ⟨n, rfl⟩ : ∃ n, depth = n + 2 := ⟨depth - 2, by omega⟩
      exact withinArr (below.items inside)
  · split at read
    · cases read
    next deep =>
      simp only [Outcome.bindOk] at read
      obtain ⟨⟨fs, after⟩, inside, same⟩ := read
      cases same
      obtain ⟨n, rfl⟩ : ∃ n, depth = n + 2 := ⟨depth - 2, by omega⟩
      exact withinFields.mpr (below.fields inside (fitEmpty _))
  · obtain ⟨ordered, flat⟩ := scalarFlat read
    exact ⟨ordered, by omega⟩

theorem readItems {depth : Nat} {first : Bool} {cs rest : List Char} {vs : List Json}
    (read : items depth (fuel + 1) first cs = .ok (vs, rest)) : ∀ v ∈ vs, Fits depth v := by
  simp only [items, Outcome.bindOk] at read
  obtain ⟨⟨more, after⟩, -, read⟩ := read
  cases more with
  | false =>
    cases read
    exact List.forall_mem_nil _
  | true =>
    simp only [Outcome.bindOk] at read
    obtain ⟨⟨v, afterValue⟩, here, ⟨others, last⟩, later, same⟩ := read
    cases same
    exact List.forall_mem_cons.mpr ⟨below.value here, below.items later⟩

theorem readFields {depth : Nat} {first : Bool} {before fs : Fields} {cs rest : List Char}
    (read : fields depth (fuel + 1) first before cs = .ok (fs, rest)) (fit : FitFields depth before) :
    FitFields depth fs := by
  simp only [fields, Outcome.bindOk] at read
  obtain ⟨⟨more, after⟩, -, read⟩ := read
  cases more with
  | false =>
    cases read
    exact fit
  | true =>
    simp only [Outcome.bindOk] at read
    obtain ⟨⟨name, afterName⟩, -, afterColon, -, ⟨v, afterValue⟩, here, later⟩ := read
    exact below.fields later (fitInsert (below.value here) fit)

end

theorem readFits (fuel : Nat) : Reads fuel := by
  induction fuel with
  | zero => exact readsNone
  | succ fuel below => exact ⟨readValue below, readItems below, readFields below⟩

theorem valueFits {depth fuel : Nat} {cs rest : List Char} {v : Json}
    (read : value depth fuel cs = .ok (v, rest)) : Fits depth v := (readFits fuel).value read

theorem parseFits {text : String} {v : Json} (read : parse text = .ok v) : v.Within 127 := by
  simp only [parse, Outcome.mapErrorOk, parseChars, Outcome.bindOk] at read
  obtain ⟨⟨w, rest⟩, inside, last⟩ := read
  unfold finish at last
  split at last
  · cases last
    exact valueFits inside
  · cases last

/-! What is admitted under a shape. It has no more levels than what it is made of. -/

namespace Shape

attribute [local simp] conform conformField conformItems scan scanItems scanMap scanFields scanMembers

theorem withinFlat {n : Nat} {v : Json} (flat : v.Within 0) : v.Within n := withinMore flat (Nat.zero_le n)

theorem requiredWithin {n : Nat} {known : List Field} {present : Fields} {w : Json}
    (within : (obj present).Within n) (read : withRequired known present = .ok w) : w.Within n := by
  unfold withRequired at read
  split at read
  · cases read
  · cases read
    exact within

theorem naturalFlat {width : Width} {v w : Json} (read : readNatural width v = .ok w) : w.Within 0 := by
  unfold readNatural at read
  split at read
  · split at read
    · cases read
      exact ⟨trivial, Nat.le_refl 0⟩
    · cases read
  · cases read
  · cases read

theorem instantFlat {v w : Json} (read : readInstant v = .ok w) : w.Within 0 := by
  unfold readInstant at read
  split at read
  · split at read
    · cases read
      exact withinStr 0 _
    · cases read
  · cases read

theorem wordFlat {words : List String} {word : String} {w : Json} (read : knownVariant words word = .ok w) :
    w.Within 0 := by
  unfold knownVariant at read
  split at read
  · cases read
    exact withinStr 0 _
  · cases read

theorem choiceFlat {words : List String} {v w : Json} (read : readChoice words v = .ok w) : w.Within 0 := by
  unfold readChoice at read
  split at read
  · exact wordFlat read
  · obtain ⟨chosen, known, read⟩ := Outcome.bindOk.mp read
    split at read
    · cases read
      exact wordFlat known
    · cases read
  · cases read
  · cases read

theorem withinAmong {n : Nat} {fields kept results : Fields} {R : String × Json → String × Json → Prop}
    (within : (obj fields).Within (n + 1)) (among : kept.Sublist fields) (matched : List.Forall₂ R kept results)
    (names : ∀ a b, R a b → b.1 = a.1) (values : ∀ a b, R a b → a.2.Within n → b.2.Within n) :
    (obj results).Within (n + 1) := by
  rw [withinFields] at within ⊢
  have before : Table.Ordered kept := within.1.sublist among
  have each : ∀ p ∈ kept, p.2.Within n := fun p member => within.2 p (among.subset member)
  clear within among
  induction matched with
  | nil => exact ⟨List.Pairwise.nil, List.forall_mem_nil _⟩
  | @cons a b kept results related matched ih =>
    obtain ⟨first, rest⟩ := List.pairwise_cons.mp before
    obtain ⟨ordered, inner⟩ := ih rest fun p member => each p (List.mem_cons_of_mem _ member)
    refine ⟨List.pairwise_cons.mpr ⟨fun p member => ?_, ordered⟩, ?_⟩
    · obtain ⟨q, found, same⟩ := Outcome.matchedMember matched member
      rw [names a b related, names q p same]
      exact first q found
    · exact List.forall_mem_cons.mpr ⟨values a b related (each a List.mem_cons_self), inner⟩

section

variable {n : Nat} {inner : Shape}
  (each : ∀ {n : Nat} {v w : Json}, v.Within n → conform inner v = .ok w → w.Within n)
include each

theorem conformListWithin {v w : Json} (within : v.Within n) (read : conform (.list inner) v = .ok w) : w.Within n := by
  cases v with
  | arr items =>
    simp only [conform, Outcome.bindOk] at read
    obtain ⟨results, all, same⟩ := read
    cases same
    obtain ⟨n, rfl⟩ := levelArr within
    refine withinArr fun w member => ?_
    obtain ⟨v, item, admitted⟩ := Outcome.matchedMember (Outcome.mapMOk all) member
    exact each (withinItems.mp within v item) admitted
  | _ => simp at read

theorem conformMapWithin {v w : Json} (within : v.Within n) (read : conform (.map inner) v = .ok w) : w.Within n := by
  cases v with
  | obj fields =>
    simp only [conform, Outcome.bindOk] at read
    obtain ⟨results, all, same⟩ := read
    cases same
    obtain ⟨n, rfl⟩ := levelObj within
    refine withinAmong within (List.Sublist.refl _) (Outcome.mapMOk all) ?_ ?_
    · intro a b step
      obtain ⟨_, _, same⟩ := Outcome.bindOk.mp step
      cases same
      rfl
    · intro a b step inside
      obtain ⟨x, admitted, same⟩ := Outcome.bindOk.mp step
      cases same
      exact each inside admitted
  | _ => simp at read

end

section

variable {n : Nat} {known : List Field}
  (field : ∀ {n : Nat} {name : String} {v w : Json}, v.Within n → conformField known name v = .ok (some w) → w.Within n)
include field

theorem conformOpenWithin {name : String} {v w : Json} (within : v.Within n)
    (read : conform (.openRecord name known) v = .ok w) : w.Within n := by
  cases v with
  | obj fields =>
    simp only [conform, Outcome.bindOk] at read
    obtain ⟨results, all, same⟩ := read
    cases same
    obtain ⟨n, rfl⟩ := levelObj within
    refine withinAmong within (List.Sublist.refl _) (Outcome.mapMOk all) ?_ ?_
    · intro a b step
      obtain ⟨x, _, same⟩ := Outcome.bindOk.mp step
      cases x <;> cases same <;> rfl
    · intro a b step inside
      obtain ⟨x, found, same⟩ := Outcome.bindOk.mp step
      cases x with
      | none =>
        cases same
        exact inside
      | some x =>
        cases same
        exact field inside found
  | _ => simp at read

theorem conformRecordWithin
    (members : ∀ {n : Nat} {name : String} {count index : Nat} {items : List Json} {present : List (String × Json)},
      (∀ v ∈ items, v.Within n) → conformItems name count index known items = .ok present → ∀ p ∈ present, p.2.Within n)
    {name : String} {v w : Json} (within : v.Within n) (read : conform (.record name known) v = .ok w) : w.Within n := by
  cases v with
  | obj fields =>
    simp only [conform, Outcome.bindOk] at read
    obtain ⟨present, all, read⟩ := read
    obtain ⟨kept, among, matched⟩ := Outcome.filterMapMOk all
    obtain ⟨n, rfl⟩ := levelObj within
    refine requiredWithin (withinAmong within among matched ?_ ?_) read
    · intro a b step
      obtain ⟨x, _, same⟩ := Outcome.bindOk.mp step
      cases x <;> cases same
      rfl
    · intro a b step inside
      obtain ⟨x, found, same⟩ := Outcome.bindOk.mp step
      cases x <;> cases same
      exact field inside found
  | arr items =>
    simp only [conform, Outcome.bindOk] at read
    obtain ⟨present, all, same⟩ := read
    cases same
    obtain ⟨n, rfl⟩ := levelArr within
    exact withinPairs (members (withinItems.mp within) all)
  | _ => simp at read

end

mutual
theorem conformWithin : (shape : Shape) → {n : Nat} → {v w : Json} → v.Within n → conform shape v = .ok w → w.Within n
  | .any, n, v, w, within, read => by
    simp only [conform, Except.ok.injEq] at read
    exact read ▸ within
  | .string, n, v, w, within, read => by
    cases v with
    | str s =>
      simp only [conform, Except.ok.injEq] at read
      exact read ▸ within
    | _ => simp at read
  | .bool, n, v, w, within, read => by
    cases v with
    | bool b =>
      simp only [conform, Except.ok.injEq] at read
      exact read ▸ within
    | _ => simp at read
  | .natural width, n, v, w, _, read => by
    simp only [conform] at read
    exact withinFlat (naturalFlat read)
  | .double, n, v, w, _, read => by
    cases v with
    | num x =>
      simp only [conform, Except.ok.injEq] at read
      subst read
      exact ⟨trivial, Nat.zero_le n⟩
    | _ => simp at read
  | .instant, n, v, w, _, read => by
    simp only [conform] at read
    exact withinFlat (instantFlat read)
  | .option inner, n, v, w, within, read => by
    cases v with
    | null =>
      simp only [conform, Except.ok.injEq] at read
      exact read ▸ within
    | _ =>
      simp only [conform] at read
      exact conformWithin inner within read
  | .list inner, n, v, w, within, read => conformListWithin (conformWithin inner) within read
  | .map inner, n, v, w, within, read => conformMapWithin (conformWithin inner) within read
  | .choice words, n, v, w, _, read => by
    simp only [conform] at read
    exact withinFlat (choiceFlat read)
  | .record name known, n, v, w, within, read =>
    conformRecordWithin (conformFieldWithin known) (conformItemsWithin known) within read
  | .openRecord name known, n, v, w, within, read => conformOpenWithin (conformFieldWithin known) within read
  | .either type first second, n, v, w, within, read => by
    simp only [conform] at read
    split at read
    next found =>
      cases read
      exact conformWithin first within found
    next =>
      split at read
      next found =>
        cases read
        exact conformWithin second within found
      next => cases read
theorem conformFieldWithin : (known : List Field) → {n : Nat} → {name : String} → {v w : Json} → v.Within n →
    conformField known name v = .ok (some w) → w.Within n
  | [], n, name, v, w, _, read => by simp at read
  | (field, shape, needed) :: rest, n, name, v, w, within, read => by
    simp only [conformField] at read
    split at read
    · obtain ⟨x, here, same⟩ := Outcome.bindOk.mp read
      cases same
      exact conformWithin shape within here
    · exact conformFieldWithin rest within read
theorem conformItemsWithin : (known : List Field) → {n : Nat} → {name : String} → {count index : Nat} →
    {items : List Json} → {present : List (String × Json)} → (∀ v ∈ items, v.Within n) →
    conformItems name count index known items = .ok present → ∀ p ∈ present, p.2.Within n
  | [], n, name, count, index, items, present, _, read => by
    cases items with
    | nil =>
      simp only [conformItems, Except.ok.injEq] at read
      subst read
      exact List.forall_mem_nil _
    | cons v rest => simp at read
  | (field, shape, needed) :: rest, n, name, count, index, items, present, within, read => by
    cases items with
    | nil =>
      simp only [conformItems] at read
      split at read
      · cases read
      · exact conformItemsWithin rest (List.forall_mem_nil _) read
    | cons v others =>
      simp only [conformItems, Outcome.bindOk] at read
      obtain ⟨w, here, more, later, same⟩ := read
      cases same
      obtain ⟨first, others⟩ := List.forall_mem_cons.mp within
      exact List.forall_mem_cons.mpr ⟨conformWithin shape first here, conformItemsWithin rest others later⟩
end

/-! What is read from text under a shape. -/

theorem refuseNever {α : Type} {expected : String} {cs : List Char} {a : α} :
    refuse expected cs ≠ .ok a := by
  intro read
  unfold refuse at read
  split at read
  · cases read
  · cases read
  · obtain ⟨_, _, failed⟩ := Outcome.bindOk.mp read
    cases failed

theorem entered {depth inside : Nat} {cs : List Char} (allowed : enter depth cs = .ok inside) :
    ∃ n, depth = n + 2 ∧ inside = n + 1 := by
  unfold enter at allowed
  split at allowed
  · cases allowed
  · cases allowed
    exact ⟨depth - 2, by omega, by omega⟩

theorem scanScalarFlat {shape : Shape} {expected : String} {starts : Char → Bool} {cs rest : List Char}
    {v : Json} (read : scanScalar shape expected starts cs = .ok (v, rest)) : v.Within 0 := by
  unfold scanScalar at read
  split at read
  · cases read
  · split at read
    · simp only [Outcome.bindOk] at read
      obtain ⟨⟨w, after⟩, simple, read⟩ := read
      split at read
      next admitted =>
        cases read
        obtain ⟨ordered, flat⟩ := scalarFlat simple
        exact conformWithin shape ⟨ordered, Nat.le_of_eq flat⟩ admitted
      next => cases read
    · exact absurd read refuseNever

theorem scanVariantFlat {words : List String} {cs rest : List Char} {v : Json}
    (read : scanVariantMap words cs = .ok (v, rest)) : v.Within 0 := by
  unfold scanVariantMap at read
  split at read
  · cases read
  · cases read
  · simp only [Outcome.bindOk] at read
    obtain ⟨⟨name, after⟩, -, read⟩ := read
    split at read
    next => cases read
    next chosen known =>
      obtain ⟨_, -, read⟩ := Outcome.bindOk.mp read
      split at read
      · cases read
      · obtain ⟨_, -, read⟩ := Outcome.bindOk.mp read
        split at read
        · cases read
          exact wordFlat known
        · cases read
        · cases read
      · exact absurd read refuseNever
  · cases read

theorem scanChoiceFlat {words : List String} {depth : Nat} {cs rest : List Char} {v : Json}
    (read : scanChoice words depth cs = .ok (v, rest)) : v.Within 0 := by
  unfold scanChoice at read
  split at read
  · cases read
  · simp only [Outcome.bindOk] at read
    obtain ⟨⟨name, after⟩, -, read⟩ := read
    split at read
    next known =>
      cases read
      exact wordFlat known
    next => cases read
  · split at read
    · cases read
    · exact scanVariantFlat read
  · cases read

structure Scans (fuel : Nat) : Prop where
  value : ∀ {shape depth cs v rest}, scan shape depth fuel cs = .ok (v, rest) → Fits depth v
  items : ∀ {inner depth first cs vs rest}, scanItems inner depth fuel first cs = .ok (vs, rest) → ∀ v ∈ vs, Fits depth v
  map : ∀ {inner depth first read cs fs rest}, scanMap inner depth fuel first read cs = .ok (fs, rest) →
    FitFields depth read → FitFields depth fs
  fields : ∀ {known keeps depth first read cs fs rest},
    scanFields known keeps depth fuel first read cs = .ok (fs, rest) → FitFields depth read → FitFields depth fs
  members : ∀ {name count depth index known first cs ms rest},
    scanMembers name count depth fuel index known first cs = .ok (ms, rest) → ∀ p ∈ ms, Fits depth p.2

theorem scansNone : Scans 0 where
  value read := by simp [failAt] at read
  items read := by simp [failAt] at read
  map read := by simp [failAt] at read
  fields read := by simp [failAt] at read
  members read := by simp [failAt] at read

section

variable {fuel : Nat} (below : Scans fuel)
include below

theorem scanListFits {inner : Shape} {depth : Nat} {cs rest : List Char} {v : Json}
    (read : scan (.list inner) depth (fuel + 1) cs = .ok (v, rest)) : Fits depth v := by
  simp only [scan] at read
  split at read
  · cases read
  · simp only [Outcome.bindOk] at read
    obtain ⟨_, allowed, ⟨vs, _⟩, inside, same⟩ := read
    cases same
    obtain ⟨n, rfl, rfl⟩ := entered allowed
    exact withinArr (below.items inside)
  · exact absurd read refuseNever

theorem scanMapFits {inner : Shape} {depth : Nat} {cs rest : List Char} {v : Json}
    (read : scan (.map inner) depth (fuel + 1) cs = .ok (v, rest)) : Fits depth v := by
  simp only [scan] at read
  split at read
  · cases read
  · simp only [Outcome.bindOk] at read
    obtain ⟨_, allowed, ⟨fs, _⟩, inside, same⟩ := read
    cases same
    obtain ⟨n, rfl, rfl⟩ := entered allowed
    exact withinFields.mpr (below.map inside (fitEmpty _))
  · exact absurd read refuseNever

theorem scanRecordFits {name : String} {known : List Field} {depth : Nat} {cs rest : List Char} {v : Json}
    (read : scan (.record name known) depth (fuel + 1) cs = .ok (v, rest)) : Fits depth v := by
  simp only [scan] at read
  split at read
  · cases read
  · simp only [Outcome.bindOk] at read
    obtain ⟨_, allowed, ⟨ms, _⟩, inside, _, -, same⟩ := read
    cases same
    obtain ⟨n, rfl, rfl⟩ := entered allowed
    exact withinPairs (below.members inside)
  · simp only [Outcome.bindOk] at read
    obtain ⟨_, allowed, ⟨fs, _⟩, inside, read⟩ := read
    split at read
    next whole =>
      cases read
      obtain ⟨n, rfl, rfl⟩ := entered allowed
      exact requiredWithin (withinFields.mpr (below.fields inside (fitEmpty _))) whole
    next => cases read
  · exact absurd read refuseNever

theorem scanOpenFits {name : String} {known : List Field} {depth : Nat} {cs rest : List Char} {v : Json}
    (read : scan (.openRecord name known) depth (fuel + 1) cs = .ok (v, rest)) : Fits depth v := by
  simp only [scan] at read
  split at read
  · cases read
  · simp only [Outcome.bindOk] at read
    obtain ⟨_, allowed, ⟨fs, _⟩, inside, same⟩ := read
    cases same
    obtain ⟨n, rfl, rfl⟩ := entered allowed
    exact withinFields.mpr (below.fields inside (fitEmpty _))
  · exact absurd read refuseNever

theorem scanFits {shape : Shape} {depth : Nat} {cs rest : List Char} {v : Json}
    (read : scan shape depth (fuel + 1) cs = .ok (v, rest)) : Fits depth v := by
  cases shape with
  | any => exact valueFits (by simpa only [scan] using read)
  | string => exact withinFlat (scanScalarFlat (by simpa only [scan] using read))
  | instant => exact withinFlat (scanScalarFlat (by simpa only [scan] using read))
  | bool => exact withinFlat (scanScalarFlat (by simpa only [scan] using read))
  | natural width => exact withinFlat (scanScalarFlat (by simpa only [scan] using read))
  | double => exact withinFlat (scanScalarFlat (by simpa only [scan] using read))
  | option inner =>
    simp only [scan] at read
    split at read
    · obtain ⟨_, -, same⟩ := Outcome.bindOk.mp read
      cases same
      exact ⟨trivial, Nat.zero_le _⟩
    · exact below.value read
  | list inner => exact scanListFits below read
  | map inner => exact scanMapFits below read
  | choice words => exact withinFlat (scanChoiceFlat (by simpa only [scan] using read))
  | record name known => exact scanRecordFits below read
  | openRecord name known => exact scanOpenFits below read
  | either type first second =>
    simp only [scan, Outcome.bindOk] at read
    obtain ⟨⟨w, _⟩, inside, read⟩ := read
    split at read
    next admitted =>
      cases read
      exact conformWithin _ (valueFits inside) admitted
    next => cases read

theorem scanItemsFit {inner : Shape} {depth : Nat} {first : Bool} {cs rest : List Char} {vs : List Json}
    (read : scanItems inner depth (fuel + 1) first cs = .ok (vs, rest)) : ∀ v ∈ vs, Fits depth v := by
  simp only [scanItems, Outcome.bindOk] at read
  obtain ⟨⟨more, _⟩, -, read⟩ := read
  cases more with
  | false =>
    cases read
    exact List.forall_mem_nil _
  | true =>
    simp only [Outcome.bindOk] at read
    obtain ⟨⟨v, _⟩, here, ⟨others, _⟩, later, same⟩ := read
    cases same
    exact List.forall_mem_cons.mpr ⟨below.value here, below.items later⟩

theorem scanEntriesFit {inner : Shape} {depth : Nat} {first : Bool} {before fs : Fields} {cs rest : List Char}
    (read : scanMap inner depth (fuel + 1) first before cs = .ok (fs, rest)) (fit : FitFields depth before) :
    FitFields depth fs := by
  simp only [scanMap, Outcome.bindOk] at read
  obtain ⟨⟨more, _⟩, -, read⟩ := read
  cases more with
  | false =>
    cases read
    exact fit
  | true =>
    simp only [Outcome.bindOk] at read
    obtain ⟨⟨name, _⟩, -, _, -, ⟨v, _⟩, here, later⟩ := read
    exact below.map later (fitInsert (below.value here) fit)

theorem scanFieldsFit {known : List Field} {keeps : Bool} {depth : Nat} {first : Bool} {before fs : Fields}
    {cs rest : List Char} (read : scanFields known keeps depth (fuel + 1) first before cs = .ok (fs, rest))
    (fit : FitFields depth before) : FitFields depth fs := by
  simp only [scanFields, Outcome.bindOk] at read
  obtain ⟨⟨more, _⟩, -, read⟩ := read
  cases more with
  | false =>
    cases read
    exact fit
  | true =>
    simp only [Outcome.bindOk] at read
    obtain ⟨⟨name, _⟩, -, read⟩ := read
    split at read
    · split at read
      · cases read
      · simp only [Outcome.bindOk] at read
        obtain ⟨_, -, ⟨v, _⟩, here, later⟩ := read
        exact below.fields later (fitInsert (below.value here) fit)
    · split at read
      · simp only [Outcome.bindOk] at read
        obtain ⟨_, -, ⟨v, _⟩, here, later⟩ := read
        exact below.fields later (fitInsert (valueFits here) fit)
      · simp only [Outcome.bindOk] at read
        obtain ⟨_, -, _, -, later⟩ := read
        exact below.fields later fit

theorem scanMembersFit {name : String} {count depth index : Nat} {known : List Field} {first : Bool}
    {cs rest : List Char} {ms : List (String × Json)}
    (read : scanMembers name count depth (fuel + 1) index known first cs = .ok (ms, rest)) :
    ∀ p ∈ ms, Fits depth p.2 := by
  cases known with
  | nil =>
    cases read
    exact List.forall_mem_nil _
  | cons field known =>
    obtain ⟨field, shape, needed⟩ := field
    simp only [scanMembers, Outcome.bindOk] at read
    obtain ⟨⟨more, _⟩, -, read⟩ := read
    cases more with
    | false =>
      simp only at read
      split at read
      · cases read
      · exact below.members read
    | true =>
      simp only [Outcome.bindOk] at read
      obtain ⟨⟨v, _⟩, here, ⟨others, _⟩, later, same⟩ := read
      cases same
      exact List.forall_mem_cons.mpr ⟨below.value here, below.members later⟩

end

theorem scansFit (fuel : Nat) : Scans fuel := by
  induction fuel with
  | zero => exact scansNone
  | succ fuel below =>
    exact ⟨scanFits below, scanItemsFit below, scanEntriesFit below, scanFieldsFit below, scanMembersFit below⟩

theorem parseCharsFits {shape : Shape} {cs : List Char} {v : Json} (read : shape.parseChars cs = .ok v) :
    v.Within 127 := by
  simp only [parseChars, Outcome.bindOk] at read
  obtain ⟨⟨w, rest⟩, inside, last⟩ := read
  unfold finish at last
  split at last
  · cases last
    exact (scansFit _).value inside
  · cases last

end Shape

/-! What a reader makes of a value or a text. -/

theorem Reader.readWithin {α : Type} {r : Reader α} {v : Json} {a : α} {n : Nat} (within : v.Within n)
    (read : r.read v = .ok a) : ∃ w : Json, w.Within n ∧ r.view w = a := by
  simp only [Reader.read, Outcome.bindOk] at read
  obtain ⟨w, admitted, same⟩ := read
  exact ⟨w, Shape.conformWithin _ within admitted, Except.ok.inj same⟩

theorem Reader.readOrdered {α : Type} {r : Reader α} {v : Json} {a : α} (ordered : v.Ordered)
    (read : r.read v = .ok a) : ∃ w : Json, w.Ordered ∧ r.view w = a := by
  obtain ⟨w, within, same⟩ := readWithin ⟨ordered, Nat.le_refl v.depth⟩ read
  exact ⟨w, within.1, same⟩

theorem Reader.parseWithin {α : Type} {r : Reader α} {text : String} {a : α} (read : r.parse text = .ok a) :
    ∃ w : Json, w.Within 127 ∧ r.view w = a := by
  unfold Reader.parse at read
  split at read
  next w inside => exact ⟨w, Shape.parseCharsFits inside, Except.ok.inj read⟩
  next => cases read

theorem Reader.parseOrdered {α : Type} {r : Reader α} {text : String} {a : α} (read : r.parse text = .ok a) :
    ∃ w : Json, w.Ordered ∧ r.view w = a := by
  obtain ⟨w, within, same⟩ := parseWithin read
  exact ⟨w, within.1, same⟩

end Conduit.Json
