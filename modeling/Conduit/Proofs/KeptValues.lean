import Conduit.Proofs.DocumentViews

/-! Values in normal form, which a shape leaves as they are: when a container is in normal form, by what it holds. -/
namespace Conduit.Json.Shape

variable {inner : Shape} {name : String} {known : List Field} {fields : Fields}

theorem keptItems {items : List Json} :
    (list inner).Reads (.arr items) (.arr items) ↔ ∀ v ∈ items, inner.Reads v v := by
  rw [Reads, conform]
  exact (Outcome.bindInjective fun _ _ => arr.inj).trans Outcome.mapMSame

theorem keptEntries : (map inner).Reads (.obj fields) (.obj fields) ↔ ∀ p ∈ fields, inner.Reads p.2 p.2 := by
  rw [Reads, conform]
  refine (Outcome.bindInjective fun _ _ => obj.inj).trans (Outcome.mapMSame.trans (forall₂_congr fun p _ => ?_))
  exact Outcome.bindInjective fun _ _ same => (Prod.mk.inj same).2

theorem fieldKept {p : String × Json} : keepField known p = .ok (some p)
    ↔ ∃ f, known.find? (·.1 = p.1) = some f ∧ f.2.1.Reads p.2 p.2 := by
  rw [keepField]
  cases found : known.find? (·.1 = p.1) with
  | none =>
    rw [conformFieldUnknown found]
    simp [bind, Except.bind, pure, Except.pure]
  | some f =>
    rw [conformFieldFound found]
    simp only [Option.some.injEq, exists_eq_left', Reads]
    cases conform f.2.1 p.2 with
    | error e => simp [Except.map, bind, Except.bind]
    | ok w => simp [Except.map, bind, Except.bind, pure, Except.pure, Prod.ext_iff]

theorem keptRecord : (record name known).Reads (.obj fields) (.obj fields)
    ↔ (∀ p ∈ fields, ∃ f, known.find? (·.1 = p.1) = some f ∧ f.2.1.Reads p.2 p.2) ∧ missing known fields = none := by
  rw [Reads, conform]
  constructor
  · intro read
    obtain ⟨present, all, required⟩ := Outcome.bindOk.mp read
    cases requiredPresent required
    refine ⟨fun p member => fieldKept.mp (Outcome.filterMapMSame.mp all p member), ?_⟩
    unfold withRequired at required
    split at required
    · cases required
    · assumption
  · rintro ⟨each, complete⟩
    have all : fields.filterMapM (keepField known) = .ok fields :=
      Outcome.filterMapMSame.mpr fun p member => fieldKept.mpr (each p member)
    exact Outcome.bindOk.mpr ⟨fields, all, by rw [withRequired, complete]⟩

theorem keptOpen : (openRecord name known).Reads (.obj fields) (.obj fields)
    ↔ ∀ p ∈ fields, ∀ f, known.find? (·.1 = p.1) = some f → f.2.1.Reads p.2 p.2 := by
  rw [Reads, conform]
  refine (Outcome.bindInjective fun _ _ => obj.inj).trans (Outcome.mapMSame.trans (forall₂_congr fun p _ => ?_))
  cases found : known.find? (·.1 = p.1) with
  | none =>
    rw [conformFieldUnknown found]
    simp [bind, Except.bind, pure, Except.pure]
  | some f =>
    rw [conformFieldFound found]
    simp only [Option.some.injEq, forall_eq', Reads]
    cases conform f.2.1 p.2 with
    | error e => simp [Except.map, bind, Except.bind]
    | ok w => simp [Except.map, bind, Except.bind, pure, Except.pure, Prod.ext_iff]

theorem keptStr (t : String) : Shape.string.Reads (.str t) (.str t) := rfl

theorem keptFlag (b : Bool) : Shape.bool.Reads (.bool b) (.bool b) := rfl

theorem keptReal (d : Double) : Shape.double.Reads (.num (.real d)) (.num (.real d)) := rfl

theorem keptNat (n : Nat) : (Shape.natural .size).Reads (.nat n) (.nat n) := by
  have size : (UInt64.ofNat n).toNat < Width.size.bound := UInt64.toNat_lt _
  rw [Reads, conform, Json.nat, Number.ofNat, readNatural, if_pos size]

theorem keptWord {words : List String} {word : String} (known : word ∈ words) :
    (choice words).Reads (.str word) (.str word) := by
  rw [Reads, conform, readChoice, knownVariant, if_pos (List.contains_iff_mem.mpr known)]

theorem keptOption {v : Json} (kept : inner.Reads v v) : (option inner).Reads v v := by
  by_cases null : v = .null
  · subst null
    rw [Reads, conform]
  · rwa [Reads, conformOption null]

theorem keptMapped {α : Type} {f : α → Json} {items : List α} (each : ∀ a ∈ items, inner.Reads (f a) (f a)) :
    (list inner).Reads (.arr (items.map f)) (.arr (items.map f)) :=
  keptItems.mpr fun v member => by
    obtain ⟨a, among, rfl⟩ := List.mem_map.mp member
    exact each a among

theorem keptStrings (texts : List String) : (list .string).Reads (strings texts) (strings texts) :=
  keptMapped fun t _ => keptStr t

/-! Records that are written field by field. -/

structure Fills (f : Field) (p : String × Option Json) : Prop where
  name : f.1 = p.1
  kept : ∀ v, p.2 = some v → f.2.1.Reads v v
  given : f.2.2 = true → ∃ v, p.2 = some v

theorem fillsSome {shape : Shape} {needed : Bool} {v : Json} (kept : shape.Reads v v) :
    Fills (name, shape, needed) (name, some v) where
  name := rfl
  kept _ same := Option.some.inj same ▸ kept
  given _ := ⟨v, rfl⟩

theorem fillsOption {o : Option Json} (kept : ∀ v, o = some v → inner.Reads v v) :
    Fills (Json.optional name (.option inner)) (name, o) where
  name := rfl
  kept v given := keptOption (kept v given)
  given needed := by cases needed

theorem fillsMap {α : Type} {f : α → Json} {o : Option α} (kept : ∀ a, o = some a → inner.Reads (f a) (f a)) :
    Fills (Json.optional name (.option inner)) (name, o.map f) :=
  fillsOption fun v given => by
    obtain ⟨a, some, rfl⟩ := Option.map_eq_some_iff.mp given
    exact kept a some

theorem fillsUnless {b : Bool} {v : Json} (kept : inner.Reads v v) :
    Fills (Json.optional name inner) (name, if b then none else some v) := by
  cases b with
  | true => exact ⟨rfl, fun _ given => (by cases given), fun needed => (by cases needed)⟩
  | false => exact fillsSome kept

theorem fieldFound (distinct : (known.map (·.1)).Nodup) {f : Field} (among : f ∈ known) :
    known.find? (·.1 = f.1) = some f := by
  have some : (known.find? (·.1 = f.1)).isSome := List.find?_isSome.mpr ⟨f, among, by simp⟩
  obtain ⟨g, found⟩ := Option.isSome_iff_exists.mp some
  have same : g.1 = f.1 := by simpa using List.find?_some found
  rw [found, List.inj_on_of_nodup_map distinct (List.mem_of_find?_eq_some found) among same]

theorem keptSome {pairs : List (String × Option Json)} (distinct : (known.map (·.1)).Nodup)
    (filled : List.Forall₂ Fills known pairs) : (record name known).Reads (ofSome pairs) (ofSome pairs) := by
  refine keptRecord.mpr ⟨fun p member => ?_, ?_⟩
  · obtain ⟨q, among, same⟩ := List.mem_filterMap.mp (Table.memOfList member)
    obtain ⟨v, given, rfl⟩ := Option.map_eq_some_iff.mp same
    obtain ⟨f, field, fills⟩ := Outcome.matchedMember filled among
    exact ⟨f, fills.name ▸ fieldFound distinct field, fills.kept v given⟩
  · rw [missing, Option.map_eq_none_iff, List.find?_eq_none]
    intro f field
    cases needed : f.2.2 with
    | false => simp
    | true =>
      obtain ⟨q, among, fills⟩ := Outcome.matchedMember filled.flip field
      obtain ⟨v, given⟩ := fills.given needed
      have listed : f.1 ∈ Table.names (Table.ofList (pairs.filterMap fun p => p.2.map (p.1, ·))) := by
        refine (Table.namesOfList _ _).mpr (List.mem_map.mpr ⟨(q.1, v), ?_, fills.name.symm⟩)
        exact List.mem_filterMap.mpr ⟨q, among, by rw [given]; rfl⟩
      obtain ⟨w, found⟩ := (Table.getSome _ _).mpr listed
      simp [Table.has, found]

theorem keptPairs {pairs : List (String × Json)} (distinct : (known.map (·.1)).Nodup)
    (filled : List.Forall₂ (fun (f : Field) (p : String × Json) => f.1 = p.1 ∧ f.2.1.Reads p.2 p.2) known pairs) :
    (record name known).Reads (ofPairs pairs) (ofPairs pairs) := by
  rw [pairsSome]
  refine keptSome distinct (List.forall₂_map_right_iff.mpr (filled.imp fun f p same => ?_))
  obtain ⟨name, kept⟩ := same
  exact ⟨name, fun _ given => Option.some.inj given ▸ kept, fun _ => ⟨p.2, rfl⟩⟩

end Conduit.Json.Shape
