import Conduit.Proofs.JsonText
import Conduit.Proofs.KeptValues

/-! Text that is read under a shape. A value in normal form is read from its text as it is, whatever the order in which
the text has the fields of its objects. -/
namespace Conduit.Json.Shape

mutual
/-- How often a shape is entered at most before a character is read or a container is opened, over all that it is made of. -/
def height : Shape → Nat
  | .option inner => inner.height + 1
  | .list inner => inner.height + 1
  | .map inner => inner.height + 1
  | .record _ known => heightFields known + 1
  | .openRecord _ known => heightFields known + 1
  | _ => 1
def heightFields : List Field → Nat
  | [] => 0
  | (_, shape, _) :: rest => max shape.height (heightFields rest)
end

theorem heightField {known : List Field} {f : Field} (field : f ∈ known) : f.2.1.height ≤ heightFields known := by
  induction known with
  | nil => cases field
  | cons g rest ih =>
    rw [heightFields]
    rcases List.mem_cons.mp field with rfl | later
    · exact Nat.le_max_left _ _
    · exact Nat.le_trans (ih later) (Nat.le_max_right _ _)

theorem heightSome (shape : Shape) : 0 < shape.height := by
  cases shape <;> simp [height]

theorem lookupField (known : List Field) (name : String) :
    known.lookup name = (known.find? (·.1 = name)).map (·.2) := by
  induction known with
  | nil => rfl
  | cons f rest ih =>
    obtain ⟨key, f⟩ := f
    by_cases same : key = name
    · subst same
      rw [List.lookup_cons_self, List.find?_cons_of_pos (by simp)]
      rfl
    · have other : (name == key) = false := by simpa using Ne.symm same
      rw [List.lookup_cons, other, List.find?_cons_of_neg (by simpa using same), ih]

/-! The steps of reading containers. -/

theorem enterDeep {depth : Nat} (deep : 1 < depth) (cs : List Char) : enter depth cs = .ok (depth - 1) :=
  if_neg (Nat.not_le.mpr deep)

section

variable {inner : Shape} {known : List Field} {keeps first : Bool} {depth fuel : Nat} {cs here later rest : List Char}
  {read fs : Fields} {k : String} {v : Json} {vs : List Json}

theorem scanItemsStop (none : nextItem first cs = .ok (false, rest)) :
    scanItems inner depth (fuel + 1) first cs = .ok ([], rest) := by
  simp only [scanItems, none, bind, Except.bind, pure, Except.pure]

theorem scanItemsStep (next : nextItem first cs = .ok (true, here))
    (value : scan inner depth fuel here = .ok (v, later))
    (others : scanItems inner depth fuel false later = .ok (vs, rest)) :
    scanItems inner depth (fuel + 1) first cs = .ok (v :: vs, rest) := by
  simp only [scanItems, next, value, others, bind, Except.bind, pure, Except.pure]

theorem scanMapStop (none : nextField first cs = .ok (false, rest)) :
    scanMap inner depth (fuel + 1) first read cs = .ok (read, rest) := by
  simp only [scanMap, none, bind, Except.bind, pure, Except.pure]

theorem scanMapStep (next : nextField first cs = .ok (true, k.toList.flatMap escape ++ '"' :: ':' :: here))
    (value : scan inner depth fuel here = .ok (v, later))
    (others : scanMap inner depth fuel false (Table.insert k v read) later = .ok (fs, rest)) :
    scanMap inner depth (fuel + 1) first read cs = .ok (fs, rest) := by
  simp only [scanMap, next, stringRead, colonRead, List.reverse_nil, List.nil_append, String.ofList_toList, value,
    others, bind, Except.bind]

theorem scanList (opens : skipBlank cs = '[' :: here) (deep : 1 < depth)
    (items : scanItems inner (depth - 1) fuel true here = .ok (vs, rest)) :
    scan (.list inner) depth (fuel + 1) cs = .ok (.arr vs, rest) := by
  simp only [scan, opens, enterDeep deep, items, bind, Except.bind, pure, Except.pure]

theorem scanEntries (opens : skipBlank cs = '\x7b' :: here) (deep : 1 < depth)
    (entries : scanMap inner (depth - 1) fuel true [] here = .ok (fs, rest)) :
    scan (.map inner) depth (fuel + 1) cs = .ok (.obj fs, rest) := by
  simp only [scan, opens, enterDeep deep, entries, bind, Except.bind, pure, Except.pure]

theorem scanRecord {name : String} (opens : skipBlank cs = '\x7b' :: here) (deep : 1 < depth)
    (fields : scanFields known false (depth - 1) fuel true [] here = .ok (fs, rest)) (complete : missing known fs = none) :
    scan (.record name known) depth (fuel + 1) cs = .ok (.obj fs, rest) := by
  simp only [scan, opens, enterDeep deep, fields, withRequired, complete, bind, Except.bind, pure, Except.pure]

theorem scanOpen {name : String} (opens : skipBlank cs = '\x7b' :: here) (deep : 1 < depth)
    (fields : scanFields known true (depth - 1) fuel true [] here = .ok (fs, rest)) :
    scan (.openRecord name known) depth (fuel + 1) cs = .ok (.obj fs, rest) := by
  simp only [scan, opens, enterDeep deep, fields, bind, Except.bind, pure, Except.pure]

theorem scanFieldsStop (none : nextField first cs = .ok (false, rest)) :
    scanFields known keeps depth (fuel + 1) first read cs = .ok (read, rest) := by
  simp only [scanFields, none, bind, Except.bind, pure, Except.pure]

theorem scanFieldsKnown {f : Field}
    (next : nextField first cs = .ok (true, k.toList.flatMap escape ++ '"' :: ':' :: here))
    (found : known.find? (·.1 = k) = some f) (fresh : read.has k = false)
    (value : scan f.2.1 depth fuel here = .ok (v, later))
    (others : scanFields known keeps depth fuel false (Table.insert k v read) later = .ok (fs, rest)) :
    scanFields known keeps depth (fuel + 1) first read cs = .ok (fs, rest) := by
  simp only [scanFields, next, stringRead, colonRead, List.reverse_nil, List.nil_append, String.ofList_toList,
    lookupField, found, Option.map_some, fresh, value, others, bind, Except.bind]
  rfl

theorem scanFieldsOther (next : nextField first cs = .ok (true, k.toList.flatMap escape ++ '"' :: ':' :: here))
    (unknown : known.find? (·.1 = k) = none) (value : Json.value depth (readFuel here) here = .ok (v, later))
    (others : scanFields known true depth fuel false (Table.insert k v read) later = .ok (fs, rest)) :
    scanFields known true depth (fuel + 1) first read cs = .ok (fs, rest) := by
  simp only [scanFields, next, stringRead, colonRead, List.reverse_nil, List.nil_append, String.ofList_toList,
    lookupField, unknown, Option.map_none, value, others, bind, Except.bind]
  rfl

end

/-! What is read back. -/

variable (s : Spacing)

/-- The shape reads each value in normal form from its text, whatever blanks there are before it. The fuel counts two for
each character, and what the shape is entered without reading any. -/
def ReadsBack (shape : Shape) : Prop :=
  ∀ ⦃v : Json⦄ ⦃indent depth fuel : Nat⦄ ⦃blanks rest : List Char⦄, (∀ c ∈ blanks, isBlank c = true) → v.Distinct →
    shape.Reads v.sorted v.sorted → v.depth < depth → 2 * (spread s indent v).length + shape.height ≤ fuel → Ends rest →
    scan shape depth fuel (blanks ++ (spread s indent v ++ rest)) = .ok (v.sorted, rest)

variable {s} {shape inner : Shape} {known : List Field} {v : Json} {indent depth fuel : Nat} {blanks rest : List Char}

theorem skipTo (all : ∀ c ∈ blanks, isBlank c = true) :
    skipBlank (blanks ++ (spread s indent v ++ rest)) = spread s indent v ++ rest := by
  rw [skipBlanks all, skipStarts (spreadStarts s indent v)]

theorem scalarBack {expected : String} {starts : Char → Bool} (all : ∀ c ∈ blanks, isBlank c = true) (simple : v.Simple)
    (kept : shape.Reads v v) (opens : ∃ c cs, spread s indent v = c :: cs ∧ starts c = true) (ends : Ends rest) :
    scanScalar shape expected starts (blanks ++ (spread s indent v ++ rest)) = .ok (v, rest) := by
  obtain ⟨c, others, same, starting⟩ := opens
  have read := simpleRead s indent simple ends
  rw [same, List.cons_append] at read
  have conformed : conform shape v = .ok v := kept
  rw [scanScalar, skipTo all, same, List.cons_append]
  simp only [starting, if_true, read, conformed, bind, Except.bind]

theorem valueBack (all : ∀ c ∈ blanks, isBlank c = true) (shallow : v.depth < depth) (ends : Ends rest) :
    value depth (readFuel (blanks ++ (spread s indent v ++ rest))) (blanks ++ (spread s indent v ++ rest))
      = .ok (v.sorted, rest) := by
  rw [readFuel, valueBlanks all, skipStarts (spreadStarts s indent v)]
  refine spreadRead s indent depth _ v shallow ?_ ends
  simp only [List.length_append]
  omega

theorem notNull (some : v ≠ .null) (cs : List Char) : spread s indent v ≠ 'n' :: cs := by
  cases v with
  | null => exact absurd rfl some
  | bool b => cases b <;> simp [spread]
  | num n =>
    obtain ⟨c, others, text, opening⟩ := numberOpening n
    rw [spread, text]
    rintro same
    cases (List.cons.inj same).1
    revert opening
    decide
  | str t => simp [spread, quote, quoteChars]
  | arr vs => cases vs <;> simp [spread]
  | obj fs => cases fs <;> simp [spread]

theorem sortedNull (null : v.sorted = .null) : v = .null := by
  cases v with
  | null => rfl
  | _ => cases null

theorem backOption (back : ReadsBack s inner) : ReadsBack s (.option inner) := by
  intro v indent depth fuel blanks rest all distinct kept shallow enough ends
  obtain ⟨fuel, rfl⟩ : ∃ n, fuel = n + 1 := ⟨fuel - 1, by simp only [height] at enough; omega⟩
  simp only [height] at enough
  rw [scan, skipTo all]
  by_cases null : v = .null
  · subst null
    rw [spread]
    rfl
  · have some : v.sorted ≠ .null := fun same => null (sortedNull same)
    have inside : inner.Reads v.sorted v.sorted := by rwa [Reads, conformOption some] at kept
    have read := @back v indent depth fuel [] rest (List.forall_mem_nil _) distinct inside shallow (by omega) ends
    split
    next same =>
      obtain ⟨c, others, text, -⟩ := spreadStarts s indent v
      rw [text, List.cons_append] at same
      exact absurd (text.trans (by rw [(List.cons.inj same).1])) (notNull null others)
    next => exact read

theorem itemsBack (back : ReadsBack s inner) (fuel above indent : Nat) (rest : List Char) (vs : List Json)
    (each : ∀ v ∈ vs, v.Distinct ∧ inner.Reads v.sorted v.sorted ∧ v.depth < depth)
    (enough : 2 * (spreadItems s indent vs).length + inner.height < fuel) :
    scanItems inner depth fuel false (spreadItems s indent vs ++ (s.gap above ++ ']' :: rest))
      = .ok (vs.map sorted, rest) := by
  induction vs generalizing fuel with
  | nil =>
    obtain ⟨fuel, rfl⟩ : ∃ n, fuel = n + 1 := ⟨fuel - 1, by omega⟩
    exact scanItemsStop (itemNone (s.gapBlank above) false rest)
  | cons v vs ih =>
    obtain ⟨⟨distinct, kept, shallow⟩, others⟩ := List.forall_mem_cons.mp each
    simp only [spreadItems, List.length_cons, List.length_append] at enough
    obtain ⟨fuel, rfl⟩ : ∃ n, fuel = n + 1 := ⟨fuel - 1, by omega⟩
    have here := @back v indent depth fuel [] _ (List.forall_mem_nil _) distinct kept shallow (by omega)
      (itemsEnd s vs above indent rest)
    rw [itemsText s]
    exact scanItemsStep (itemLater (s.gapBlank _) (spreadStarts s _ v) _) here (ih fuel others (by omega))

theorem backList (back : ReadsBack s inner) : ReadsBack s (.list inner) := by
  intro v indent depth fuel blanks rest all distinct kept shallow enough ends
  simp only [height] at enough
  obtain ⟨fuel, rfl⟩ : ∃ n, fuel = n + 1 := ⟨fuel - 1, by omega⟩
  have opens : skipBlank (blanks ++ (spread s indent v ++ rest)) = spread s indent v ++ rest := skipTo all
  cases v with
  | arr vs =>
    rw [sortedArr] at kept ⊢
    have inside := keptItems.mp kept
    have lower : ∀ v ∈ vs, v.depth ≤ depth - 2 := depthArr.mp (by omega)
    simp only [Json.depth] at shallow
    have each : ∀ v ∈ vs, v.Distinct ∧ inner.Reads v.sorted v.sorted ∧ v.depth < depth - 1 := fun v member =>
      ⟨distinctArr.mp distinct v member, inside _ (List.mem_map.mpr ⟨v, member, rfl⟩), by have := lower v member; omega⟩
    cases vs with
    | nil =>
      simp only [spread, List.length_cons, List.length_nil] at enough
      obtain ⟨fuel, rfl⟩ : ∃ n, fuel = n + 1 := ⟨fuel - 1, by omega⟩
      rw [spread] at opens ⊢
      exact scanList opens (by omega) (scanItemsStop (itemNone (List.forall_mem_nil _) true rest))
    | cons v vs =>
      obtain ⟨⟨first, same, low⟩, others⟩ := List.forall_mem_cons.mp each
      simp only [spread, List.length_cons, List.length_append, List.length_nil] at enough
      obtain ⟨fuel, rfl⟩ : ∃ n, fuel = n + 1 := ⟨fuel - 1, by omega⟩
      have here := @back v (indent + 1) (depth - 1) fuel [] _ (List.forall_mem_nil _) first same low (by omega)
        (itemsEnd s vs indent (indent + 1) rest)
      have later := itemsBack back fuel indent (indent + 1) rest vs others (by omega)
      rw [arrText s] at opens ⊢
      exact scanList opens (by omega) (scanItemsStep (itemFirst (s.gapBlank _) (spreadStarts s _ v) _) here later)
  | _ => simp [Reads, conform, sorted] at kept

theorem entriesBack (back : ReadsBack s inner) (fuel above indent : Nat) (rest : List Char) (read : Fields)
    (fs : List (String × Json)) (each : ∀ p ∈ fs, p.2.Distinct ∧ inner.Reads p.2.sorted p.2.sorted ∧ p.2.depth < depth)
    (enough : 2 * (spreadFields s indent fs).length + inner.height < fuel) :
    scanMap inner depth fuel false read (spreadFields s indent fs ++ (s.gap above ++ '\x7d' :: rest))
      = .ok ((sortedFields fs).foldl (fun table p => Table.insert p.1 p.2 table) read, rest) := by
  induction fs generalizing fuel read with
  | nil =>
    obtain ⟨fuel, rfl⟩ : ∃ n, fuel = n + 1 := ⟨fuel - 1, by omega⟩
    exact scanMapStop (fieldNone (s.gapBlank above) false rest)
  | cons p fs ih =>
    obtain ⟨k, v⟩ := p
    obtain ⟨⟨distinct, kept, shallow⟩, others⟩ := List.forall_mem_cons.mp each
    simp only [spreadFields, List.length_cons, List.length_append] at enough
    obtain ⟨fuel, rfl⟩ : ∃ n, fuel = n + 1 := ⟨fuel - 1, by omega⟩
    have here := @back v indent depth fuel s.after _ s.afterBlank distinct kept shallow (by omega)
      (fieldsEnd s fs above indent rest)
    rw [fieldsText s]
    exact scanMapStep (fieldLater (s.gapBlank _) _) here (ih fuel (Table.insert k v.sorted read) others (by omega))

theorem backMap (back : ReadsBack s inner) : ReadsBack s (.map inner) := by
  intro v indent depth fuel blanks rest all distinct kept shallow enough ends
  simp only [height] at enough
  obtain ⟨fuel, rfl⟩ : ∃ n, fuel = n + 1 := ⟨fuel - 1, by omega⟩
  have opens : skipBlank (blanks ++ (spread s indent v ++ rest)) = spread s indent v ++ rest := skipTo all
  cases v with
  | obj fs =>
    obtain ⟨names, values⟩ := distinctObj.mp distinct
    have lower : ∀ p ∈ fs, p.2.depth ≤ depth - 2 := depthObj.mp (by omega)
    simp only [Json.depth] at shallow
    have each : ∀ p ∈ fs, p.2.Distinct ∧ inner.Reads p.2.sorted p.2.sorted ∧ p.2.depth < depth - 1 := by
      intro p member
      rw [sortedObj] at kept
      exact ⟨values p member, keptEntries.mp kept _ (sortedMember names member), by have := lower p member; omega⟩
    rw [sorted]
    cases fs with
    | nil =>
      simp only [spread, List.length_cons, List.length_nil] at enough
      obtain ⟨fuel, rfl⟩ : ∃ n, fuel = n + 1 := ⟨fuel - 1, by omega⟩
      rw [spread] at opens ⊢
      exact scanEntries opens (by omega) (scanMapStop (fieldNone (List.forall_mem_nil _) true rest))
    | cons p fs =>
      obtain ⟨k, v⟩ := p
      obtain ⟨⟨first, same, low⟩, others⟩ := List.forall_mem_cons.mp each
      simp only [spread, List.length_cons, List.length_append, List.length_nil] at enough
      obtain ⟨fuel, rfl⟩ : ∃ n, fuel = n + 1 := ⟨fuel - 1, by omega⟩
      have here := @back v (indent + 1) (depth - 1) fuel s.after _ s.afterBlank first same low (by omega)
        (fieldsEnd s fs indent (indent + 1) rest)
      have later := entriesBack back fuel indent (indent + 1) rest (Table.insert k v.sorted []) fs others (by omega)
      rw [objText s] at opens ⊢
      exact scanEntries opens (by omega) (scanMapStep (fieldFirst (s.gapBlank _) _) here later)
  | _ => simp [Reads, conform, sorted] at kept

structure FieldBack (known : List Field) (keeps : Bool) (depth : Nat) (p : String × Json) : Prop where
  distinct : p.2.Distinct
  shallow : p.2.depth < depth
  kept : (∃ f, known.find? (·.1 = p.1) = some f ∧ f.2.1.Reads p.2.sorted p.2.sorted)
    ∨ keeps = true ∧ known.find? (·.1 = p.1) = none

section

variable (back : ∀ f ∈ known, ReadsBack s f.2.1) {keeps : Bool}
include back

theorem fieldBack {k : String} {first : Bool} {read fs : Fields} {cs later : List Char}
    (field : FieldBack known keeps depth (k, v)) (fresh : read.has k = false)
    (next : nextField first cs
      = .ok (true, k.toList.flatMap escape ++ '"' :: ':' :: (s.after ++ (spread s indent v ++ later))))
    (enough : 2 * (spread s indent v).length + heightFields known ≤ fuel) (ends : Ends later)
    (others : scanFields known keeps depth fuel false (Table.insert k v.sorted read) later = .ok (fs, rest)) :
    scanFields known keeps depth (fuel + 1) first read cs = .ok (fs, rest) := by
  obtain ⟨distinct, shallow, ⟨f, found, kept⟩ | ⟨rfl, unknown⟩⟩ := field
  · have among := List.mem_of_find?_eq_some found
    have low := heightField among
    have here := @back f among v indent depth fuel s.after later s.afterBlank distinct kept shallow (by omega) ends
    exact scanFieldsKnown next found fresh here others
  · exact scanFieldsOther next unknown (valueBack s.afterBlank shallow ends) others

theorem fieldsBack (fuel above indent : Nat) (rest : List Char) (read : Fields) (fs : List (String × Json))
    (names : (fs.map (·.1)).Nodup) (fresh : ∀ p ∈ fs, read.has p.1 = false)
    (each : ∀ p ∈ fs, FieldBack known keeps depth p)
    (enough : 2 * (spreadFields s indent fs).length + heightFields known < fuel) :
    scanFields known keeps depth fuel false read (spreadFields s indent fs ++ (s.gap above ++ '\x7d' :: rest))
      = .ok ((sortedFields fs).foldl (fun table p => Table.insert p.1 p.2 table) read, rest) := by
  induction fs generalizing fuel read with
  | nil =>
    obtain ⟨fuel, rfl⟩ : ∃ n, fuel = n + 1 := ⟨fuel - 1, by omega⟩
    exact scanFieldsStop (fieldNone (s.gapBlank above) false rest)
  | cons p fs ih =>
    obtain ⟨k, v⟩ := p
    obtain ⟨alone, names⟩ := List.nodup_cons.mp names
    obtain ⟨new, fresh⟩ := List.forall_mem_cons.mp fresh
    obtain ⟨field, others⟩ := List.forall_mem_cons.mp each
    simp only [spreadFields, List.length_cons, List.length_append] at enough
    obtain ⟨fuel, rfl⟩ : ∃ n, fuel = n + 1 := ⟨fuel - 1, by omega⟩
    have still : ∀ p ∈ fs, (Table.insert k v.sorted read).has p.1 = false := fun p member => by
      have other : p.1 ≠ k := fun same => alone (List.mem_map.mpr ⟨p, member, same⟩)
      rw [Table.has, Table.getInsert, if_neg other]
      exact fresh p member
    have later := ih fuel (Table.insert k v.sorted read) names still others (by omega)
    rw [fieldsText s]
    exact fieldBack back field new (fieldLater (s.gapBlank _) _) (by omega) (fieldsEnd s fs above indent rest) later

theorem objectBack (fuel indent : Nat) (rest : List Char) (fs : List (String × Json)) (names : (fs.map (·.1)).Nodup)
    (each : ∀ p ∈ fs, FieldBack known keeps depth p)
    (enough : 2 * (spread s indent (.obj fs)).length + heightFields known ≤ fuel) :
    ∃ inside, spread s indent (.obj fs) ++ rest = '\x7b' :: inside
      ∧ scanFields known keeps depth fuel true [] inside = .ok (Table.ofList (sortedFields fs), rest) := by
  cases fs with
  | nil =>
    simp only [spread, List.length_cons, List.length_nil] at enough
    obtain ⟨fuel, rfl⟩ : ∃ n, fuel = n + 1 := ⟨fuel - 1, by omega⟩
    exact ⟨'\x7d' :: rest, by rw [spread]; rfl, scanFieldsStop (fieldNone (List.forall_mem_nil _) true rest)⟩
  | cons p fs =>
    obtain ⟨k, v⟩ := p
    obtain ⟨alone, names⟩ := List.nodup_cons.mp names
    obtain ⟨field, others⟩ := List.forall_mem_cons.mp each
    simp only [spread, List.length_cons, List.length_append, List.length_nil] at enough
    obtain ⟨fuel, rfl⟩ : ∃ n, fuel = n + 1 := ⟨fuel - 1, by omega⟩
    have fresh : ∀ p ∈ fs, Table.has (Table.insert k v.sorted []) p.1 = false := fun p member => by
      have other : p.1 ≠ k := fun same => alone (List.mem_map.mpr ⟨p, member, same⟩)
      rw [Table.has, Table.getInsert, if_neg other]
      rfl
    have later := fieldsBack back fuel indent (indent + 1) rest (Table.insert k v.sorted []) fs names fresh others (by omega)
    exact ⟨_, objText s k v fs indent rest, fieldBack back field rfl (fieldFirst (s.gapBlank _) _) (by omega)
      (fieldsEnd s fs indent (indent + 1) rest) later⟩

theorem backRecord (name : String) : ReadsBack s (.record name known) := by
  intro v indent depth fuel blanks rest all distinct kept shallow enough ends
  simp only [height] at enough
  obtain ⟨fuel, rfl⟩ : ∃ n, fuel = n + 1 := ⟨fuel - 1, by omega⟩
  have opens : skipBlank (blanks ++ (spread s indent v ++ rest)) = spread s indent v ++ rest := skipTo all
  cases v with
  | obj fs =>
    obtain ⟨names, values⟩ := distinctObj.mp distinct
    have lower : ∀ p ∈ fs, p.2.depth ≤ depth - 2 := depthObj.mp (by omega)
    simp only [Json.depth] at shallow
    rw [sortedObj] at kept
    obtain ⟨known', complete⟩ := keptRecord.mp kept
    have each : ∀ p ∈ fs, FieldBack known false (depth - 1) p := fun p member =>
      ⟨values p member, by have := lower p member; omega, .inl (known' _ (sortedMember names member))⟩
    obtain ⟨inside, text, read⟩ := objectBack back fuel indent rest fs names each (by omega)
    rw [← sortedFieldsMap] at complete
    rw [text] at opens ⊢
    exact scanRecord opens (by omega) read complete
  | arr vs =>
    rw [sortedArr, Reads, conform] at kept
    obtain ⟨present, -, same⟩ := Outcome.bindOk.mp kept
    cases same
  | _ => simp [Reads, conform, sorted] at kept

theorem backOpen (name : String) : ReadsBack s (.openRecord name known) := by
  intro v indent depth fuel blanks rest all distinct kept shallow enough ends
  simp only [height] at enough
  obtain ⟨fuel, rfl⟩ : ∃ n, fuel = n + 1 := ⟨fuel - 1, by omega⟩
  have opens : skipBlank (blanks ++ (spread s indent v ++ rest)) = spread s indent v ++ rest := skipTo all
  cases v with
  | obj fs =>
    obtain ⟨names, values⟩ := distinctObj.mp distinct
    have lower : ∀ p ∈ fs, p.2.depth ≤ depth - 2 := depthObj.mp (by omega)
    simp only [Json.depth] at shallow
    rw [sortedObj] at kept
    have each : ∀ p ∈ fs, FieldBack known true (depth - 1) p := fun p member => by
      refine ⟨values p member, by have := lower p member; omega, ?_⟩
      cases found : known.find? (·.1 = p.1) with
      | none => exact .inr ⟨rfl, rfl⟩
      | some f => exact .inl ⟨f, rfl, keptOpen.mp kept _ (sortedMember names member) f found⟩
    obtain ⟨inside, text, read⟩ := objectBack back fuel indent rest fs names each (by omega)
    rw [text] at opens ⊢
    exact scanOpen opens (by omega) read
  | _ => simp [Reads, conform, sorted] at kept

end

/-! Values that are no containers. -/

theorem strOpens (t : String) : ∃ c cs, spread s indent (.str t) = c :: cs ∧ decide (c = '"') = true :=
  ⟨_, _, by rw [spread, quote, quoteChars, List.cons_append], rfl⟩

theorem boolOpens (b : Bool) :
    ∃ c cs, spread s indent (.bool b) = c :: cs ∧ (decide (c = 't') || decide (c = 'f')) = true := by
  cases b
  · exact ⟨_, _, by rw [spread], rfl⟩
  · exact ⟨_, _, by rw [spread], rfl⟩

theorem numOpens (n : Number) : ∃ c cs, spread s indent (.num n) = c :: cs ∧ startsNumber c = true := by
  obtain ⟨c, cs, text, opening⟩ := numberOpening n
  refine ⟨c, cs, by rw [spread, text], ?_⟩
  rcases opening with rfl | digit
  · rfl
  · rw [startsNumber, digit, Bool.or_true]

theorem simpleSorted (simple : v.sorted.Simple) : v.Simple := by
  cases v with
  | arr vs => exact simple
  | obj fs => exact simple
  | _ => trivial

theorem backScalar {expected : String} {starts : Char → Bool}
    (scans : ∀ depth fuel cs, scan shape depth (fuel + 1) cs = scanScalar shape expected starts cs)
    (flat : ∀ v : Json, shape.Reads v v → v.Simple ∧ ∀ indent, ∃ c cs, spread s indent v = c :: cs ∧ starts c = true) :
    ReadsBack s shape := by
  intro v indent depth fuel blanks rest all distinct kept shallow enough ends
  have some := heightSome shape
  obtain ⟨fuel, rfl⟩ : ∃ n, fuel = n + 1 := ⟨fuel - 1, by omega⟩
  have simple := simpleSorted (flat _ kept).1
  rw [sortedSimple simple] at kept ⊢
  rw [scans]
  exact scalarBack all simple kept ((flat v kept).2 indent) ends

theorem backString : ReadsBack s .string := backScalar (fun _ _ _ => by rw [scan]) fun v kept => by
  cases v with
  | str t => exact ⟨trivial, fun _ => strOpens t⟩
  | _ => cases kept

theorem backInstant : ReadsBack s .instant := backScalar (fun _ _ _ => by rw [scan]) fun v kept => by
  cases v with
  | str t => exact ⟨trivial, fun _ => strOpens t⟩
  | _ => cases kept

theorem backBool : ReadsBack s .bool := backScalar (fun _ _ _ => by rw [scan]) fun v kept => by
  cases v with
  | bool b => exact ⟨trivial, fun _ => boolOpens b⟩
  | _ => cases kept

theorem backNatural (width : Width) : ReadsBack s (.natural width) :=
    backScalar (fun _ _ _ => by rw [scan]) fun v kept => by
  cases v with
  | num n => exact ⟨trivial, fun _ => numOpens n⟩
  | _ => cases kept

theorem backDouble : ReadsBack s .double := backScalar (fun _ _ _ => by rw [scan]) fun v kept => by
  cases v with
  | num n => exact ⟨trivial, fun _ => numOpens n⟩
  | _ => cases kept

theorem backChoice (words : List String) : ReadsBack s (.choice words) := by
  intro v indent depth fuel blanks rest all distinct kept shallow enough ends
  obtain ⟨fuel, rfl⟩ : ∃ n, fuel = n + 1 := ⟨fuel - 1, by simp only [height] at enough; omega⟩
  have read : readChoice words v.sorted = .ok v.sorted := kept
  cases v with
  | str t =>
    have chosen : knownVariant words t = .ok (.str t) := read
    rw [scan, scanChoice, skipTo all, spread, quoteAppend]
    simp only [stringRead, List.reverse_nil, List.nil_append, String.ofList_toList, chosen, bind, Except.bind]
    rfl
  | obj fs =>
    obtain ⟨m, none⟩ := levelObj (choiceFlat read)
    cases none
  | _ => simp [readChoice, sorted] at read

theorem backAny : ReadsBack s .any := by
  intro v indent depth fuel blanks rest all distinct kept shallow enough ends
  obtain ⟨fuel, rfl⟩ : ∃ n, fuel = n + 1 := ⟨fuel - 1, by simp only [height] at enough; omega⟩
  rw [scan]
  exact valueBack all shallow ends

theorem backEither (type : String) (first second : Shape) : ReadsBack s (.either type first second) := by
  intro v indent depth fuel blanks rest all distinct kept shallow enough ends
  obtain ⟨fuel, rfl⟩ : ∃ n, fuel = n + 1 := ⟨fuel - 1, by simp only [height] at enough; omega⟩
  have conformed : conform (.either type first second) v.sorted = .ok v.sorted := kept
  rw [scan, valueBack all shallow ends]
  simp only [bind, Except.bind, conformed]
  rfl

/-! Every shape reads back. -/

mutual
theorem readsBack (s : Spacing) : (shape : Shape) → ReadsBack s shape
  | .any => backAny
  | .string => backString
  | .bool => backBool
  | .natural width => backNatural width
  | .double => backDouble
  | .instant => backInstant
  | .option inner => backOption (readsBack s inner)
  | .list inner => backList (readsBack s inner)
  | .map inner => backMap (readsBack s inner)
  | .choice words => backChoice words
  | .record name known => backRecord (fieldsReadBack s known) name
  | .openRecord name known => backOpen (fieldsReadBack s known) name
  | .either type first second => backEither type first second
theorem fieldsReadBack (s : Spacing) : (known : List Field) → ∀ f ∈ known, ReadsBack s f.2.1
  | [] => List.forall_mem_nil _
  | (_, shape, _) :: rest => List.forall_mem_cons.mpr ⟨readsBack s shape, fieldsReadBack s rest⟩
end

end Conduit.Json.Shape

namespace Conduit.Json

def TextOf (v : Json) (text : String) : Prop :=
  ∃ w : Json, w.Distinct ∧ w.sorted = v ∧ (text = w.compact ∨ text = w.pretty)

theorem textOrdered {v : Json} (ordered : v.Ordered) : v.TextOf v.compact ∧ v.TextOf v.pretty :=
  ⟨⟨v, distinctOrdered v ordered, sortedSame v ordered, .inl rfl⟩,
    ⟨v, distinctOrdered v ordered, sortedSame v ordered, .inr rfl⟩⟩

theorem textSpread {v : Json} {text : String} (written : v.TextOf text) :
    ∃ (s : Spacing) (w : Json), w.Distinct ∧ w.sorted = v ∧ text.toList = spread s 0 w := by
  obtain ⟨w, distinct, same, rfl | rfl⟩ := written
  · exact ⟨.compact, w, distinct, same, by rw [compact, String.toList_ofList, spreadCompact]⟩
  · exact ⟨.pretty, w, distinct, same, by rw [pretty, String.toList_ofList, spreadPretty]⟩

theorem Reader.textRead {α : Type} {r : Reader α} {v : Json} {text : String} (kept : r.shape.Reads v v)
    (readable : v.Readable) (low : r.shape.height ≤ 64) (written : v.TextOf text) : r.parse text = .ok (r.view v) := by
  obtain ⟨s, w, distinct, rfl, chars⟩ := textSpread written
  have shallow : w.depth < depthLimit := Nat.lt_succ_of_le (depthSorted w distinct readable.2)
  have read := @Shape.readsBack s r.shape w 0 depthLimit (Shape.scanFuel (spread s 0 w)) [] [] (List.forall_mem_nil _)
    distinct kept shallow (by rw [Shape.scanFuel]; omega) endsNil
  rw [List.nil_append, List.append_nil] at read
  have parsed : r.shape.parseChars (spread s 0 w) = .ok w.sorted := by
    rw [Shape.parseChars, read]
    rfl
  rw [Reader.parse, chars, parsed]

end Conduit.Json
