import Conduit.Basic
import Mathlib.Data.List.Nodup

/-! What a table answers after its insertions, and the order that insertion keeps. The answers do not
rest on that order: an earlier entry of a name always hides a later one. -/
namespace Conduit.Table

variable {α β : Type}

theorem getCons (k : String) (v : α) (rest : Table α) (name : String) :
    get? ((k, v) :: rest) name = if name = k then some v else get? rest name := by
  by_cases same : name = k
  · simp [get?, same]
  · have different : (name == k) = false := by simpa using same
    simp [get?, List.lookup_cons, different, same]

theorem getInsert (k : String) (v : α) (table : Table α) (name : String) :
    get? (insert k v table) name = if name = k then some v else get? table name := by
  induction table with
  | nil => simp [insert, getCons]
  | cons head rest ih =>
    obtain ⟨j, w⟩ := head
    simp only [insert]
    split
    · rw [getCons]
    · split
      · rename_i same
        subst same
        simp only [getCons]
        split <;> rfl
      · rename_i different
        simp only [getCons, ih]
        split
        · rename_i here
          subst here
          rw [if_neg (fun back => different back.symm)]
        · rfl

theorem getOfMap (f : α → β) (table : Table α) (name : String) :
    get? (table.map fun p => (p.1, f p.2)) name = (get? table name).map f := by
  induction table with
  | nil => rfl
  | cons head rest ih =>
    obtain ⟨k, v⟩ := head
    rw [List.map_cons, getCons, getCons, ih]
    split <;> rfl

theorem insertOfMap (f : α → β) (k : String) (v : α) (table : Table α) :
    insert k (f v) (table.map fun p => (p.1, f p.2)) = (insert k v table).map fun p => (p.1, f p.2) := by
  induction table with
  | nil => rfl
  | cons head rest ih =>
    simp only [List.map_cons, insert]
    split
    · rfl
    · split
      · rfl
      · rw [ih, List.map_cons]

theorem getFilter (keep : String → Bool) (table : Table α) (name : String) :
    get? (table.filter fun p => keep p.1) name = if keep name then get? table name else none := by
  induction table with
  | nil => exact (ite_self _).symm
  | cons head rest ih =>
    obtain ⟨j, w⟩ := head
    rw [List.filter_cons, getCons]
    split
    next kept =>
      rw [getCons, ih]
      by_cases same : name = j
      · rw [if_pos same, if_pos same, same, if_pos kept]
      · rw [if_neg same, if_neg same]
    next dropped =>
      rw [ih]
      by_cases same : name = j
      · rw [same, if_neg dropped, if_neg dropped]
      · rw [if_neg same]

theorem getErase (table : Table α) (k name : String) :
    get? (erase table k) name = if name = k then none else get? table name := by
  rw [erase, getFilter fun n => decide (n ≠ k)]
  by_cases same : name = k <;> simp [same]

theorem memOfGet {table : Table α} {name : String} {v : α} (found : get? table name = some v) :
    (name, v) ∈ table := by
  induction table with
  | nil => simp [get?] at found
  | cons head rest ih =>
    obtain ⟨k, w⟩ := head
    rw [getCons] at found
    split at found
    · rename_i same
      cases Option.some.inj found
      simp [same]
    · exact List.mem_cons_of_mem _ (ih found)

theorem memInsert {k : String} {v : α} {table : Table α} {p : String × α} (mem : p ∈ insert k v table) :
    p = (k, v) ∨ p ∈ table := by
  induction table with
  | nil => simpa [insert] using mem
  | cons head rest ih =>
    simp only [insert] at mem
    split at mem
    · simpa using mem
    · split at mem
      · rcases List.mem_cons.mp mem with here | below
        · exact .inl here
        · exact .inr (List.mem_cons_of_mem _ below)
      · rcases List.mem_cons.mp mem with here | below
        · exact .inr (here ▸ List.mem_cons_self)
        · exact (ih below).imp_right (List.mem_cons_of_mem _)

theorem insertOrdered (k : String) (v : α) {table : Table α} (ordered : Ordered table) :
    Ordered (insert k v table) := by
  induction table with
  | nil => exact List.pairwise_singleton _ _
  | cons head rest ih =>
    obtain ⟨j, w⟩ := head
    obtain ⟨above, below⟩ := List.pairwise_cons.mp ordered
    simp only [insert]
    split
    · rename_i less
      refine List.pairwise_cons.mpr ⟨?_, ordered⟩
      intro p mem
      rcases List.mem_cons.mp mem with rfl | later
      · exact less
      · exact String.lt_trans less (above p later)
    · rename_i notLess
      split
      · rename_i same
        subst same
        exact List.pairwise_cons.mpr ⟨above, below⟩
      · rename_i different
        refine List.pairwise_cons.mpr ⟨?_, ih below⟩
        intro p mem
        rcases memInsert mem with rfl | later
        · refine String.not_le.mp (fun least => different (String.le_antisymm least ?_))
          exact String.not_lt.mp notLess
        · exact above p later

theorem foldInsertOrdered (pairs : List (String × α)) {table : Table α} (ordered : Ordered table) :
    Ordered (pairs.foldl (fun table p => insert p.1 p.2 table) table) := by
  induction pairs generalizing table with
  | nil => exact ordered
  | cons p rest ih => exact ih (insertOrdered p.1 p.2 ordered)

theorem ofListOrdered (pairs : List (String × α)) : Ordered (ofList pairs) :=
  foldInsertOrdered pairs List.Pairwise.nil

theorem memOfList {pairs : List (String × α)} {p : String × α} (mem : p ∈ ofList pairs) : p ∈ pairs := by
  suffices step : ∀ table : Table α, p ∈ pairs.foldl (fun table p => insert p.1 p.2 table) table →
      p ∈ table ∨ p ∈ pairs by
    simpa using step [] mem
  clear mem
  induction pairs with
  | nil => exact fun table mem => .inl mem
  | cons q rest ih =>
    intro table mem
    rcases ih _ mem with early | late
    · rcases memInsert early with here | before
      · exact .inr (here ▸ List.mem_cons_self)
      · exact .inl before
    · exact .inr (List.mem_cons_of_mem _ late)

theorem getOfList (pairs : List (String × α)) (name : String) :
    get? (ofList pairs) name = (pairs.reverse.find? fun p => p.1 = name).map (·.2) := by
  suffices step : ∀ table : Table α, get? (pairs.foldl (fun table p => insert p.1 p.2 table) table) name =
      ((pairs.reverse.find? fun p => p.1 = name).map (·.2)).or (get? table name) by
    simpa [get?, ofList] using step []
  induction pairs with
  | nil => simp
  | cons q rest ih =>
    intro table
    rw [List.foldl_cons, ih, getInsert, List.reverse_cons, List.find?_append]
    cases rest.reverse.find? fun p => p.1 = name with
    | some p => simp
    | none =>
      by_cases same : q.1 = name
      · simp [same]
      · simp [same, Ne.symm same]

theorem getSome (table : Table α) (name : String) : (∃ v, get? table name = some v) ↔ name ∈ names table := by
  induction table with
  | nil => simp [get?, names]
  | cons head rest ih =>
    obtain ⟨k, w⟩ := head
    rw [getCons]
    by_cases same : name = k
    · simp [same, names]
    · rw [if_neg same, ih]
      simp [names, same]

theorem namesOfList (pairs : List (String × α)) (name : String) :
    name ∈ names (ofList pairs) ↔ name ∈ pairs.map (·.1) := by
  rw [← getSome, getOfList]
  constructor
  · rintro ⟨v, found⟩
    obtain ⟨p, found, -⟩ := Option.map_eq_some_iff.mp found
    have same : p.1 = name := by simpa using List.find?_some found
    exact List.mem_map.mpr ⟨p, List.mem_reverse.mp (List.mem_of_find?_eq_some found), same⟩
  · intro listed
    obtain ⟨p, member, rfl⟩ := List.mem_map.mp listed
    have found : (pairs.reverse.find? fun q => q.1 = p.1).isSome :=
      List.find?_isSome.mpr ⟨p, List.mem_reverse.mpr member, by simp⟩
    obtain ⟨q, found⟩ := Option.isSome_iff_exists.mp found
    exact ⟨q.2, by rw [found]; rfl⟩

theorem memDistinct {pairs : List (String × α)} (distinct : (pairs.map (·.1)).Nodup) {p : String × α}
    (mem : p ∈ pairs) : p ∈ ofList pairs := by
  obtain ⟨v, found⟩ := (getSome (ofList pairs) p.1).mpr ((namesOfList pairs p.1).mpr (List.mem_map.mpr ⟨p, mem, rfl⟩))
  have kept := memOfGet found
  rwa [← List.inj_on_of_nodup_map distinct mem (memOfList kept) rfl] at kept

theorem getOfMem {table : Table α} (ordered : Ordered table) {name : String} {v : α}
    (mem : (name, v) ∈ table) : get? table name = some v := by
  induction table with
  | nil => simp at mem
  | cons head rest ih =>
    obtain ⟨k, w⟩ := head
    obtain ⟨above, below⟩ := List.pairwise_cons.mp ordered
    rw [getCons]
    rcases List.mem_cons.mp mem with same | later
    · cases same
      rw [if_pos rfl]
    · have different : name ≠ k := fun same => String.ne_of_lt (above _ later) same.symm
      rw [if_neg different]
      exact ih below later

theorem nodupOfOrdered {table : Table α} (ordered : Ordered table) : table.Nodup :=
  ordered.imp fun {_ _} less same => String.ne_of_lt less (congrArg Prod.fst same)

theorem eraseOrdered {table : Table α} (ordered : Ordered table) (name : String) : Ordered (erase table name) :=
  ordered.sublist List.filter_sublist

theorem getAfter {k : String} {rest : Table α} (after : ∀ p ∈ rest, k < p.1) : get? rest k = none :=
  Option.eq_none_iff_forall_ne_some.mpr fun _ found => String.lt_irrefl k (after _ (memOfGet found))

theorem orderedSame {a b : Table α} (first : Ordered a) (second : Ordered b)
    (same : ∀ name, get? a name = get? b name) : a = b := by
  induction a generalizing b with
  | nil =>
    cases b with
    | nil => rfl
    | cons q b =>
      have here := same q.1
      rw [getCons, if_pos rfl] at here
      cases here
  | cons p a ih =>
    obtain ⟨above, first⟩ := List.pairwise_cons.mp first
    cases b with
    | nil =>
      have here := same p.1
      rw [getCons, if_pos rfl] at here
      cases here
    | cons q b =>
      obtain ⟨beyond, second⟩ := List.pairwise_cons.mp second
      have key : p.1 = q.1 := by
        refine Decidable.byContradiction fun apart => ?_
        have inFirst := same q.1
        have inSecond := same p.1
        rw [getCons, getCons, if_neg (Ne.symm apart), if_pos rfl] at inFirst
        rw [getCons, getCons, if_pos rfl, if_neg apart] at inSecond
        exact String.lt_irrefl _ (String.lt_trans (above _ (memOfGet inFirst)) (beyond _ (memOfGet inSecond.symm)))
      have value := same p.1
      rw [getCons, getCons, if_pos rfl, if_pos key, Option.some.injEq] at value
      have rest : a = b := ih first second fun name => by
        by_cases here : name = p.1
        · rw [here, getAfter above, key, getAfter beyond]
        · have there := same name
          rwa [getCons, getCons, if_neg here, if_neg (key ▸ here)] at there
      rw [rest, show p = q from Prod.ext key value]

theorem filterOfList (keep : String → Bool) (pairs : List (String × α)) :
    (ofList pairs).filter (fun p => keep p.1) = ofList (pairs.filter fun p => keep p.1) := by
  refine orderedSame ((ofListOrdered _).sublist List.filter_sublist) (ofListOrdered _) fun name => ?_
  rw [getFilter, getOfList, getOfList, ← List.filter_reverse, List.find?_filter]
  split
  next kept =>
    congr 2
    funext p
    by_cases here : p.1 = name <;> simp [here, kept]
  next dropped =>
    rw [List.find?_eq_none.mpr fun p _ => ?_]
    · rfl
    · by_cases here : p.1 = name <;> simp [here, dropped]

theorem eraseOfList (pairs : List (String × α)) (name : String) :
    erase (ofList pairs) name = ofList (pairs.filter fun p => p.1 ≠ name) := filterOfList (fun n => n ≠ name) pairs

theorem insertLast {table : Table α} {k : String} (last : ∀ p ∈ table, p.1 < k) (v : α) :
    insert k v table = table ++ [(k, v)] := by
  induction table with
  | nil => rfl
  | cons head rest ih =>
    obtain ⟨less, others⟩ := List.forall_mem_cons.mp last
    have notLess : ¬ k < head.1 := fun greater => String.lt_irrefl _ (String.lt_trans less greater)
    have different : k ≠ head.1 := fun same => String.ne_of_lt less same.symm
    rw [insert, if_neg notLess, if_neg different, ih others]
    rfl

theorem ofListSame {table : Table α} (ordered : Ordered table) : ofList table = table := by
  suffices step : ∀ known : Table α, Ordered (known ++ table) →
      table.foldl (fun table p => insert p.1 p.2 table) known = known ++ table by
    exact step [] ordered
  clear ordered
  induction table with
  | nil => simp
  | cons p rest ih =>
    intro known ordered
    have last : ∀ q ∈ known, q.1 < p.1 := fun q member =>
      (List.pairwise_append.mp ordered).2.2 q member p List.mem_cons_self
    rw [List.foldl_cons, insertLast last, ih _ (by simpa using ordered)]
    simp

theorem findLast {table : Table α} (ordered : Ordered table) (name : String) :
    (table.reverse.find? fun p => p.1 = name).map (·.2) = get? table name := by
  rw [← getOfList, ofListSame ordered]

theorem orderedNames {β : Type} {a : Table α} {b : Table β} (same : names a = names b) :
    Ordered a ↔ Ordered b := by
  have byNames {γ : Type} (t : Table γ) : Ordered t ↔ (names t).Pairwise (· < ·) := by
    rw [names, List.pairwise_map]
    rfl
  rw [byNames, byNames, same]

end Conduit.Table
