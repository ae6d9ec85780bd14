import Conduit.Substitution

/-! Where in a parameter value a secret stands, what its dotted path is, and what comes to stand there
when the value is resolved. -/
namespace Conduit

inductive Inward where
  | item (index : Nat)
  | field (name : String)
  deriving DecidableEq, Repr

abbrev Spot := List Inward

def Spot.path (path : String) : Spot → String
  | [] => path
  | .item index :: rest => Spot.path s!"{path}.{index}" rest
  | .field name :: rest => Spot.path s!"{path}.{name}" rest

inductive Param.Holds (reference : String) : Param → Spot → Prop where
  | here : Param.Holds reference (.token (.secret reference)) []
  | item {items : List Param} {index : Nat} {p : Param} {spot : Spot}
      (found : items[index]? = some p) (inside : Param.Holds reference p spot) :
      Param.Holds reference (.list items) (.item index :: spot)
  | field {entries : List (String × Param)} {name : String} {p : Param} {spot : Spot}
      (found : (name, p) ∈ entries) (inside : Param.Holds reference p spot) :
      Param.Holds reference (.map entries) (.field name :: spot)

inductive Json.Has : Json → Spot → Json → Prop where
  | here {v : Json} : Json.Has v [] v
  | item {items : List Json} {index : Nat} {v w : Json} {spot : Spot}
      (found : items[index]? = some v) (inside : Json.Has v spot w) :
      Json.Has (.arr items) (.item index :: spot) w
  | field {fields : List (String × Json)} {name : String} {v w : Json} {spot : Spot}
      (found : (name, v) ∈ fields) (inside : Json.Has v spot w) :
      Json.Has (.obj fields) (.field name :: spot) w

namespace Param

mutual
theorem secretsHeld {path found reference : String} : {p : Param} → (found, reference) ∈ p.secrets path →
    ∃ spot, p.Holds reference spot ∧ found = Spot.path path spot
  | .literal _, mem => by simp [secrets] at mem
  | .token (.secret s), mem => by
    simp only [secrets, List.mem_singleton, Prod.mk.injEq] at mem
    obtain ⟨rfl, rfl⟩ := mem
    exact ⟨[], .here, rfl⟩
  | .token (.expr _), mem => by simp [secrets] at mem
  | .list items, mem => by
    obtain ⟨index, p, spot, atIndex, holds, text⟩ := itemSecretsHeld mem
    exact ⟨.item index :: spot, .item atIndex holds, by simpa [Spot.path] using text⟩
  | .map entries, mem => by
    obtain ⟨name, p, spot, inside, holds, text⟩ := entrySecretsHeld mem
    exact ⟨.field name :: spot, .field inside holds, text⟩
theorem itemSecretsHeld {path found reference : String} {start : Nat} : {items : List Param} →
    (found, reference) ∈ secretsOfItems path start items → ∃ (index : Nat) (p : Param) (spot : Spot),
      items[index]? = some p ∧ p.Holds reference spot ∧ found = Spot.path s!"{path}.{start + index}" spot
  | [], mem => by simp [secretsOfItems] at mem
  | p :: rest, mem => by
    rcases List.mem_append.mp mem with head | tail
    · obtain ⟨spot, holds, text⟩ := secretsHeld head
      exact ⟨0, p, spot, rfl, holds, text⟩
    · obtain ⟨index, q, spot, atIndex, holds, text⟩ := itemSecretsHeld tail
      refine ⟨index + 1, q, spot, by simpa using atIndex, holds, ?_⟩
      rw [show start + (index + 1) = start + 1 + index by omega]
      exact text
theorem entrySecretsHeld {path found reference : String} : {entries : List (String × Param)} →
    (found, reference) ∈ secretsOfEntries path entries → ∃ name p spot, (name, p) ∈ entries ∧
      p.Holds reference spot ∧ found = Spot.path s!"{path}.{name}" spot
  | [], mem => by simp [secretsOfEntries] at mem
  | (name, p) :: rest, mem => by
    rcases List.mem_append.mp mem with head | tail
    · obtain ⟨spot, holds, text⟩ := secretsHeld head
      exact ⟨name, p, spot, by simp, holds, text⟩
    · obtain ⟨other, q, spot, inside, holds, text⟩ := entrySecretsHeld tail
      exact ⟨other, q, spot, List.mem_cons_of_mem _ inside, holds, text⟩
end

theorem memItemSecrets {path : String} {use : String × String} {items : List Param} {index start : Nat}
    {p : Param} (found : items[index]? = some p) (mem : use ∈ p.secrets s!"{path}.{start + index}") :
    use ∈ secretsOfItems path start items := by
  induction items generalizing index start with
  | nil => simp at found
  | cons head rest ih =>
    cases index with
    | zero =>
      have same : head = p := by simpa using found
      subst same
      exact List.mem_append_left _ mem
    | succ index =>
      refine List.mem_append_right _ (ih (by simpa using found) ?_)
      rwa [show start + 1 + index = start + (index + 1) by omega]

theorem memEntrySecrets {path : String} {use : String × String} {entries : List (String × Param)}
    {name : String} {p : Param} (found : (name, p) ∈ entries) (mem : use ∈ p.secrets s!"{path}.{name}") :
    use ∈ secretsOfEntries path entries := by
  induction entries with
  | nil => simp at found
  | cons head rest ih =>
    rcases List.mem_cons.mp found with rfl | later
    · exact List.mem_append_left _ mem
    · exact List.mem_append_right _ (ih later)

theorem heldSecrets {reference : String} {p : Param} {spot : Spot} (holds : p.Holds reference spot)
    (path : String) : (Spot.path path spot, reference) ∈ p.secrets path := by
  induction holds generalizing path with
  | here => simp [secrets, Spot.path]
  | @item items index p spot found inside ih =>
    refine memItemSecrets found ?_
    simpa [Spot.path] using ih s!"{path}.{index}"
  | field found inside ih => exact memEntrySecrets found (ih _)

end Param

namespace Substitution

theorem resolvedItem {x : Context} {limit depth index start : Nat} {path : String} {items : List Param}
    {p : Param} (found : items[index]? = some p) :
    (resolveParamItems x limit path depth start items).value[index]? =
      some (resolveParam x limit (itemPath path (start + index)) depth p).value := by
  induction items generalizing index start with
  | nil => simp at found
  | cons head rest ih =>
    cases index with
    | zero =>
      have same : head = p := by simpa using found
      subst same
      simp [resolveParamItems, Traced.both]
    | succ index =>
      have later := @ih index (start + 1) (by simpa using found)
      rw [show start + 1 + index = start + (index + 1) by omega] at later
      simpa [resolveParamItems, Traced.both] using later

theorem resolvedEntry {x : Context} {limit depth : Nat} {path name : String}
    {entries : List (String × Param)} {p : Param} (found : (name, p) ∈ entries) :
    (name, (resolveParam x limit (keyPath path name) depth p).value) ∈
      (resolveParamEntries x limit path depth entries).value := by
  induction entries with
  | nil => simp at found
  | cons head rest ih =>
    obtain ⟨k, q⟩ := head
    rcases List.mem_cons.mp found with same | later
    · cases same
      simp [resolveParamEntries, Traced.both]
    · simp only [resolveParamEntries, Traced.both]
      exact List.mem_cons_of_mem _ (ih later)

theorem heldResolved {x : Context} {limit : Nat} {reference env : String} {p : Param} {spot : Spot}
    (holds : p.Holds reference spot) (registered : x.secretEnv.get? reference = some env)
    (path : String) (depth : Nat) (within : depth + spot.length ≤ limit) :
    (resolveParam x limit path depth p).value.Has spot (.str (Secret.placeholder env)) := by
  induction holds generalizing path depth with
  | here =>
    have shallow : ¬ limit < depth := by simpa using within
    simp only [resolveParam, if_neg shallow, registered]
    exact .here
  | item found inside ih =>
    simp only [List.length_cons] at within
    have shallow : ¬ limit < depth := by omega
    simp only [resolveParam, if_neg shallow, Traced.map]
    refine .item (resolvedItem found) ?_
    exact ih _ (depth + 1) (by omega)
  | field found inside ih =>
    simp only [List.length_cons] at within
    have shallow : ¬ limit < depth := by omega
    simp only [resolveParam, if_neg shallow, Traced.map]
    refine .field (resolvedEntry found) ?_
    exact ih _ (depth + 1) (by omega)

mutual
theorem unregisteredHeld {x : Context} {limit depth : Nat} {path place : String} : {p : Param} →
    .unregisteredSecret place ∈ (resolveParam x limit path depth p).errors →
    ∃ spot reference, p.Holds reference spot ∧ depth + spot.length ≤ limit ∧
      x.secretEnv.get? reference = none
  | .literal _, mem => by
    simp only [resolveParam] at mem
    split at mem <;> simp at mem
  | .token (.secret reference), mem => by
    simp only [resolveParam] at mem
    split at mem
    · simp at mem
    · rename_i shallow
      split at mem
      · simp at mem
      · rename_i absent
        exact ⟨[], reference, .here, by simpa using shallow, absent⟩
  | .token (.expr source), mem => by
    simp only [resolveParam, expression] at mem
    split at mem
    · simp at mem
    · split at mem <;> simp at mem
  | .list items, mem => by
    simp only [resolveParam] at mem
    split at mem
    · simp at mem
    · obtain ⟨index, p, spot, reference, found, holds, within, absent⟩ := unregisteredItem mem
      exact ⟨.item index :: spot, reference, .item found holds, by simp; omega, absent⟩
  | .map entries, mem => by
    simp only [resolveParam] at mem
    split at mem
    · simp at mem
    · obtain ⟨name, p, spot, reference, found, holds, within, absent⟩ := unregisteredEntry mem
      exact ⟨.field name :: spot, reference, .field found holds, by simp; omega, absent⟩
theorem unregisteredItem {x : Context} {limit depth start : Nat} {path place : String} :
    {items : List Param} →
    .unregisteredSecret place ∈ (resolveParamItems x limit path depth start items).errors →
    ∃ (index : Nat) (p : Param) (spot : Spot) (reference : String), items[index]? = some p ∧
      p.Holds reference spot ∧ depth + spot.length ≤ limit ∧ x.secretEnv.get? reference = none
  | [], mem => by simp [resolveParamItems] at mem
  | p :: rest, mem => by
    simp only [resolveParamItems, Traced.both] at mem
    rcases List.mem_append.mp mem with head | tail
    · obtain ⟨spot, reference, found⟩ := unregisteredHeld head
      exact ⟨0, p, spot, reference, rfl, found⟩
    · obtain ⟨index, q, spot, reference, atIndex, found⟩ := unregisteredItem tail
      exact ⟨index + 1, q, spot, reference, by simpa using atIndex, found⟩
theorem unregisteredEntry {x : Context} {limit depth : Nat} {path place : String} :
    {entries : List (String × Param)} →
    .unregisteredSecret place ∈ (resolveParamEntries x limit path depth entries).errors →
    ∃ name p spot reference, (name, p) ∈ entries ∧ p.Holds reference spot ∧
      depth + spot.length ≤ limit ∧ x.secretEnv.get? reference = none
  | [], mem => by simp [resolveParamEntries] at mem
  | (name, p) :: rest, mem => by
    simp only [resolveParamEntries, Traced.both] at mem
    rcases List.mem_append.mp mem with head | tail
    · obtain ⟨spot, reference, found⟩ := unregisteredHeld head
      exact ⟨name, p, spot, reference, by simp, found⟩
    · obtain ⟨other, q, spot, reference, inside, found⟩ := unregisteredEntry tail
      exact ⟨other, q, spot, reference, List.mem_cons_of_mem _ inside, found⟩
end

end Substitution

end Conduit
