import Conduit.Proofs.ValidDocuments

/-! The parameters of a valid channel. Whatever in them has a key of tokens is a token, and a proper one. Resolving them
then fails only where they are too deep, or have a secret that is not registered. -/
namespace Conduit

namespace Param

inductive Within (part : Param) : Param → Prop where
  | here : Within part part
  | item {items : List Param} {p : Param} (among : p ∈ items) (inside : Within part p) : Within part (.list items)
  | entry {entries : List (String × Param)} {p : String × Param} (among : p ∈ entries) (inside : Within part p.2) :
      Within part (.map entries)

def Proper : Param → Prop
  | .literal _ => True
  | .token (.secret reference) => Text.isBlankText reference = false
  | .token (.expr source) => ∃ e, Expression.parse source = .ok e
  | .list _ => True
  | .map entries => ∀ p ∈ entries, p.1 ≠ secretKey ∧ p.1 ≠ exprKey

def Settled (p : Param) : Prop := ∀ part : Param, part.Within p → part.Proper

theorem Settled.proper {p : Param} (settled : p.Settled) : p.Proper := settled p .here

theorem Settled.item {items : List Param} (settled : (list items).Settled) : ∀ p ∈ items, p.Settled :=
  fun _ among part inside => settled part (.item among inside)

theorem Settled.entry {entries : List (String × Param)} (settled : (map entries).Settled) :
    ∀ p ∈ entries, p.2.Settled :=
  fun _ among part inside => settled part (.entry among inside)

theorem literalSettled (v : Json) : (literal v).Settled := by
  rintro _ ⟨⟩
  trivial

theorem tokenSettled {t : Token} (proper : (token t).Proper) : (token t).Settled := by
  rintro _ ⟨⟩
  exact proper

theorem listSettled {items : List Param} (each : ∀ p ∈ items, p.Settled) : (list items).Settled := by
  rintro part (_ | ⟨among, inside⟩ | _)
  · trivial
  · exact each _ among part inside

theorem mapSettled {entries : List (String × Param)} (plain : (map entries).Proper)
    (each : ∀ p ∈ entries, p.2.Settled) : (map entries).Settled := by
  rintro part (_ | _ | ⟨among, inside⟩)
  · exact plain
  · exact each _ among part inside

theorem ofFieldsNames (fields : Fields) : (ofFields fields).map (·.1) = Table.names fields := by
  induction fields with
  | nil => rfl
  | cons f rest ih => exact congrArg (f.1 :: ·) ih

end Param

/-! What is checked of the document. -/

namespace Document

theorem hasKey {fields : Fields} {key : String} : Table.has fields key = true ↔ key ∈ Table.names fields := by
  rw [Table.has, Option.isSome_iff_exists, Table.getSome]

theorem tokenProper {fields : Fields} {path : String}
    (named : (Table.has fields secretKey || Table.has fields exprKey) = true) (clean : token fields path = []) :
    ∃ t, Token.ofFields? fields = some t ∧ (Param.token t).Proper := by
  unfold token at clean
  split at clean
  · cases clean
  next lone =>
    obtain ⟨⟨k, v⟩, rfl⟩ := List.length_eq_one_iff.mp (not_not.mp lone)
    obtain ⟨asSecret, asExpr⟩ := List.append_eq_nil_iff.mp clean
    have found : Table.get? [(k, v)] k = some v := by simp [Table.getCons]
    have key : secretKey = k ∨ exprKey = k := by simpa [hasKey, Table.names] using named
    rcases key with rfl | rfl
    · simp only [found] at asSecret
      split at asSecret
      next none => cases none
      next s same =>
        cases same
        split at asSecret
        · cases asSecret
        next visible => exact ⟨.secret s, rfl, (Bool.not_eq_true _).mp visible⟩
      next => cases asSecret
    · simp only [found] at asExpr
      split at asExpr
      next none => cases none
      next source same =>
        cases same
        split at asExpr
        next e parsed => exact ⟨.expr source, rfl, e, parsed⟩
        next => cases asExpr
      next => cases asExpr

theorem noToken {fields : Fields} (unnamed : (Table.has fields secretKey || Table.has fields exprKey) = false) :
    Token.ofFields? fields = none ∧ (Param.map (Param.ofFields fields)).Proper := by
  have other : secretKey ∉ Table.names fields ∧ exprKey ∉ Table.names fields := by
    simpa [← Bool.not_eq_true, hasKey] using unnamed
  constructor
  · unfold Token.ofFields?
    split
    next k s =>
      have lone : secretKey ≠ k ∧ exprKey ≠ k := by simpa [Table.names] using other
      rw [if_neg lone.1.symm, if_neg lone.2.symm]
    next => rfl
  · intro p member
    have name : p.1 ∈ Table.names fields := Param.ofFieldsNames fields ▸ List.mem_map_of_mem member
    exact ⟨fun same => other.1 (same ▸ name), fun same => other.2 (same ▸ name)⟩

mutual
theorem paramSettled (path : String) : (v : Json) → param path v = [] → (Param.ofJson v).Settled
  | .obj fields, clean => by
    rw [param] at clean
    rw [Param.ofJson]
    split at clean
    next named =>
      obtain ⟨t, found, proper⟩ := tokenProper named clean
      rw [found]
      exact Param.tokenSettled proper
    next unnamed =>
      obtain ⟨none, plain⟩ := noToken (Bool.not_eq_true _ ▸ unnamed)
      rw [none]
      exact Param.mapSettled plain (fieldsSettled path fields clean)
  | .arr items, clean => Param.listSettled (itemsSettled path 0 items clean)
  | .null, _ => Param.literalSettled _
  | .bool _, _ => Param.literalSettled _
  | .num _, _ => Param.literalSettled _
  | .str _, _ => Param.literalSettled _
theorem itemsSettled (path : String) (index : Nat) : (items : List Json) → paramItems path index items = [] →
    ∀ p ∈ Param.ofItems items, p.Settled
  | [], _ => List.forall_mem_nil _
  | v :: rest, clean => by
    obtain ⟨here, later⟩ := List.append_eq_nil_iff.mp clean
    exact List.forall_mem_cons.mpr ⟨paramSettled _ v here, itemsSettled path (index + 1) rest later⟩
theorem fieldsSettled (path : String) : (fields : List (String × Json)) → paramFields path fields = [] →
    ∀ p ∈ Param.ofFields fields, p.2.Settled
  | [], _ => List.forall_mem_nil _
  | (k, v) :: rest, clean => by
    obtain ⟨here, later⟩ := List.append_eq_nil_iff.mp clean
    exact List.forall_mem_cons.mpr ⟨paramSettled _ v here, fieldsSettled path rest later⟩
end

end Document

theorem Stage.Sound.settled {s : Stage} (sound : s.Sound) : ∀ p ∈ s.params, p.2.Settled := by
  have settled := Document.fieldsSettled "" (Param.toFields s.params) (sound.params "")
  rwa [sound.back] at settled

/-! What can go wrong when they are resolved. -/

namespace Substitution

inductive Error.Unmet (limit : Nat) : Error → Prop where
  | tooDeep (path : String) : Unmet limit (.tooDeep path limit)
  | unregisteredSecret (path : String) : Unmet limit (.unregisteredSecret path)

variable {c : Context} {limit : Nat}

theorem unmetWithin {path : String} {depth : Nat} {p : Param}
    (within : ¬ limit < depth → ∀ e ∈ (resolveParam c limit path depth p).errors, e.Unmet limit) :
    ∀ e ∈ (resolveParam c limit path depth p).errors, e.Unmet limit := by
  by_cases deep : limit < depth
  · rw [resolveParam.eq_def, if_pos deep]
    exact List.forall_mem_singleton.mpr (.tooDeep path)
  · exact within deep

mutual
theorem settledErrors (path : String) (depth : Nat) : (p : Param) → p.Settled →
    ∀ e ∈ (resolveParam c limit path depth p).errors, e.Unmet limit
  | .literal v, _ => unmetWithin fun shallow => by
    rw [resolveParam, if_neg shallow]
    exact List.forall_mem_nil _
  | .token (.secret reference), _ => unmetWithin fun shallow => by
    rw [resolveParam, if_neg shallow]
    split
    · exact List.forall_mem_nil _
    · exact List.forall_mem_singleton.mpr (.unregisteredSecret path)
  | .token (.expr source), settled => unmetWithin fun shallow => by
    -- A tree has a value in every context.
    obtain ⟨e, parsed⟩ := settled.proper
    rw [Expression.parse] at parsed
    rw [resolveParam, if_neg shallow, expression, parsed]
    exact List.forall_mem_nil _
  | .list items, settled => unmetWithin fun shallow => by
    rw [resolveParam, if_neg shallow]
    exact itemErrors path (depth + 1) 0 items settled.item
  | .map entries, settled => unmetWithin fun shallow => by
    rw [resolveParam, if_neg shallow]
    exact entryErrors path (depth + 1) entries settled.entry
theorem itemErrors (path : String) (depth index : Nat) : (items : List Param) → (∀ p ∈ items, p.Settled) →
    ∀ e ∈ (resolveParamItems c limit path depth index items).errors, e.Unmet limit
  | [], _ => List.forall_mem_nil _
  | p :: rest, settled => by
    obtain ⟨here, later⟩ := List.forall_mem_cons.mp settled
    exact List.forall_mem_append.mpr
      ⟨settledErrors _ depth p here, itemErrors path depth (index + 1) rest later⟩
theorem entryErrors (path : String) (depth : Nat) : (entries : List (String × Param)) →
    (∀ p ∈ entries, p.2.Settled) → ∀ e ∈ (resolveParamEntries c limit path depth entries).errors, e.Unmet limit
  | [], _ => List.forall_mem_nil _
  | (k, p) :: rest, settled => by
    obtain ⟨here, later⟩ := List.forall_mem_cons.mp settled
    exact List.forall_mem_append.mpr ⟨settledErrors _ depth p here, entryErrors path depth rest later⟩
end

theorem paramsErrors (limit : Nat) (c : Context) {params : List (String × Param)}
    (settled : ∀ p ∈ params, p.2.Settled) : ∀ e ∈ (resolveParams limit c params).errors, e.Unmet limit := by
  intro e member
  obtain ⟨entry, listed, inside⟩ := List.mem_flatMap.mp member
  obtain ⟨p, param, rfl⟩ := List.mem_map.mp listed
  exact settledErrors p.1 0 p.2 (settled p param) e inside

end Substitution

namespace Channel

theorem paramsSettled {document : Json} {c : Channel} (valid : (validateChannel document).channel = some c) :
    ∀ s ∈ c.stages, (∀ p ∈ s.params, ∀ part : Param, part.Within p.2 → part.Proper)
      ∧ ∀ limit context, ∀ e ∈ (Substitution.resolveParams limit context s.params).errors, e.Unmet limit := by
  obtain ⟨clean, -, rfl, -⟩ := validNamed valid
  intro s member
  have settled := ((namedSound clean).stages s member).settled
  exact ⟨settled, fun limit context => Substitution.paramsErrors limit context settled⟩

def mixedDocument : Json :=
  .ofPairs [("channelId", .str "c"), ("title", .str "t"), ("stages", .arr [.ofPairs
    [("id", .str "a"), ("nexonId", .str "n"), ("params", .ofPairs
      [("auth", .ofPairs [("keys", .arr
        [(Token.secret "vault://key").toJson, (Token.expr "stage.id||'x'").toJson])])])]])]

theorem mixedSettled : ∃ c, (validateChannel mixedDocument).channel = some c ∧ ∃ s ∈ c.stages,
    (∀ p ∈ s.params, ∀ part : Param, part.Within p.2 → part.Proper)
      ∧ (Substitution.resolveParams Substitution.defaultDepth {} s.params).errors ≠ []
      ∧ ∀ e ∈ (Substitution.resolveParams Substitution.defaultDepth {} s.params).errors,
        e.Unmet Substitution.defaultDepth := by
  have refused : (validateChannel mixedDocument).channel.any fun c => c.stages.any fun s =>
      !(Substitution.resolveParams Substitution.defaultDepth {} s.params).errors.isEmpty := by decide +kernel
  obtain ⟨c, valid, refused⟩ := (Option.any_eq_true _ _).mp refused
  obtain ⟨s, member, refused⟩ := List.any_eq_true.mp refused
  obtain ⟨proper, unmet⟩ := paramsSettled valid s member
  exact ⟨c, valid, s, member, proper, by simpa using refused, unmet _ _⟩

end Channel

end Conduit
