import Conduit.Proofs.OrderedJson
import Conduit.Substitution

/-! Filling in keeps objects ordered: every value that an expression, a text or a tree becomes is one that could
have been read. -/
namespace Conduit

/-! Expressions. -/

def Expr.Ordered : Expr → Prop
  | .literal v => v.Ordered
  | .path _ => True
  | .orElse l r => l.Ordered ∧ r.Ordered
  | .choose c y n => c.Ordered ∧ y.Ordered ∧ n.Ordered
  | .stringify e => e.Ordered

def Scope.Ordered (scope : Scope) : Prop := ∀ name v, scope name = some v → v.Ordered

theorem Segment.stepOrdered {s : Segment} {v w : Json} (ordered : v.Ordered) (step : s.step v = some w) :
    w.Ordered := by
  have item {items : List Json} {n : Nat} (ordered : (Json.arr items).Ordered) (found : items[n]? = some w) : w.Ordered :=
    Json.orderedArr.mp ordered w (List.mem_of_getElem? found)
  unfold Segment.step at step
  split at step
  next name fields => exact (Json.orderedObj.mp ordered).2 _ (Table.memOfGet step)
  next n items => exact item ordered step
  next name items =>
    obtain ⟨n, -, found⟩ := Option.bind_eq_some_iff.mp step
    exact item ordered found
  next => cases step

theorem Path.followOrdered {segments : List Segment} {v w : Json} (ordered : v.Ordered)
    (found : follow v segments = some w) : w.Ordered := by
  induction segments generalizing v with
  | nil =>
    cases found
    exact ordered
  | cons s rest ih =>
    obtain ⟨next, step, found⟩ := Option.bind_eq_some_iff.mp found
    exact ih (Segment.stepOrdered ordered step) found

theorem Expr.evalOrdered {e : Expr} {scope : Scope} (literals : e.Ordered) (seen : scope.Ordered) :
    (e.eval scope).Ordered := by
  induction e with
  | literal v => exact literals
  | path p =>
    rw [eval]
    cases found : p.lookup scope with
    | none => trivial
    | some v =>
      obtain ⟨root, known, followed⟩ := Option.bind_eq_some_iff.mp found
      exact Path.followOrdered (seen _ _ known) followed
  | orElse l r left right =>
    rw [eval]
    split
    · exact left literals.1
    · exact right literals.2
  | choose c y n _ yes no =>
    rw [eval]
    split
    · exact yes literals.2.1
    · exact no literals.2.2
  | stringify e => trivial

namespace Expression

def Gives (read : Tokens → Except Error (Expr × Tokens)) : Prop :=
  ∀ toks e rest, read toks = .ok (e, rest) → e.Ordered

theorem primaryGives {levels : Nat} (inner : Gives (expr levels)) : Gives (primary levels) := by
  intro toks e rest read
  unfold primary at read
  split at read
  next => cases read
  next s _ _ =>
    cases read
    trivial
  next n _ _ =>
    cases read
    trivial
  next more =>
    obtain ⟨⟨e', rest'⟩, first, read⟩ := Outcome.bindOk.mp read
    obtain ⟨after, -, same⟩ := Outcome.bindOk.mp read
    cases same
    exact inner _ _ _ first
  next name _ more =>
    split_ifs at read
    · cases read
      trivial
    · cases read
      trivial
    · cases read
      trivial
    · obtain ⟨opened, -, read⟩ := Outcome.bindOk.mp read
      obtain ⟨⟨e', rest'⟩, first, read⟩ := Outcome.bindOk.mp read
      obtain ⟨after, -, same⟩ := Outcome.bindOk.mp read
      cases same
      have ordered : e'.Ordered := inner _ _ _ first
      exact ordered
    · split at read
      · cases read
      · obtain ⟨⟨p, rest'⟩, -, same⟩ := Outcome.bindOk.mp read
        cases same
        trivial
  next => cases read

theorem choiceGives {levels : Nat} (inner : Gives (expr levels)) (operand : Gives (primary levels))
    (operands : ∀ left, left.Ordered → Gives (chain levels left)) : Gives (choice levels) := by
  intro toks e rest read
  rw [choice] at read
  obtain ⟨⟨first, rest₁⟩, one, read⟩ := Outcome.bindOk.mp read
  obtain ⟨⟨condition, rest₂⟩, others, read⟩ := Outcome.bindOk.mp read
  have ordered := operands first (operand _ _ _ one) _ _ _ others
  simp only at read
  split at read
  · obtain ⟨⟨yes, rest₃⟩, second, read⟩ := Outcome.bindOk.mp read
    obtain ⟨opened, -, read⟩ := Outcome.bindOk.mp read
    obtain ⟨⟨no, rest₄⟩, third, same⟩ := Outcome.bindOk.mp read
    cases same
    exact ⟨ordered, inner _ _ _ second, inner _ _ _ third⟩
  · cases read
    exact ordered

/-- Each reader at a level uses those before it and the levels below. -/
theorem exprGives (levels : Nat) :
    Gives (expr levels) ∧ Gives (primary levels) ∧ ∀ left, left.Ordered → Gives (chain levels left) := by
  induction levels with
  | zero =>
    have outer : Gives (expr 0) := by
      intro toks e rest read
      rw [expr] at read
      cases read
    refine ⟨outer, primaryGives outer, fun left ordered toks e rest read => ?_⟩
    unfold chain at read
    split at read
    · cases read
    · cases read
      exact ordered
  | succ levels ih =>
    obtain ⟨inner, operand, operands⟩ := ih
    have outer : Gives (expr (levels + 1)) := by
      intro toks e rest read
      rw [expr] at read
      exact choiceGives inner operand operands _ _ _ read
    refine ⟨outer, primaryGives outer, fun left ordered toks e rest read => ?_⟩
    unfold chain at read
    split at read
    · obtain ⟨⟨right, rest'⟩, first, read⟩ := Outcome.bindOk.mp read
      have both : (Expr.orElse left right).Ordered := ⟨ordered, operand _ _ _ first⟩
      exact operands _ both _ _ _ read
    · cases read
      exact ordered

theorem parseOrdered {cs : List Char} {e : Expr} (read : parseChars cs = .ok e) : e.Ordered := by
  obtain ⟨toks, -, read⟩ := Outcome.bindOk.mp read
  unfold ofTokens at read
  by_cases none : toks.isEmpty
  · simp only [none, if_true] at read
    cases read
  · simp only [none, Bool.false_eq_true, if_false] at read
    obtain ⟨⟨e', rest⟩, inner, read⟩ := Outcome.bindOk.mp read
    simp only at read
    split at read
    · cases read
      exact (exprGives _).1 _ _ _ inner
    · cases read

end Expression

theorem Param.toFieldsMap (params : List (String × Param)) :
    toFields params = params.map fun p => (p.1, p.2.toJson) := by
  induction params with
  | nil => rfl
  | cons p rest ih => rw [toFields, ih, List.map_cons]

namespace Substitution

structure Context.Ordered (c : Context) : Prop where
  params : c.params.Ordered
  stage : c.stage.Ordered
  channel : c.channel.Ordered
  runtime : c.runtime.Ordered
  env : c.env.Ordered

theorem Context.scopeOrdered {c : Context} (ordered : c.Ordered) : c.scope.Ordered := by
  intro name v known
  cases name <;> cases known
  · exact ordered.params
  · exact ordered.stage
  · exact ordered.channel
  · exact ordered.runtime
  · exact ordered.env

theorem coerceOrdered (s : String) : (coerce s).Ordered := by
  unfold coerce
  split_ifs
  · trivial
  · trivial
  · trivial
  · split
    next v read =>
      split
      · exact (Json.parseFits read).1
      · trivial
    next => trivial
  · trivial

variable {c : Context}

theorem expressionOrdered (seen : c.Ordered) (source : List Char) (path : String) :
    (expression c source path).value.Ordered := by
  unfold expression
  split
  next e read => exact Expr.evalOrdered (Expression.parseOrdered read) (Context.scopeOrdered seen)
  next => trivial

theorem interpolateOrdered (s path : String) : (interpolate c s path).value.Ordered := by
  unfold interpolate
  split
  · trivial
  · exact coerceOrdered _

theorem secretOrdered (reference path : String) : (secret c reference path).value.Ordered := by
  unfold secret
  split
  · trivial
  · exact Json.orderedObj.mpr ⟨List.pairwise_singleton _ _, by simp [Json.Ordered]⟩

theorem resolveNames (limit : Nat) (path : String) (depth : Nat) (fields : Fields) :
    Table.names (resolveFields c limit path depth fields).value = Table.names fields := by
  induction fields with
  | nil => rfl
  | cons f rest ih =>
    rw [resolveFields, Traced.both, Table.names, List.map_cons]
    exact congrArg (f.1 :: ·) ih

mutual
theorem resolveOrdered (seen : c.Ordered) (limit : Nat) (path : String) (depth : Nat) : (v : Json) → v.Ordered →
    (resolve c limit path depth v).value.Ordered
  | .obj fields, ordered => by
    obtain ⟨table, values⟩ := Json.orderedObj.mp ordered
    rw [resolve]
    split
    · trivial
    · split
      · exact secretOrdered _ _
      · exact expressionOrdered seen _ _
      · exact Json.orderedObj.mpr ⟨(Table.orderedNames (resolveNames ..)).mpr table, fieldsOrdered seen _ _ _ fields values⟩
  | .arr items, ordered => by
    rw [resolve]
    split
    · trivial
    · exact Json.orderedArr.mpr (itemsOrdered seen _ _ _ _ items (Json.orderedArr.mp ordered))
  | .str s, _ => by
    rw [resolve]
    split
    · trivial
    · split
      · exact interpolateOrdered _ _
      · trivial
  | .null, _ => by
    unfold resolve
    split <;> trivial
  | .bool b, _ => by
    unfold resolve
    split <;> trivial
  | .num n, _ => by
    unfold resolve
    split <;> trivial
theorem itemsOrdered (seen : c.Ordered) (limit : Nat) (path : String) (depth index : Nat) : (items : List Json) →
    (∀ v ∈ items, v.Ordered) → ∀ v ∈ (resolveItems c limit path depth index items).value, v.Ordered
  | [], _ => by simp [resolveItems]
  | v :: rest, ordered => by
    obtain ⟨here, others⟩ := List.forall_mem_cons.mp ordered
    rw [resolveItems]
    exact List.forall_mem_cons.mpr ⟨resolveOrdered seen _ _ _ v here, itemsOrdered seen _ _ _ _ rest others⟩
theorem fieldsOrdered (seen : c.Ordered) (limit : Nat) (path : String) (depth : Nat) : (fields : List (String × Json)) →
    (∀ f ∈ fields, f.2.Ordered) → ∀ f ∈ (resolveFields c limit path depth fields).value, f.2.Ordered
  | [], _ => by simp [resolveFields]
  | (k, v) :: rest, ordered => by
    obtain ⟨here, others⟩ := List.forall_mem_cons.mp ordered
    rw [resolveFields]
    exact List.forall_mem_cons.mpr ⟨resolveOrdered seen _ _ _ v here, fieldsOrdered seen _ _ _ rest others⟩
end

theorem paramNames (limit : Nat) (path : String) (depth : Nat) (entries : List (String × Param)) :
    Table.names (resolveParamEntries c limit path depth entries).value = Table.names (Param.toFields entries) := by
  induction entries with
  | nil => rfl
  | cons e rest ih =>
    rw [resolveParamEntries, Param.toFields, Traced.both, Table.names, List.map_cons]
    exact congrArg (e.1 :: ·) ih

mutual
theorem paramOrdered (seen : c.Ordered) (limit : Nat) (path : String) (depth : Nat) : (p : Param) → p.toJson.Ordered →
    (resolveParam c limit path depth p).value.Ordered
  | .literal v, ordered => by
    rw [resolveParam]
    split
    · trivial
    · exact ordered
  | .token (.secret reference), _ => by
    rw [resolveParam]
    split
    · trivial
    · split <;> trivial
  | .token (.expr source), _ => by
    rw [resolveParam]
    split
    · trivial
    · exact expressionOrdered seen _ _
  | .list items, ordered => by
    rw [resolveParam]
    split
    · trivial
    · exact Json.orderedArr.mpr (paramItemsOrdered seen _ _ _ _ items (Json.orderedArr.mp ordered))
  | .map entries, ordered => by
    obtain ⟨table, values⟩ := Json.orderedObj.mp ordered
    rw [resolveParam]
    split
    · trivial
    · exact Json.orderedObj.mpr ⟨(Table.orderedNames (paramNames ..)).mpr table,
        paramEntriesOrdered seen _ _ _ entries values⟩
theorem paramItemsOrdered (seen : c.Ordered) (limit : Nat) (path : String) (depth index : Nat) : (items : List Param) →
    (∀ v ∈ Param.toItems items, v.Ordered) →
    ∀ v ∈ (resolveParamItems c limit path depth index items).value, v.Ordered
  | [], _ => by simp [resolveParamItems]
  | p :: rest, ordered => by
    obtain ⟨here, others⟩ := List.forall_mem_cons.mp ordered
    rw [resolveParamItems]
    exact List.forall_mem_cons.mpr ⟨paramOrdered seen _ _ _ p here, paramItemsOrdered seen _ _ _ _ rest others⟩
theorem paramEntriesOrdered (seen : c.Ordered) (limit : Nat) (path : String) (depth : Nat) :
    (entries : List (String × Param)) → (∀ f ∈ Param.toFields entries, f.2.Ordered) →
    ∀ f ∈ (resolveParamEntries c limit path depth entries).value, f.2.Ordered
  | [], _ => by simp [resolveParamEntries]
  | (k, p) :: rest, ordered => by
    obtain ⟨here, others⟩ := List.forall_mem_cons.mp ordered
    rw [resolveParamEntries]
    exact List.forall_mem_cons.mpr ⟨paramOrdered seen _ _ _ p here, paramEntriesOrdered seen _ _ _ rest others⟩
end

theorem outcomeValue {t : Traced Json} {v : Json} (finished : t.outcome.value = some v) : t.value = v := by
  unfold Traced.outcome at finished
  split at finished
  · exact Option.some.inj finished
  · cases finished

theorem paramsOrdered (seen : c.Ordered) {limit : Nat} {params : List (String × Param)} {v : Json}
    (ordered : (Json.obj (Param.toFields params)).Ordered) (resolved : (resolveParams limit c params).value = some v) :
    v.Ordered := by
  rw [← outcomeValue resolved]
  rw [Param.toFieldsMap] at ordered
  obtain ⟨table, values⟩ := Json.orderedObj.mp ordered
  rw [List.map_map]
  refine Json.orderedObj.mpr ⟨(Table.orderedNames ?_).mpr table, fun f member => ?_⟩
  · simp [Table.names]
  · obtain ⟨p, param, rfl⟩ := List.mem_map.mp member
    exact paramOrdered seen _ _ _ p.2 (values _ (List.mem_map.mpr ⟨p, param, rfl⟩))

theorem substituteOrdered [Regex] (seen : c.Ordered) {limit : Nat} {defs : Option ParamDefs} {tree v : Json}
    (ordered : tree.Ordered) (filled : (substitute limit c defs tree).value = some v) : v.Ordered := by
  rw [← outcomeValue filled]
  exact resolveOrdered seen _ _ _ tree ordered

end Substitution

/-! Parameters. -/

theorem Param.tokenBack {fields : Fields} {t : Token} (found : Token.ofFields? fields = some t) :
    (Param.token t).toJson = .obj fields := by
  unfold Token.ofFields? at found
  split at found
  next k s =>
    split_ifs at found with secret expr
    · cases found
      rw [secret]
      rfl
    · cases found
      rw [expr]
      rfl
  next => cases found

mutual
theorem Param.toJsonOfJson : (v : Json) → (ofJson v).toJson = v
  | .obj fields => by
    rw [ofJson]
    split
    next t found => exact tokenBack found
    next => rw [toJson, toFieldsOfFields fields]
  | .arr items => by rw [ofJson, toJson, toItemsOfItems items]
  | .null => rfl
  | .bool b => rfl
  | .num n => rfl
  | .str s => rfl
theorem Param.toItemsOfItems : (items : List Json) → toItems (ofItems items) = items
  | [] => rfl
  | v :: rest => by rw [ofItems, toItems, toJsonOfJson v, toItemsOfItems rest]
theorem Param.toFieldsOfFields : (fields : List (String × Json)) → toFields (ofFields fields) = fields
  | [] => rfl
  | (k, v) :: rest => by rw [ofFields, toFields, toJsonOfJson v, toFieldsOfFields rest]
end

theorem ParamDefs.fillOrdered {defs : ParamDefs} (defaults : ∀ d ∈ defs, ∀ v ∈ d.2.default, v.Ordered) {v : Json}
    (ordered : v.Ordered) : (defs.fill v).Ordered := by
  unfold fill
  split
  next fields =>
    induction defs generalizing fields with
    | nil => exact ordered
    | cons d rest ih =>
      obtain ⟨here, others⟩ := List.forall_mem_cons.mp defaults
      rw [List.foldl_cons]
      refine ih others _ ?_
      split
      next v given =>
        split
        · exact Json.orderedInsert (here v given) ordered
        · exact ordered
      next => exact ordered
  next => exact ordered

end Conduit
