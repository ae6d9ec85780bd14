import Conduit.Pattern
import Conduit.Proofs.PartedText
import Conduit.Proofs.SecretRenaming

/-! A value comes to the same whether it is filled in as a tree or resolved as the parameter it is read as,
when its secrets are registered and it has no text that a tree would fill in. Both go down it together,
each on paths from a root of its own. -/
namespace Conduit

namespace Json

mutual
def texts : Json → List String
  | .obj fields =>
    match Token.ofFields? fields with
    | some _ => []
    | none => textsOfFields fields
  | .arr items => textsOfItems items
  | .str s => [s]
  | _ => []
def textsOfItems : List Json → List String
  | [] => []
  | v :: rest => texts v ++ textsOfItems rest
def textsOfFields : List (String × Json) → List String
  | [] => []
  | (_, v) :: rest => texts v ++ textsOfFields rest
end

end Json

namespace Substitution

/-! Places below another root. -/

def rerootedPath (root path : String) : String :=
  match path.toList with
  | '$' :: rest => root ++ String.ofList rest
  | _ => path

def Error.rerooted (root : String) : Error → Error
  | .param e => .param e
  | .expression path reason => .expression (rerootedPath root path) reason
  | .unregisteredSecret path => .unregisteredSecret (rerootedPath root path)
  | .tooDeep path limit => .tooDeep (rerootedPath root path) limit

theorem rerootedBelow (root rest : String) : rerootedPath root ("$" ++ rest) = root ++ rest := by
  simp [rerootedPath, String.toList_append]

theorem keyPathBelow (root rest key : String) : keyPath (root ++ rest) key = root ++ keyPath rest key := by
  simp only [keyPath, toString, String.append_assoc]

theorem itemPathBelow (root rest : String) (index : Nat) :
    itemPath (root ++ rest) index = root ++ itemPath rest index := by
  simp only [itemPath, toString, String.append_assoc]

structure Rerooted {α : Type} (root : String) (a b : Traced α) : Prop where
  value : b.value = a.value
  errors : b.errors = a.errors.map (.rerooted root)

namespace Rerooted

variable {α β γ : Type} {root : String}

theorem pure (value : α) (notes notes' : List String) : Rerooted root ⟨value, [], notes⟩ ⟨value, [], notes'⟩ :=
  ⟨rfl, rfl⟩

theorem map {a b : Traced α} (same : Rerooted root a b) (f : α → β) : Rerooted root (a.map f) (b.map f) :=
  ⟨congrArg f same.value, same.errors⟩

theorem both {a b : Traced α} {a' b' : Traced β} (first : Rerooted root a b) (second : Rerooted root a' b')
    (f : α → β → γ) : Rerooted root (.both f a a') (.both f b b') := by
  constructor
  · simp only [Traced.both, first.value, second.value]
  · simp only [Traced.both, first.errors, second.errors, List.map_append]

theorem ofExpression (c : Context) (source : List Char) (rest : String) :
    Rerooted root (expression c source ("$" ++ rest)) (expression c source (root ++ rest)) := by
  simp only [expression]
  split
  · exact pure _ _ _
  · exact ⟨rfl, by simp only [List.map_cons, List.map_nil, Error.rerooted, rerootedBelow]⟩

end Rerooted

section

variable {c : Context} {limit : Nat} {root : String}

theorem rerootedWithin {depth : Nat} {rest : String} {v : Json} {p : Param}
    (within : ¬ limit < depth →
      Rerooted root (resolve c limit ("$" ++ rest) depth v) (resolveParam c limit (root ++ rest) depth p)) :
    Rerooted root (resolve c limit ("$" ++ rest) depth v) (resolveParam c limit (root ++ rest) depth p) := by
  by_cases deep : limit < depth
  · rw [resolve.eq_def, resolveParam.eq_def, if_pos deep, if_pos deep]
    exact ⟨rfl, by simp only [List.map_cons, List.map_nil, Error.rerooted, rerootedBelow]⟩
  · exact within deep

theorem literalRerooted {depth : Nat} {rest : String} {v : Json}
    (kept : ∀ path, ¬ limit < depth → resolve c limit path depth v = ⟨v, [], []⟩) :
    Rerooted root (resolve c limit ("$" ++ rest) depth v) (resolveParam c limit (root ++ rest) depth (.literal v)) := by
  refine rerootedWithin fun shallow => ?_
  rw [kept _ shallow, resolveParam, if_neg shallow]
  exact .pure ..

mutual
theorem valueRerooted (depth : Nat) (rest : String) : (v : Json) →
    (∀ s ∈ v.texts, Expression.hasInterpolation s.toList = false) →
    (∀ reference ∈ v.secretTokens, Table.has c.secretEnv reference) →
    Rerooted root (resolve c limit ("$" ++ rest) depth v)
      (resolveParam c limit (root ++ rest) depth (Param.ofJson v))
  | .obj fields, settled, registered => by
    refine rerootedWithin fun shallow => ?_
    simp only [Json.texts, Json.secretTokens] at settled registered
    simp only [resolve, Param.ofJson, if_neg shallow]
    cases token : Token.ofFields? fields with
    | none =>
      simp only [token] at settled registered
      simp only [resolveParam, if_neg shallow]
      exact (fieldsRerooted _ _ fields settled registered).map _
    | some t =>
      cases t with
      | expr source =>
        simp only [resolveParam, if_neg shallow]
        exact .ofExpression ..
      | secret reference =>
        simp only [token, List.forall_mem_singleton, Table.has] at registered
        obtain ⟨env, found⟩ := Option.isSome_iff_exists.mp registered
        simp only [secret, resolveParam, if_neg shallow, found]
        exact .pure ..
  | .arr items, settled, registered => by
    refine rerootedWithin fun shallow => ?_
    simp only [resolve, Param.ofJson, resolveParam, if_neg shallow]
    exact (itemsRerooted _ _ 0 items settled registered).map _
  | .str s, settled, _ => by
    have kept : Expression.hasInterpolation s.toList = false := settled s List.mem_cons_self
    refine literalRerooted fun path shallow => ?_
    simp only [resolve, if_neg shallow, kept, Bool.false_eq_true, if_false]
  | .null, _, _ => literalRerooted fun path shallow => if_neg shallow
  | .bool b, _, _ => literalRerooted fun path shallow => if_neg shallow
  | .num n, _, _ => literalRerooted fun path shallow => if_neg shallow
theorem itemsRerooted (depth : Nat) (rest : String) (index : Nat) : (items : List Json) →
    (∀ s ∈ Json.textsOfItems items, Expression.hasInterpolation s.toList = false) →
    (∀ reference ∈ Json.secretTokensOfItems items, Table.has c.secretEnv reference) →
    Rerooted root (resolveItems c limit ("$" ++ rest) depth index items)
      (resolveParamItems c limit (root ++ rest) depth index (Param.ofItems items))
  | [], _, _ => .pure ..
  | v :: others, settled, registered => by
    obtain ⟨settled, later⟩ := List.forall_mem_append.mp settled
    obtain ⟨registered, after⟩ := List.forall_mem_append.mp registered
    rw [resolveItems, Param.ofItems, resolveParamItems, itemPathBelow, itemPathBelow]
    exact (valueRerooted depth _ v settled registered).both (itemsRerooted depth rest (index + 1) others later after) _
theorem fieldsRerooted (depth : Nat) (rest : String) : (fields : List (String × Json)) →
    (∀ s ∈ Json.textsOfFields fields, Expression.hasInterpolation s.toList = false) →
    (∀ reference ∈ Json.secretTokensOfFields fields, Table.has c.secretEnv reference) →
    Rerooted root (resolveFields c limit ("$" ++ rest) depth fields)
      (resolveParamEntries c limit (root ++ rest) depth (Param.ofFields fields))
  | [], _, _ => .pure ..
  | (key, v) :: others, settled, registered => by
    obtain ⟨settled, later⟩ := List.forall_mem_append.mp settled
    obtain ⟨registered, after⟩ := List.forall_mem_append.mp registered
    rw [resolveFields, Param.ofFields, resolveParamEntries, keyPathBelow, keyPathBelow]
    exact (valueRerooted depth _ v settled registered).both (fieldsRerooted depth rest others later after) _
end

end

theorem paramAsTree [Regex] (limit : Nat) (c : Context) (name : String) (v : Json)
    (settled : ∀ s ∈ v.texts, ¬ [Expression.openBrace, Expression.openBrace] <:+: s.toList)
    (registered : ∀ reference ∈ v.secretTokens, Table.has c.secretEnv reference) :
    let given := resolveParams limit c [(name, Param.ofJson v)]
    let tree := substitute limit c none v
    (given.success ∧ tree.success ∧ ∃ w, tree.value = some w ∧ given.value = some (.obj [(name, w)]))
      ∨ (¬ given.success ∧ ¬ tree.success ∧ given.errors = tree.errors.map (.rerooted name)) := by
  have same : Rerooted name (resolve c limit "$" 0 v) (resolveParam c limit name 0 (Param.ofJson v)) := by
    have noBraces : ∀ s ∈ v.texts, Expression.hasInterpolation s.toList = false := fun s among => by
      simpa [Expression.hasInterpolation, ← Expression.findPairIff] using settled s among
    have below : Rerooted name (resolve c limit ("$" ++ "") 0 v) (resolveParam c limit (name ++ "") 0 (Param.ofJson v)) :=
      valueRerooted 0 "" v noBraces registered
    simpa only [String.append_empty] using below
  intro given tree
  have errors : given.errors = tree.errors.map (.rerooted name) := by
    simpa [given, tree, resolveParams, substitute, Traced.outcome] using same.errors
  have success : given.success = tree.success := by
    rw [Outcome.success, errors, List.isEmpty_map]
    rfl
  cases clean : tree.success with
  | true =>
    refine .inl ⟨success.trans clean, rfl, (resolve c limit "$" 0 v).value, ?_, ?_⟩
    · exact if_pos clean
    · rw [← same.value]
      exact if_pos (success.trans clean)
  | false => exact .inr ⟨by simp [success, clean], by simp, errors⟩

def nearToken : Json :=
  .obj [("list", .arr [.nat 1, (Token.secret "vault://key").toJson, (Token.expr "stage.id").toJson]),
    ("near", .obj [(secretKey, .nat 5)])]

def keyContext : Context where
  stage := .obj [("id", .str "first")]
  secretEnv := [("vault://key", "GJ_SECRET_KEY")]

attribute [local instance] Pattern.engine in
theorem nearTokenAsTree :
    (∃ w, (substitute 2 keyContext none nearToken).value = some w
        ∧ (resolveParams 2 keyContext [("p", Param.ofJson nearToken)]).value = some (.obj [("p", w)]))
      ∧ (resolveParams 1 keyContext [("p", Param.ofJson nearToken)]).errors
        = (substitute 1 keyContext none nearToken).errors.map (.rerooted "p") := by
  have settled : ∀ s ∈ nearToken.texts, ¬ [Expression.openBrace, Expression.openBrace] <:+: s.toList := by decide
  have registered : ∀ reference ∈ nearToken.secretTokens, Table.has keyContext.secretEnv reference := by decide
  constructor
  · rcases paramAsTree 2 keyContext "p" nearToken settled registered with ⟨-, -, found⟩ | ⟨-, failed, -⟩
    · exact found
    · exact absurd (by decide +kernel) failed
  · rcases paramAsTree 1 keyContext "p" nearToken settled registered with ⟨-, passed, -⟩ | ⟨-, -, same⟩
    · exact absurd passed (by decide +kernel)
    · exact same

end Substitution
end Conduit
