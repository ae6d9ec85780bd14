import Conduit.Nexon.Validity
import Conduit.Pattern
import Conduit.Proofs.Tables
import Conduit.Substitution
import Mathlib.Data.List.Basic

/-! The scan for the parameters that a tree reads misses none. Filling in a tree evaluates the expressions in it and
looks at nothing else of its context, and an expression looks at its paths alone; so a parameter that is not reported is
not read, unless the parameters are read as a whole. -/
namespace Conduit

inductive Json.Evaluates (e : Expr) : Json → Prop where
  | token {fields : Fields} {source : String} (token : Token.ofFields? fields = some (.expr source))
      (parsed : Expression.parse source = .ok e) : Evaluates e (.obj fields)
  | text {s : String} {pieces : List Expression.Piece} {source : List Char}
      (split : Expression.pieces s.toList = .ok pieces) (among : .expr source ∈ pieces)
      (parsed : Expression.parseChars source = .ok e) : Evaluates e (.str s)
  | item {items : List Json} {v : Json} (among : v ∈ items) (inside : Evaluates e v) : Evaluates e (.arr items)
  | field {fields : Fields} {f : String × Json} (plain : Token.ofFields? fields = none) (among : f ∈ fields)
      (inside : Evaluates e f.2) : Evaluates e (.obj fields)

/-! The scan. -/

theorem paramsOfSourceParsed {source : List Char} {e : Expr} (parsed : Expression.parseChars source = .ok e) :
    paramsOfSource source = e.paths.filterMap Path.param? := by
  rw [paramsOfSource, parsed]

theorem memItemRefs {items : List Json} {v : Json} {name : String} (among : v ∈ items) (read : name ∈ paramRefs v) :
    name ∈ paramRefsOfItems items := by
  induction items with
  | nil => cases among
  | cons w rest ih =>
    rcases List.mem_cons.mp among with rfl | later
    · exact List.mem_append_left _ read
    · exact List.mem_append_right _ (ih later)

theorem memFieldRefs {fields : Fields} {f : String × Json} {name : String} (among : f ∈ fields)
    (read : name ∈ paramRefs f.2) : name ∈ paramRefsOfFields fields := by
  induction fields with
  | nil => cases among
  | cons g rest ih =>
    rcases List.mem_cons.mp among with rfl | later
    · exact List.mem_append_left _ read
    · exact List.mem_append_right _ (ih later)

theorem Expression.interpolated {cs source : List Char} {pieces : List Piece}
    (split : Expression.pieces cs = .ok pieces) (among : .expr source ∈ pieces) : hasInterpolation cs = true := by
  rw [Expression.pieces, Expression.split] at split
  split at split
  next none =>
    cases split
    split at among <;> simp at among
  next found => rw [hasInterpolation, found, Option.isSome_some]

theorem Json.Evaluates.reported {e : Expr} {v : Json} (evaluates : v.Evaluates e) {p : Path} (path : p ∈ e.paths)
    {name : String} (param : p.param? = some name) : name ∈ paramRefs v := by
  have read : name ∈ e.paths.filterMap Path.param? := List.mem_filterMap.mpr ⟨p, path, param⟩
  induction evaluates with
  | token token parsed =>
    rw [Expression.parse] at parsed
    simp only [paramRefs, token, paramsOfSourceParsed parsed, read]
  | text split among parsed =>
    rw [paramRefs, if_pos (Expression.interpolated split among), paramsOfText, split]
    refine List.mem_flatMap.mpr ⟨_, among, ?_⟩
    simp only [paramsOfSourceParsed parsed, read]
  | item among _ ih =>
    rw [paramRefs]
    exact memItemRefs among ih
  | field plain among _ ih =>
    rw [paramRefs, plain]
    exact memFieldRefs among ih

/-! Expressions. -/

theorem Expr.evalAlike {scope scope' : Scope} (e : Expr) (alike : ∀ p ∈ e.paths, p.lookup scope = p.lookup scope') :
    e.eval scope = e.eval scope' := by
  induction e with
  | literal v => rfl
  | path p => rw [eval, eval, alike p (List.mem_singleton_self p)]
  | orElse l r left right =>
    obtain ⟨first, second⟩ := List.forall_mem_append.mp alike
    rw [eval, eval, left first, right second]
  | choose c y n condition yes no =>
    obtain ⟨first, third⟩ := List.forall_mem_append.mp alike
    obtain ⟨first, second⟩ := List.forall_mem_append.mp first
    rw [eval, eval, condition first, yes second, no third]
  | stringify e inner => rw [eval, eval, inner alike]

def Path.bare (p : Path) : Prop := p.root = .params ∧ p.segments = []

namespace Substitution

structure Context.SameBut (name : String) (x y : Context) : Prop where
  params : ∃ a b : Fields, x.params = .obj a ∧ y.params = .obj b ∧ ∀ other ≠ name, a.get? other = b.get? other
  stage : x.stage = y.stage
  channel : x.channel = y.channel
  runtime : x.runtime = y.runtime
  env : x.env = y.env
  secretEnv : x.secretEnv = y.secretEnv

variable {x y : Context} {name : String}

theorem Context.SameBut.field (same : x.SameBut name y) {other : String} (apart : other ≠ name) :
    x.params.field? other = y.params.field? other := by
  obtain ⟨a, b, left, right, others⟩ := same.params
  rw [left, right]
  exact others other apart

theorem Context.SameBut.lookup (same : x.SameBut name y) {p : Path} (some : ¬ p.bare) (other : p.param? ≠ .some name) :
    p.lookup x.scope = p.lookup y.scope := by
  obtain ⟨root, segments⟩ := p
  cases root with
  | params =>
    obtain ⟨a, b, left, right, others⟩ := same.params
    simp only [Path.lookup, Context.scope, Option.bind_some, left, right]
    cases segments with
    | nil => exact absurd ⟨rfl, rfl⟩ some
    | cons s rest =>
      cases s with
      | index n => rfl
      | key k =>
        have apart : k ≠ name := fun here => other (congrArg Option.some here)
        simp only [Path.follow, Segment.step, others k apart]
  | stage => simp only [Path.lookup, Context.scope, same.stage]
  | channel => simp only [Path.lookup, Context.scope, same.channel]
  | runtime => simp only [Path.lookup, Context.scope, same.runtime]
  | env => simp only [Path.lookup, Context.scope, same.env]

/-! Trees. -/

theorem expressionAlike {source : List Char} (path : String)
    (alike : ∀ e, Expression.parseChars source = .ok e → e.eval x.scope = e.eval y.scope) :
    expression x source path = expression y source path := by
  rw [expression, expression]
  split
  next e parsed => rw [alike e parsed]
  next => rfl

theorem piecesAlike (path : String) {pieces : List Expression.Piece}
    (alike : ∀ source, .expr source ∈ pieces → ∀ e, Expression.parseChars source = .ok e →
      e.eval x.scope = e.eval y.scope) : renderPieces x path pieces = renderPieces y path pieces := by
  induction pieces with
  | nil => rfl
  | cons p rest ih =>
    have later := ih fun source member => alike source (List.mem_cons_of_mem _ member)
    cases p with
    | text cs => rw [renderPieces, renderPieces, later]; rfl
    | expr source =>
      have here := expressionAlike path (alike source List.mem_cons_self)
      rw [renderPieces, renderPieces, later, renderPiece, renderPiece, here]

theorem interpolateAlike (path : String) {s : String}
    (alike : ∀ e, (Json.str s).Evaluates e → e.eval x.scope = e.eval y.scope) :
    interpolate x s path = interpolate y s path := by
  rw [interpolate, interpolate]
  split
  next => rfl
  next pieces split =>
    rw [piecesAlike path fun source among e parsed => alike e (.text split among parsed)]

mutual
theorem resolveAlike (registered : x.secretEnv = y.secretEnv) (limit : Nat) (path : String) (depth : Nat) :
    (v : Json) →
    (∀ e, v.Evaluates e → e.eval x.scope = e.eval y.scope) →
    resolve x limit path depth v = resolve y limit path depth v
  | .obj fields, alike => by
    simp only [resolve]
    split
    · rfl
    · split
      next reference token => simp only [secret, registered]
      next source token =>
        exact expressionAlike path fun e parsed => alike e (.token token parsed)
      next plain =>
        rw [fieldsAlike registered limit path (depth + 1) fields
          fun f among e inside => alike e (.field plain among inside)]
  | .arr items, alike => by
    simp only [resolve]
    rw [itemsAlike registered limit path (depth + 1) 0 items fun v among e inside => alike e (.item among inside)]
  | .str s, alike => by simp only [resolve, interpolateAlike path alike]
  | .null, _ => rfl
  | .bool _, _ => rfl
  | .num _, _ => rfl
theorem itemsAlike (registered : x.secretEnv = y.secretEnv) (limit : Nat) (path : String) (depth index : Nat) :
    (items : List Json) → (∀ v ∈ items, ∀ e, v.Evaluates e → e.eval x.scope = e.eval y.scope) →
    resolveItems x limit path depth index items = resolveItems y limit path depth index items
  | [], _ => rfl
  | v :: rest, alike => by
    obtain ⟨here, later⟩ := List.forall_mem_cons.mp alike
    rw [resolveItems, resolveItems, resolveAlike registered limit _ depth v here,
      itemsAlike registered limit path depth (index + 1) rest later]
theorem fieldsAlike (registered : x.secretEnv = y.secretEnv) (limit : Nat) (path : String) (depth : Nat) :
    (fields : List (String × Json)) → (∀ f ∈ fields, ∀ e, f.2.Evaluates e → e.eval x.scope = e.eval y.scope) →
    resolveFields x limit path depth fields = resolveFields y limit path depth fields
  | [], _ => rfl
  | (k, v) :: rest, alike => by
    obtain ⟨here, later⟩ := List.forall_mem_cons.mp alike
    rw [resolveFields, resolveFields, resolveAlike registered limit _ depth v here,
      fieldsAlike registered limit path depth rest later]
end

end Substitution

theorem ParamDefs.checkAlike [Regex] {x y : Substitution.Context} {name : String} (same : x.SameBut name y)
    {defs : ParamDefs} (undeclared : name ∉ Table.names defs) : defs.check x.params = defs.check y.params := by
  refine List.flatMap_congr fun d member => ?_
  have apart : d.1 ≠ name := fun here => undeclared (here ▸ List.mem_map_of_mem member)
  rw [same.field apart]

theorem Substitution.unreportedUnread [Regex] {x y : Context} {name : String} (same : x.SameBut name y) {v : Json}
    (parted : ∀ e, v.Evaluates e → ∀ p ∈ e.paths, ¬ p.bare) (unreported : name ∉ paramRefs v) (limit : Nat) :
    substitute limit x none v = substitute limit y none v
      ∧ ∀ defs : ParamDefs, name ∉ Table.names defs →
        substitute limit x (some defs) v = substitute limit y (some defs) v := by
  have tree : resolve x limit "$" 0 v = resolve y limit "$" 0 v := by
    refine resolveAlike same.secretEnv limit "$" 0 v fun e evaluates => e.evalAlike fun p path => ?_
    exact same.lookup (parted e evaluates p path) fun param => unreported (evaluates.reported path param)
  refine ⟨by rw [substitute, substitute, tree]; rfl, fun defs undeclared => ?_⟩
  rw [substitute, substitute, tree, Option.map_some, Option.map_some, ParamDefs.checkAlike same undeclared]

/-! A tree that reads one parameter of two. -/

instance : DecidablePred Path.bare := fun p => inferInstanceAs (Decidable (p.root = .params ∧ p.segments = []))

def oneParameter : Json :=
  .arr [(Token.expr "params['a']||stage.id").toJson, .str "\x7b\x7bparams.a\x7d\x7d of \x7b\x7benv.b\x7d\x7d"]

def twoParameters (other : Nat) : Substitution.Context where
  params := .obj [("a", .nat 0), ("b", .nat other)]
  env := .obj [("b", .str "all")]

theorem Expression.parted {source : List Char} {e : Expr} (parsed : parseChars source = .ok e)
    (reads : (parseChars source).toOption.all fun e => e.paths.all fun p => !decide p.bare) :
    ∀ p ∈ e.paths, ¬ p.bare := by
  rw [parsed, Except.toOption, Option.all_some, List.all_eq_true] at reads
  exact fun p path => by simpa using reads p path

theorem oneParameterParted (e : Expr) (evaluates : oneParameter.Evaluates e) : ∀ p ∈ e.paths, ¬ p.bare := by
  cases evaluates with | item among inside =>
  rcases List.mem_pair.mp among with rfl | rfl
  · cases inside with
    | token token parsed =>
      have source : Token.ofFields? [("$expr", .str "params['a']||stage.id")]
          = some (.expr "params['a']||stage.id") := by decide +kernel
      cases source.symm.trans token
      exact Expression.parted parsed (by decide +kernel)
    | field plain => exact absurd plain (by decide +kernel)
  · cases inside with | text split among parsed =>
    have parts : Expression.pieces "\x7b\x7bparams.a\x7d\x7d of \x7b\x7benv.b\x7d\x7d".toList
        = .ok [.expr "params.a".toList, .text " of ".toList, .expr "env.b".toList] := by decide +kernel
    cases parts.symm.trans split
    simp only [List.mem_cons, Expression.Piece.expr.injEq, List.not_mem_nil, or_false, reduceCtorEq, false_or] at among
    rcases among with rfl | rfl
    · exact Expression.parted parsed (by decide +kernel)
    · exact Expression.parted parsed (by decide +kernel)

attribute [local instance] Pattern.engine in
theorem Substitution.otherParameterUnread : "b" ∉ paramRefs oneParameter
    ∧ substitute defaultDepth (twoParameters 1) none oneParameter
        = substitute defaultDepth (twoParameters 2) none oneParameter := by
  have same : (twoParameters 1).SameBut "b" (twoParameters 2) := by
    refine ⟨⟨_, _, rfl, rfl, fun other apart => ?_⟩, rfl, rfl, rfl, rfl, rfl⟩
    simp [Table.getCons, apart]
  have unreported : "b" ∉ paramRefs oneParameter := by decide +kernel
  exact ⟨unreported, (unreportedUnread same oneParameterParted unreported defaultDepth).1⟩

end Conduit
