import Conduit.Pattern
import Conduit.Proofs.OrderedNexons
import Conduit.Proofs.DoubleRounding
import Conduit.Proofs.RenderedNodes

/-! The gate before the nodes of a stage. They see the resolved parameters with the defaults filled in, and no
parameters that fail one of their definitions. -/
namespace Conduit

/-! What a definition asks of a value, `null` counting as none. -/

def Json.Given (value : Option Json) : Prop := ∃ v ∈ value, v ≠ .null

def Number.Integral : Number → Prop
  | .real d => d.isWhole
  | _ => True

def Secret.Deferred (s : String) : Prop :=
  ∃ name : List Char, name ≠ [] ∧ (∀ c ∈ name, c.isUpper ∨ c.isDigit ∨ c = '_')
    ∧ s = placeholder (envPrefix ++ String.ofList name)

inductive ParamType.Admits : ParamType → Json → Prop
  | any (v : Json) : Admits .any v
  | string (s : String) : Admits .string (.str s)
  | number (n : Number) : Admits .number (.num n)
  | integer {n : Number} (integral : n.Integral) : Admits .integer (.num n)
  | boolean (b : Bool) : Admits .boolean (.bool b)
  | object (fields : Fields) : Admits .object (.obj fields)
  | array (items : List Json) : Admits .array (.arr items)
  | secret {s : String} (deferred : Secret.Deferred s) : Admits .secret (.str s)

inductive Json.HasLength : Json → Nat → Prop
  | text (s : String) : HasLength (.str s) s.length
  | list (items : List Json) : HasLength (.arr items) items.length

structure Constraints.Met [Regex] (c : Constraints) (v : Json) : Prop where
  min : ∀ bound ∈ c.min, ∀ n, v = .num n → bound.le n.toDouble
  max : ∀ bound ∈ c.max, ∀ n, v = .num n → n.toDouble.le bound
  minLength : ∀ bound ∈ c.minLength, ∀ length, v.HasLength length → bound ≤ length
  maxLength : ∀ bound ∈ c.maxLength, ∀ length, v.HasLength length → length ≤ bound
  pattern : ∀ source ∈ c.pattern, ∀ s, v = .str s → ∃ found, Regex.compile source = .ok found ∧ found s
  allowed : ∀ values ∈ c.allowed, ∃ w ∈ values, w.same v

structure ParamDef.Satisfied [Regex] (d : ParamDef) (value : Option Json) : Prop where
  required : d.required → Json.Given value
  type : ∀ v ∈ value, v ≠ .null → d.type.Admits v
  constraints : ∀ v ∈ value, v ≠ .null → ∀ c ∈ d.validation, c.Met v

def ParamDefs.Satisfied [Regex] (defs : ParamDefs) (params : Json) : Prop :=
  ∀ p ∈ defs, p.2.Satisfied (params.field? p.1)

structure ParamDefs.Filled (defs : ParamDefs) (given params : Json) : Prop where
  defaults : ∀ p ∈ defs, ∀ v ∈ p.2.default, ¬ Json.Given (given.field? p.1) → params.field? p.1 = some v
  others : ∀ name, Json.Given (given.field? name) ∨ (∀ p ∈ defs, p.1 = name → p.2.default = none) →
    params.field? name = given.field? name

/-! The checks find just what fails. -/

theorem Number.integralIff (n : Number) : n.toDouble.isWhole ↔ n.Integral := by
  have natural {negative : Bool} {k : Nat} : ((Double.ofRatio negative k 1).getD .zero).isWhole := by
    cases rounded : Double.ofRatio negative k 1 with
    | none => exact Double.zeroWhole
    | some d => exact Double.ofNaturalWhole rounded
  cases n with
  | whole n => exact iff_of_true natural trivial
  | below n => exact iff_of_true natural trivial
  | real d => rfl

theorem Secret.bodyIff {cs name : List Char} :
    placeholderBody? cs = some name ↔ cs = '$' :: '\x7b' :: (name ++ ['\x7d']) := by
  constructor
  · intro body
    unfold placeholderBody? at body
    split at body
    next rest =>
      split at body
      next closed =>
        obtain ⟨front, rfl⟩ := List.getLast?_eq_some_iff.mp closed
        simpa using body
      next => cases body
    next => cases body
  · rintro rfl
    simp [placeholderBody?]

theorem Secret.isPlaceholderIff (s : String) : isPlaceholder s ↔ Deferred s := by
  have drawn (name : List Char) : (placeholder (envPrefix ++ String.ofList name)).toList
      = '$' :: '\x7b' :: ((envPrefix.toList ++ name) ++ ['\x7d']) := by
    simp [placeholder, String.toList_append]
  constructor
  · intro held
    unfold isPlaceholder at held
    split at held
    · cases held
    next body found =>
      simp only [Bool.and_eq_true, decide_eq_true_eq, List.isPrefixOf_iff_prefix, List.all_eq_true] at held
      obtain ⟨⟨⟨name, rfl⟩, longer⟩, chars⟩ := held
      refine ⟨name, ?_, fun c among => ?_, ?_⟩
      · rintro rfl
        simp at longer
      · simpa [isEnvChar, or_assoc] using chars c (List.mem_append_right _ among)
      · rw [← String.toList_inj, drawn]
        exact bodyIff.mp found
  · rintro ⟨name, some, chars, rfl⟩
    have body : placeholderBody? (placeholder (envPrefix ++ String.ofList name)).toList
        = .some (envPrefix.toList ++ name) := bodyIff.mpr (drawn name)
    have fixed : envPrefix.toList.all isEnvChar := by decide
    simp only [isPlaceholder, body, Bool.and_eq_true, decide_eq_true_eq, List.isPrefixOf_iff_prefix, List.all_append]
    refine ⟨⟨List.prefix_append _ _, ?_⟩, fixed, ?_⟩
    · simpa using List.length_pos_iff.mpr some
    · simpa [isEnvChar, or_assoc] using chars

theorem ParamDef.admitsIff (d : ParamDef) (v : Json) : d.type.holds v ∧ ¬ d.leaks v ↔ d.type.Admits v := by
  constructor
  · rintro ⟨held, kept⟩
    unfold leaks at kept
    generalize d.type = type at held kept
    cases type <;> cases v <;> try cases held
    case integer.num => exact .integer ((Number.integralIff _).mp held)
    case secret.str.refl => exact .secret ((Secret.isPlaceholderIff _).mp (by simpa using kept))
    all_goals constructor
  · intro admits
    unfold leaks
    generalize d.type = type at admits
    cases admits with
    | any v => exact ⟨rfl, by cases v <;> simp⟩
    | integer integral => exact ⟨(Number.integralIff _).mpr integral, by simp⟩
    | secret deferred => exact ⟨rfl, by simpa using (Secret.isPlaceholderIff _).mpr deferred⟩
    | _ => exact ⟨rfl, by simp⟩

namespace Constraints

variable (c : Constraints) (v : Json)

theorem numberViolationsNone : c.numberViolations v = [] ↔
    (∀ bound ∈ c.min, ∀ n, v = .num n → bound.le n.toDouble)
      ∧ (∀ bound ∈ c.max, ∀ n, v = .num n → n.toDouble.le bound) := by
  cases v with
  | num n =>
    rw [numberViolations, List.append_eq_nil_iff]
    refine and_congr ?_ ?_
    · cases c.min <;> simp [Double.le]
    · cases c.max <;> simp [Double.le]
  | _ => simp [numberViolations]

theorem lengthIff (length : Nat) : length? v = some length ↔ v.HasLength length := by
  constructor
  · intro found
    cases v <;> cases found <;> constructor
  · intro has
    cases has <;> rfl

theorem lengthViolationsNone : c.lengthViolations v = [] ↔
    (∀ bound ∈ c.minLength, ∀ length, v.HasLength length → bound ≤ length)
      ∧ (∀ bound ∈ c.maxLength, ∀ length, v.HasLength length → length ≤ bound) := by
  simp only [← lengthIff]
  cases found : length? v with
  | none => simp [lengthViolations, found]
  | some length =>
    simp only [lengthViolations, found, List.append_eq_nil_iff]
    refine and_congr ?_ ?_
    · cases c.minLength <;> simp
    · cases c.maxLength <;> simp

theorem patternViolationsNone [Regex] : c.patternViolations v = [] ↔
    ∀ source ∈ c.pattern, ∀ s, v = .str s → ∃ found, Regex.compile source = .ok found ∧ found s := by
  cases v with
  | str s =>
    cases given : c.pattern with
    | none => simp [patternViolations, given]
    | some source => cases compiled : Regex.compile source <;> simp [patternViolations, given, compiled]
  | _ => simp [patternViolations]

theorem choiceViolationsNone : c.choiceViolations v = [] ↔ ∀ values ∈ c.allowed, ∃ w ∈ values, w.same v := by
  cases given : c.allowed <;> simp [choiceViolations, given]

theorem violationsNone [Regex] : c.violations v = [] ↔ c.Met v := by
  rw [violations, List.append_eq_nil_iff, List.append_eq_nil_iff, List.append_eq_nil_iff, numberViolationsNone,
    lengthViolationsNone, patternViolationsNone, choiceViolationsNone]
  constructor
  · rintro ⟨⟨⟨⟨min, max⟩, minLength, maxLength⟩, pattern⟩, allowed⟩
    exact ⟨min, max, minLength, maxLength, pattern, allowed⟩
  · rintro ⟨min, max, minLength, maxLength, pattern, allowed⟩
    exact ⟨⟨⟨⟨min, max⟩, minLength, maxLength⟩, pattern⟩, allowed⟩

end Constraints

theorem Json.nullIff (v : Json) : v.isNull ↔ v = .null := by cases v <;> simp [isNull]

namespace ParamDef

variable (name : String) (d : ParamDef)

variable [Regex]

theorem constraintsNone (v : Json) :
    ((d.validation.map fun c => c.violations v).getD []).map (ParamError.violates name) = []
      ↔ ∀ c ∈ d.validation, c.Met v := by
  rw [List.map_eq_nil_iff]
  cases d.validation <;> simp [Constraints.violationsNone]

theorem checkAbsent {value : Option Json} (absent : ¬ Json.Given value) :
    d.check name value = [] ↔ d.Satisfied value := by
  have null : ∀ v ∈ value, v = .null := by simpa [Json.Given] using absent
  have none : value.filter (!·.isNull) = none := by simpa [Option.filter_eq_none_iff, Json.nullIff] using null
  rw [check, none]
  constructor
  · intro clean
    refine ⟨fun required => ?_, fun v given some => absurd (null v given) some,
      fun v given some => absurd (null v given) some⟩
    rw [required] at clean
    cases clean
  · intro satisfied
    exact if_neg fun required => absent (satisfied.required required)

theorem checkGiven {v : Json} (some : v ≠ .null) : d.check name (.some v) = [] ↔ d.Satisfied (.some v) := by
  have here : (Option.some v).filter (!·.isNull) = .some v := by
    simpa [Option.filter_eq_some_iff, ← Json.nullIff] using some
  rw [check, here]
  dsimp only
  constructor
  · intro clean
    split_ifs at clean with other leaked
    refine ⟨fun _ => ⟨v, rfl, some⟩, ?_, ?_⟩
    · rintro _ ⟨⟩ -
      exact (d.admitsIff v).mp ⟨by simpa using other, leaked⟩
    · rintro _ ⟨⟩ -
      exact (d.constraintsNone name v).mp clean
  · intro satisfied
    obtain ⟨held, kept⟩ := (d.admitsIff v).mpr (satisfied.type v rfl some)
    rw [if_neg (by simpa using held), if_neg kept, constraintsNone]
    exact satisfied.constraints v rfl some

theorem checkNone (value : Option Json) : d.check name value = [] ↔ d.Satisfied value := by
  by_cases given : Json.Given value
  · obtain ⟨v, rfl, some⟩ := given
    exact d.checkGiven name some
  · exact d.checkAbsent name given

end ParamDef

namespace ParamDefs

variable {defs : ParamDefs}

theorem checkNone [Regex] (params : Json) : defs.check params = [] ↔ defs.Satisfied params := by
  rw [check, List.flatMap_eq_nil_iff]
  exact forall₂_congr fun p _ => p.2.checkNone p.1 _

/-! Defaults. -/

def filledOne (fields : Fields) (p : String × ParamDef) : Fields :=
  match p.2.default with
  | some v => if (Table.get? fields p.1).all Json.isNull then Table.insert p.1 v fields else fields
  | none => fields

theorem filledHere {fields : Fields} {p : String × ParamDef} {v : Json} (default : p.2.default = some v)
    (absent : ¬ Json.Given (Table.get? fields p.1)) : Table.get? (filledOne fields p) p.1 = some v := by
  have null : (Table.get? fields p.1).all Json.isNull := by
    simpa [Json.Given, Option.all_eq_true, Json.nullIff] using absent
  simp only [filledOne, default, if_pos null, Table.getInsert, if_true]

theorem filledElsewhere {fields : Fields} {p : String × ParamDef} {name : String}
    (kept : Json.Given (Table.get? fields name) ∨ (p.1 = name → p.2.default = none)) :
    Table.get? (filledOne fields p) name = Table.get? fields name := by
  cases default : p.2.default with
  | none => rw [filledOne, default]
  | some v =>
    simp only [filledOne, default]
    split_ifs with null
    · have other : name ≠ p.1 := by
        rintro rfl
        rcases kept with ⟨w, given, some⟩ | none
        · rw [Option.mem_def.mp given] at null
          exact some ((Json.nullIff w).mp null)
        · cases default.symm.trans (none rfl)
      rw [Table.getInsert, if_neg other]
    · rfl

theorem fillFilled (ordered : Table.Ordered defs) (fields : Fields) :
    defs.Filled (.obj fields) (.obj (defs.foldl filledOne fields)) := by
  induction defs generalizing fields with
  | nil => exact ⟨List.forall_mem_nil _, fun name _ => rfl⟩
  | cons p rest ih =>
    obtain ⟨after, ordered⟩ := List.pairwise_cons.mp ordered
    obtain ⟨defaults, others⟩ := ih ordered (filledOne fields p)
    refine ⟨fun q member v default absent => ?_, fun name kept => ?_⟩
    · rcases List.mem_cons.mp member with rfl | later
      · -- no later definition has its name
        have last : ∀ r ∈ rest, r.1 = q.1 → r.2.default = none :=
          fun r member same => absurd same (String.ne_of_lt (after r member)).symm
        exact (others q.1 (.inr last)).trans (filledHere default absent)
      · have untouched : Table.get? (filledOne fields p) q.1 = Table.get? fields q.1 :=
          filledElsewhere (.inr fun same => absurd same (String.ne_of_lt (after q later)))
        exact defaults q later v default (by simpa only [Json.field?, untouched] using absent)
    · have untouched : Table.get? (filledOne fields p) name = Table.get? fields name :=
        filledElsewhere (kept.imp_right fun none => none p List.mem_cons_self)
      refine (others name ?_).trans untouched
      simp only [Json.field?, untouched]
      exact kept.imp_right fun none q member => none q (List.mem_cons_of_mem _ member)

theorem Filled.same {given params params' : Json} (filled : defs.Filled given params)
    (filled' : defs.Filled given params') (name : String) : params.field? name = params'.field? name := by
  by_cases kept : Json.Given (given.field? name) ∨ ∀ p ∈ defs, p.1 = name → p.2.default = none
  · rw [filled.others name kept, filled'.others name kept]
  · push Not at kept
    obtain ⟨absent, p, member, rfl, default⟩ := kept
    obtain ⟨v, default⟩ := Option.ne_none_iff_exists'.mp default
    rw [filled.defaults p member v default absent, filled'.defaults p member v default absent]

theorem Satisfied.among [Regex] {params params' : Json} (satisfied : defs.Satisfied params)
    (same : ∀ name, params.field? name = params'.field? name) : defs.Satisfied params' :=
  fun p member => same p.1 ▸ satisfied p member

end ParamDefs

theorem Substitution.resolvedObject {limit : Nat} {c : Context} {params : List (String × Param)} {given : Json}
    (resolved : (resolveParams limit c params).value = some given) : ∃ fields, given = .obj fields := by
  simp only [resolveParams, Traced.outcome] at resolved
  split at resolved
  · exact ⟨_, (Option.some.inj resolved).symm⟩
  · cases resolved

/-! The gate. -/

structure Stage.Passes [Regex] (s : Stage) (context : RenderContext) (defs : ParamDefs) (params : Json) : Prop where
  filled : ∃ given, (Substitution.resolveParams Substitution.defaultDepth (s.scope context) s.params).value = some given
    ∧ defs.Filled given params
  satisfied : defs.Satisfied params

section

variable {s : Stage} {context : RenderContext} {defs : ParamDefs} (ordered : Table.Ordered defs)
include ordered

theorem Stage.parametersPass [Regex] {params : Json} {notes : List String}
    (passed : s.parameters defs (s.scope context) = .ok (params, notes)) : s.Passes context defs params := by
  unfold parameters at passed
  dsimp only at passed
  split at passed
  · cases passed
  next given resolved =>
    split at passed
    next clean =>
      cases passed
      obtain ⟨fields, rfl⟩ := Substitution.resolvedObject resolved
      refine ⟨⟨_, resolved, ParamDefs.fillFilled ordered fields⟩, ?_⟩
      exact (ParamDefs.checkNone _).mp (List.isEmpty_iff.mp clean)
    next => cases passed

theorem Stage.parametersRefused [Regex] {e : StageError} (refused : s.parameters defs (s.scope context) = .error e) :
    (∃ errors, e = .parameters errors) ∧ ¬ ∃ params, s.Passes context defs params := by
  unfold parameters at refused
  dsimp only at refused
  split at refused
  next unresolved =>
    cases refused
    refine ⟨⟨_, rfl⟩, ?_⟩
    rintro ⟨params, ⟨given, resolved, -⟩, -⟩
    cases unresolved.symm.trans resolved
  next given resolved =>
    split at refused
    next => cases refused
    next faulty =>
      cases refused
      refine ⟨⟨_, rfl⟩, ?_⟩
      rintro ⟨params, ⟨given', resolved', filled⟩, satisfied⟩
      cases resolved.symm.trans resolved'
      obtain ⟨fields, rfl⟩ := Substitution.resolvedObject resolved
      have same := filled.same (ParamDefs.fillFilled ordered fields)
      exact faulty (List.isEmpty_iff.mpr ((ParamDefs.checkNone _).mpr (satisfied.among same)))

end

theorem Stage.parametersGated [Regex] {n : Nexon} (admitted : n.content.Admitted) (s : Stage) (context : RenderContext)
    (origin : Position) :
    let defs := n.manifest.parameters.getD []
    (∀ r, s.render context origin n = .ok r →
        ∃ params nodes, s.Passes context defs params ∧ s.RenderSource context origin n r params nodes)
      ∧ ((∃ errors, s.render context origin n = .error (.parameters errors)) ↔
        n.compatible context.target = .ok () ∧ ¬ ∃ params, s.Passes context defs params) := by
  intro defs
  have ordered : Table.Ordered defs := admitted.parameters
  constructor
  · intro r rendered
    obtain ⟨params, nodes, source⟩ := renderSource rendered
    obtain ⟨notes, passed⟩ := source.parameters
    exact ⟨params, nodes, parametersPass ordered passed, source⟩
  · constructor
    · rintro ⟨errors, refused⟩
      obtain ⟨compatible, refused⟩ := renderRefused.mp refused
      exact ⟨compatible, (parametersRefused ordered refused).2⟩
    · rintro ⟨compatible, none⟩
      cases checked : s.parameters defs (s.scope context) with
      | ok passed => exact absurd ⟨_, parametersPass ordered checked⟩ none
      | error e =>
        obtain ⟨⟨errors, rfl⟩, -⟩ := parametersRefused ordered checked
        exact ⟨errors, renderRefused.mpr ⟨compatible, checked⟩⟩

/-! A nexon with a secret that has to be given, a limit with a default and bounds, and a unit that has to fit a
pattern. -/

attribute [local instance] Pattern.engine

def valveDocument : Json :=
  .ofPairs
    [("manifest", .ofPairs
      [("id", .str "valve"), ("version", .str "1.0.0"), ("title", .str "Valve"), ("capabilities", .ofPairs []),
       ("parameters", .ofPairs
        [("key", .ofPairs [("type", .str "secret"), ("required", .bool true)]),
         ("limit", .ofPairs [("type", .str "integer"), ("default", .nat 3),
            ("validation", .ofPairs [("min", .nat 1), ("max", .nat 9)])]),
         ("unit", .ofPairs [("type", .str "string"), ("validation", .ofPairs [("pattern", .str "^[a-z]+$")])])])]),
     ("template", .arr [.ofPairs
        [("id", .str "x"), ("type", .str "debug"), ("limit", (Token.expr "params.limit").toJson)]])]

def valve : Nexon := .ofDocument (.ofJson valveDocument)

theorem valveAdmitted : valve.content.Admitted :=
  Nexon.documentAdmitted (by decide +kernel) (List.isEmpty_iff.mp (by decide +kernel))

def valveStage (key : Json) (unit : String) : Stage where
  id := "a"
  nexonId := "valve"
  params := [("key", .ofJson key), ("limit", .ofJson .null), ("unit", .ofJson (.str unit))]

def vaultKey : Json := (Token.secret "vault://key").toJson

def fittingValve : Stage := valveStage vaultKey "bar"

def valveContext : RenderContext where
  flow := "flow"
  target := .onprem
  values := { secretEnv := [("vault://key", "GJ_SECRET_A_KEY")] }

theorem Stage.valveRefused {s : Stage} (refused : (match s.render valveContext (gridPosition 0) valve with
      | .error (.parameters _) => true
      | _ => false) = true) : ∃ errors, s.render valveContext (gridPosition 0) valve = .error (.parameters errors) := by
  split at refused
  next errors same => exact ⟨errors, same⟩
  next => cases refused

/-- With a secret for its key and a unit that fits the stage shows its nodes the limit by default; with a plain text for
its key it shows nothing, nor does it with a unit that does not fit. -/
theorem Stage.valveGated :
    (∃ params, fittingValve.Passes valveContext (valve.manifest.parameters.getD []) params
        ∧ (params.field? "limit").any (·.same (.nat 3)))
      ∧ (¬ ∃ params, (valveStage (.str "plain") "bar").Passes valveContext (valve.manifest.parameters.getD []) params)
      ∧ ¬ ∃ params, (valveStage vaultKey "bar 2").Passes valveContext (valve.manifest.parameters.getD []) params := by
  have gate (s : Stage) := parametersGated valveAdmitted s valveContext (gridPosition 0)
  refine ⟨?_, ((gate _).2.mp (valveRefused (by decide +kernel))).2, ((gate _).2.mp (valveRefused (by decide +kernel))).2⟩
  have limit : (fittingValve.parameters (valve.manifest.parameters.getD [])
      (fittingValve.scope valveContext)).toOption.any
        fun p => (p.1.field? "limit").any (·.same (.nat 3)) := by
    decide +kernel
  have passed : (fittingValve.render valveContext (gridPosition 0) valve).toOption.any fun _ => true := by
    decide +kernel
  obtain ⟨r, rendered, -⟩ := Outcome.okOfAny passed
  obtain ⟨params, nodes, passes, source⟩ := (gate _).1 r rendered
  obtain ⟨notes, given⟩ := source.parameters
  rw [given] at limit
  exact ⟨params, passes, limit⟩

end Conduit
