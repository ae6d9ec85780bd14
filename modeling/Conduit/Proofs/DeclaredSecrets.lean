import Conduit.Pattern
import Conduit.Proofs.CheckedParameters
import Conduit.Proofs.JsonMembers
import Conduit.Proofs.ServedSecrets
import Conduit.Proofs.StageOutcomes
import Conduit.Proofs.ValidChannels

/-! The variables that secret parameters name, against those that a deployment declares. A variable that came from a
secret reference is declared. Any other name of one was written out, and is declared only if it happens to be the name
of a variable that some reference owns. -/
namespace Conduit

structure Artifacts.Declares (a : Artifacts) (env : String) : Prop where
  listed : ∃ names, a.manifest.field? "secretEnv" = some (.strings names) ∧ env ∈ names
  credential : ∃ entries, a.credentialsMap.field? "credentials" = some (.obj entries)
    ∧ ∃ e ∈ entries, e.2.field? "env" = some (.str env)

inductive Stage.Writes (s : Stage) (context : RenderContext) (defs : ParamDefs) (name text : String) : Prop where
  | literal (given : Table.get? s.params name = some (.literal (.str text)))
  | expression {source : String} {e : Expr} (given : Table.get? s.params name = some (.token (.expr source)))
      (parsed : Expression.parse source = .ok e) (value : e.eval (s.scope context).scope = .str text)
  | default {d : ParamDef} (declared : (name, d) ∈ defs) (value : d.default = some (.str text))
      (absent : ∀ p, Table.get? s.params name = some p →
        (Substitution.resolveParam (s.scope context) Substitution.defaultDepth name 0 p).value = .null)

theorem Secret.placeholderInj {a b : String} (same : placeholder a = placeholder b) : a = b := by
  have texts := congrArg String.toList same
  rw [← String.toList_inj]
  simpa [placeholder, String.toList_append] using texts

/-! Where a resolved text is from. -/

namespace Substitution

variable {c : Context} {limit : Nat} {params : List (String × Param)}

theorem resolvedGet (params : List (String × Param)) (name : String) :
    Table.get? (params.map fun p => (p.1, (resolveParam c limit p.1 0 p.2).value)) name
      = (Table.get? params name).map fun p => (resolveParam c limit name 0 p).value := by
  induction params with
  | nil => rfl
  | cons p rest ih =>
    obtain ⟨k, p⟩ := p
    rw [List.map_cons, Table.getCons, Table.getCons, ih]
    by_cases same : name = k
    · rw [if_pos same, if_pos same, same, Option.map_some]
    · rw [if_neg same, if_neg same]

theorem resolvedField {given : Json} (resolved : (resolveParams limit c params).value = some given) (name : String) :
    given.field? name = (Table.get? params name).map fun p => (resolveParam c limit name 0 p).value := by
  simp only [resolveParams, Traced.outcome] at resolved
  split at resolved
  next =>
    cases resolved
    rw [List.map_map]
    exact resolvedGet params name
  next => cases resolved

theorem textFrom {name text : String} {p : Param} (value : (resolveParam c limit name 0 p).value = .str text) :
    p = .literal (.str text)
      ∨ (∃ reference env, p = .token (.secret reference) ∧ c.secretEnv.get? reference = some env
          ∧ text = Secret.placeholder env)
      ∨ ∃ source e, p = .token (.expr source) ∧ Expression.parse source = .ok e ∧ e.eval c.scope = .str text := by
  have shallow : ¬ limit < 0 := Nat.not_lt_zero limit
  cases p with
  | literal v =>
    rw [resolveParam, if_neg shallow] at value
    exact .inl (congrArg Param.literal value)
  | token t =>
    cases t with
    | secret reference =>
      rw [resolveParam, if_neg shallow] at value
      split at value
      next env registered => exact .inr (.inl ⟨reference, env, rfl, registered, (Json.str.inj value).symm⟩)
      next => cases value
    | expr source =>
      rw [resolveParam, if_neg shallow, expression] at value
      split at value
      next e parsed => exact .inr (.inr ⟨source, e, rfl, parsed, value⟩)
      next => cases value
  | list items =>
    rw [resolveParam, if_neg shallow] at value
    cases value
  | map entries =>
    rw [resolveParam, if_neg shallow] at value
    cases value

end Substitution

section

variable {s : Stage} {context : RenderContext} {defs : ParamDefs} {params : Json}

theorem Stage.Passes.text [Regex] (passes : s.Passes context defs params) {name text : String}
    (value : params.field? name = some (.str text)) :
    (∃ reference env, Table.get? s.params name = some (.token (.secret reference))
        ∧ context.values.secretEnv.get? reference = some env ∧ text = Secret.placeholder env)
      ∨ s.Writes context defs name text := by
  obtain ⟨given, resolved, filled⟩ := passes.filled
  have field := Substitution.resolvedField resolved name
  by_cases kept : Json.Given (given.field? name) ∨ ∀ p ∈ defs, p.1 = name → p.2.default = none
  · rw [filled.others name kept, field, Option.map_eq_some_iff] at value
    obtain ⟨p, param, value⟩ := value
    obtain rfl | ⟨reference, env, rfl, registered, same⟩ | ⟨source, e, rfl, parsed, value⟩ :=
      Substitution.textFrom value
    · exact .inr (.literal param)
    · exact .inl ⟨reference, env, param, registered, same⟩
    · exact .inr (.expression param parsed value)
  · push Not at kept
    obtain ⟨absent, ⟨_, d⟩, declared, rfl, default⟩ := kept
    obtain ⟨v, default⟩ := Option.ne_none_iff_exists'.mp default
    rw [filled.defaults _ declared v default absent] at value
    cases value
    refine .inr (.default declared default fun p param => ?_)
    rw [field, param] at absent
    exact not_not.mp fun some => absent ⟨_, rfl, some⟩

theorem Stage.referenceUnwritten {name reference text : String}
    (given : Table.get? s.params name = some (.token (.secret reference)))
    (none : ∀ p ∈ defs, p.2.default = none) : ¬ s.Writes context defs name text := by
  rintro (literal | ⟨expression, -, -⟩ | ⟨declared, value, -⟩)
  · cases given.symm.trans literal
  · cases given.symm.trans expression
  · cases (none _ declared).symm.trans value

theorem Stage.Passes.placeholder [Regex] (passes : s.Passes context defs params) {p : String × ParamDef}
    (declared : p ∈ defs) (type : p.2.type = .secret) {v : Json} (value : params.field? p.1 = some v) (given : v ≠ .null) :
    ∃ env, v = .str (Secret.placeholder env) := by
  have admits := (passes.satisfied p declared).type v value given
  rw [type] at admits
  cases admits with
  | secret deferred =>
    obtain ⟨name, -, -, rfl⟩ := deferred
    exact ⟨_, rfl⟩

end

namespace Channel

/-! What is declared. -/

variable {c : Channel} (o : GenerationOptions) (found : List (Except TemplateError Nexon))

theorem declaresIff [Regex] (env : String) :
    (c.generateFrom o found).artifacts.Declares env
      ↔ ∃ p ∈ (CredentialsMap.ofChannel c).credentials, p.2.env = env := by
  have manifest : (c.generateFrom o found).artifacts.manifest.field? "secretEnv"
      = some (.strings (CredentialsMap.ofChannel c).envVars) := by
    simp [generateFrom, Channel.manifest, Json.ofPairs, Json.field?, Table.getOfList]
  have map : (c.generateFrom o found).artifacts.credentialsMap.field? "credentials"
      = some (.obj ((CredentialsMap.ofChannel c).credentials.map fun p =>
        (p.1, .ofPairs [("ref", .str p.2.reference), ("env", .str p.2.env)]))) := by
    simp [generateFrom, CredentialsMap.toJson, Json.ofPairs, Json.field?, Table.getOfList]
  have entry (credential : Credential) :
      (Json.ofPairs [("ref", .str credential.reference), ("env", .str credential.env)]).field? "env"
        = some (.str credential.env) := by
    simp [Json.ofPairs, Json.field?, Table.getOfList]
  constructor
  · rintro ⟨-, entries, same, e, member, value⟩
    cases map.symm.trans same
    obtain ⟨p, among, rfl⟩ := List.mem_map.mp member
    rw [entry p.2] at value
    exact ⟨p, among, Json.str.inj (Option.some.inj value)⟩
  · rintro ⟨p, member, rfl⟩
    refine ⟨⟨_, manifest, ?_⟩, _, map, _, List.mem_map_of_mem member, entry p.2⟩
    exact List.mem_map.mpr ⟨p.2, List.mem_map_of_mem member, rfl⟩

theorem declaresRegistered [Regex] (env : String) : (c.generateFrom o found).artifacts.Declares env ↔
    ∃ reference, (CredentialsMap.ofChannel c).envByRef.get? reference = some env := by
  rw [declaresIff]
  constructor
  · rintro ⟨p, member, rfl⟩
    have listed := member
    rw [credentialsListed] at listed
    obtain ⟨⟨home, reference⟩, own, rfl⟩ := List.mem_map.mp (Table.memOfList listed)
    have stays := Table.getOfMem c.credentialsOrdered member
    rw [credentialAt] at stays
    obtain ⟨last, stays, same⟩ := Option.map_eq_some_iff.mp stays
    cases (Credential.mk.inj same).1
    exact ⟨_, registeredOnce (ownedOnce own stays)⟩
  · rintro ⟨reference, registered⟩
    obtain ⟨credential, value, same⟩ := List.mem_map.mp (Table.memOfList (Table.memOfGet registered))
    obtain ⟨p, member, rfl⟩ := List.mem_map.mp value
    exact ⟨p, member, (Prod.mk.inj same).2⟩

/-! What is rendered. -/

structure Renders [Regex] (c : Channel) (o : GenerationOptions) (found : List (Except TemplateError Nexon)) (s : Stage)
    (n : Nexon) (params : Json) : Prop where
  answered : (s, .ok n) ∈ c.stages.zip found
  rendered : ∃ r ∈ c.stageOutcomes o found, r.stage = s ∧ r.failure = none
    ∧ ∃ origin nodes, s.RenderSource (c.renderContext o (.ofChannel c)) origin n r.rendered params nodes

theorem outcomeRenders [Regex] {r : StageOutcome} (member : r ∈ c.stageOutcomes o found) (whole : r.failure = none) :
    ∃ n params, c.Renders o found r.stage n params := by
  obtain ⟨⟨s, reply⟩, pair, place, same⟩ := Outcome.matchedMember (outcomesMatched _ 0 (c.stages.zip found)) member
  have stage : r.stage = s := same ▸ outcomeStage _ place s reply
  have made : s.renderFound (c.renderContext o (.ofChannel c)) (s.position.getD (gridPosition place)) reply
      = .ok r.rendered := by
    rw [same, outcome] at whole ⊢
    dsimp only at whole ⊢
    split at whole
    next rendered made => rw [made]
    next => cases whole
  cases reply with
  | error reason => cases made
  | ok n =>
    obtain ⟨params, nodes, source⟩ := Stage.renderSource made
    refine ⟨n, params, stage ▸ pair, r, member, rfl, whole, s.position.getD (gridPosition place), nodes, ?_⟩
    rw [stage]
    exact source

variable {o found}

theorem Renders.parameters [Regex] {s : Stage} {n : Nexon} {params : Json} (renders : c.Renders o found s n params) :
    ∃ notes, s.parameters (n.manifest.parameters.getD []) (s.scope (c.renderContext o (.ofChannel c)))
      = .ok (params, notes) := by
  obtain ⟨r, -, -, -, origin, nodes, source⟩ := renders.rendered
  exact source.parameters

theorem Renders.passes [Regex] {s : Stage} {n : Nexon} {params : Json} (renders : c.Renders o found s n params)
    (admitted : n.content.Admitted) :
    s.Passes (c.renderContext o (.ofChannel c)) (n.manifest.parameters.getD []) params := by
  obtain ⟨notes, passed⟩ := renders.parameters
  exact Stage.parametersPass admitted.parameters passed

theorem secretsDeclared [Regex] (c : Channel) (o : GenerationOptions) {sources : List NexonSource}
    (written : ∀ source ∈ sources, source.Written) (clock : Clock) {s : Resolver}
    (holding : s.Holding NexonContent.Admitted) :
    let found := (findNexons sources clock s c.stages).1
    let artifacts := (c.generate o sources clock s).1.artifacts
    let context := c.renderContext o (.ofChannel c)
    (∀ r ∈ c.stageOutcomes o found, r.failure = none → ∃ n params, c.Renders o found r.stage n params)
      ∧ (∀ stage n params, c.Renders o found stage n params →
        ∀ p ∈ n.manifest.parameters.getD [], p.2.type = .secret → ∀ v, params.field? p.1 = some v → v ≠ .null →
          ∃ env, v = .str (Secret.placeholder env)
            ∧ ((∃ reference, Table.get? stage.params p.1 = some (.token (.secret reference)))
                  ∧ artifacts.Declares env
                ∨ stage.Writes context (n.manifest.parameters.getD []) p.1 (Secret.placeholder env)))
      ∧ ∀ env, artifacts.Declares env
        ↔ ∃ reference, (CredentialsMap.ofChannel c).envByRef.get? reference = some env := by
  intro found artifacts context
  have admitted : ∀ n, .ok n ∈ found → n.content.Admitted :=
    (@Resolver.foundHolding _ _ sources (fun _ _ => Resolver.fetchedAdmitted written) c.stages s clock holding).1
  refine ⟨fun r => outcomeRenders o found, fun stage n params renders p member type v value given => ?_,
    declaresRegistered o found⟩
  have passes := renders.passes (admitted n (List.of_mem_zip renders.answered).2)
  obtain ⟨env, rfl⟩ := passes.placeholder member type value given
  refine ⟨env, rfl, (passes.text value).imp_left fun ⟨reference, owned, given, registered, same⟩ => ?_⟩
  cases Secret.placeholderInj same
  exact ⟨⟨reference, given⟩, (declaresRegistered o found env).mpr ⟨reference, registered⟩⟩

/-! Two stages of a nexon with a secret: one gives it by a reference, and one writes a placeholder. -/

attribute [local instance] Pattern.engine

def vaultDocument : Json :=
  let stage (id : String) (key : Json) : Json :=
    .ofPairs
      [("id", .str id), ("nexonId", .str "n"), ("nexonVersion", .str "1.0.0"), ("params", .ofPairs [("key", key)])]
  .ofPairs
    [("channelId", .str "c"), ("title", .str "t"),
     ("stages", .arr
        [stage "a" (Token.secret "vault://key").toJson, stage "b" (.str (Secret.placeholder "GJ_SECRET_NOPE"))])]

def vaultNexons : FileTree where
  nodes := [(["nexons", "n", "1.0.0.json"], .file (Text.utf8 (Json.compact (.ofPairs
    [("manifest", .ofPairs [("id", .str "n"), ("version", .str "1.0.0"), ("title", .str "N"),
        ("capabilities", .ofPairs []), ("parameters", .ofPairs [("key", .ofPairs [("type", .str "secret")])])]),
     ("template", .arr [.ofPairs
        [("id", .str "x"), ("type", .str "debug"), ("key", (Token.expr "params.key").toJson)]])]))))]

def vaultSources : List NexonSource := [.directory vaultNexons "nexons"]

def vaultFound (c : Channel) : List (Except TemplateError Nexon) :=
  (findNexons vaultSources (.still 0) (.ofTtl 1) c.stages).1

def vaultRun (c : Channel) : Generation := (c.generate {} vaultSources (.still 0) (.ofTtl 1)).1

def vaultVariable (stage : String) : String := if stage = "a" then "GJ_SECRET_A_KEY" else "GJ_SECRET_NOPE"

structure VaultStage (s : Stage) (defs : ParamDefs) (params : Json) : Prop where
  declared : ∃ d, ("key", d) ∈ defs
  secret : ∀ p ∈ defs, p.2.type = .secret ∧ p.2.default = none
  value : params.field? "key" = some (.str (Secret.placeholder (vaultVariable s.id)))
  reference : s.id = "a" → ∃ reference, Table.get? s.params "key" = some (.token (.secret reference))

def vaultStage (context : RenderContext) (s : Stage) : Except TemplateError Nexon → Bool
  | .ok n =>
    let defs := n.manifest.parameters.getD []
    Table.has defs "key" && (defs.all fun d => d.2.type = .secret && d.2.default.isNone)
      && ((s.parameters defs (s.scope context)).toOption.all fun passed =>
        (passed.1.field? "key").bind Json.asString? = some (Secret.placeholder (vaultVariable s.id)))
      && match Table.get? s.params "key" with
        | some (.token (.secret _)) => true
        | _ => s.id ≠ "a"
  | .error _ => false

theorem vaultSecret {context : RenderContext} {s : Stage} {n : Nexon} {params : Json} {notes : List String}
    (checked : vaultStage context s (.ok n))
    (passed : s.parameters (n.manifest.parameters.getD []) (s.scope context) = .ok (params, notes)) :
    VaultStage s (n.manifest.parameters.getD []) params := by
  simp only [vaultStage, passed, Except.toOption, Option.all_some, Bool.and_eq_true, decide_eq_true_eq,
    List.all_eq_true, Option.isNone_iff_eq_none] at checked
  obtain ⟨⟨⟨declared, secret⟩, value⟩, reference⟩ := checked
  obtain ⟨d, declared⟩ := Option.isSome_iff_exists.mp declared
  obtain ⟨v, field, text⟩ := Option.bind_eq_some_iff.mp value
  refine ⟨⟨d, Table.memOfGet declared⟩, fun p => secret p, ?_, fun first => ?_⟩
  · cases v with
    | str s => rw [field, Option.some.inj text]
    | _ => cases text
  · split at reference
    next given => exact ⟨_, given⟩
    next => exact absurd first (of_decide_eq_true reference)

theorem vaultRendered : ∃ c, (validateChannel vaultDocument).channel = some c
    ∧ (∀ p ∈ (CredentialsMap.ofChannel c).credentials, p.2.env ≠ "GJ_SECRET_NOPE")
    ∧ ∀ id ∈ ["a", "b"], ∃ stage n params, stage.id = id ∧ c.Renders {} (vaultFound c) stage n params
      ∧ VaultStage stage (n.manifest.parameters.getD []) params := by
  have checked : (validateChannel vaultDocument).channel.any fun c =>
      (["a", "b"].all fun id => (c.stageOutcomes {} (vaultFound c)).any fun r => r.stage.id = id && r.failure.isNone)
        && ((c.stages.zip (vaultFound c)).all fun p => vaultStage (c.renderContext {} (.ofChannel c)) p.1 p.2)
        && (CredentialsMap.ofChannel c).credentials.all fun p => p.2.env ≠ "GJ_SECRET_NOPE" := by decide +kernel
  obtain ⟨c, valid, checked⟩ := (Option.any_eq_true _ _).mp checked
  simp only [Bool.and_eq_true, List.all_eq_true, List.any_eq_true, decide_eq_true_eq, Option.isNone_iff_eq_none]
    at checked
  obtain ⟨⟨rendered, stages⟩, undeclared⟩ := checked
  refine ⟨c, valid, undeclared, fun id listed => ?_⟩
  obtain ⟨r, member, same, whole⟩ := rendered id listed
  obtain ⟨n, params, renders⟩ := outcomeRenders {} (vaultFound c) member whole
  obtain ⟨notes, passed⟩ := renders.parameters
  exact ⟨r.stage, n, params, same, renders, vaultSecret (stages _ renders.answered) passed⟩

theorem vaultWritten : ∀ source ∈ vaultSources, source.Written :=
  List.forall_mem_singleton.mpr (NexonSource.directoryWritten _ _)

theorem vaultDeclared : ∃ c, (validateChannel vaultDocument).channel = some c
    ∧ (∀ source ∈ vaultSources, source.Written) ∧ (Resolver.ofTtl 1).Holding NexonContent.Admitted
    ∧ (vaultRun c).artifacts.Declares "GJ_SECRET_A_KEY"
    ∧ ∃ stage n params, c.Renders {} (vaultFound c) stage n params
      ∧ stage.Writes (c.renderContext {} (.ofChannel c)) (n.manifest.parameters.getD []) "key"
        (Secret.placeholder "GJ_SECRET_NOPE") := by
  have empty := Resolver.emptyHolding NexonContent.Admitted 1
  obtain ⟨c, valid, undeclared, stages⟩ := vaultRendered
  obtain ⟨-, sources, -⟩ := secretsDeclared c {} vaultWritten (.still 0) empty
  refine ⟨c, valid, vaultWritten, empty, ?_, ?_⟩
  · obtain ⟨stage, n, params, first, renders, vault⟩ := stages "a" (by simp)
    obtain ⟨d, declared⟩ := vault.declared
    obtain ⟨reference, given⟩ := vault.reference first
    obtain ⟨env, same, ⟨-, here⟩ | there⟩ :=
      sources stage n params renders _ declared (vault.secret _ declared).1 _ vault.value Json.noConfusion
    · rw [← Secret.placeholderInj (Json.str.inj same), first] at here
      exact here
    · exact absurd there (Stage.referenceUnwritten given fun p member => (vault.secret p member).2)
  · obtain ⟨stage, n, params, second, renders, vault⟩ := stages "b" (by simp)
    obtain ⟨d, declared⟩ := vault.declared
    obtain ⟨env, same, source⟩ :=
      sources stage n params renders _ declared (vault.secret _ declared).1 _ vault.value Json.noConfusion
    have other := Secret.placeholderInj (Json.str.inj same)
    rw [second] at other
    subst other
    refine ⟨stage, n, params, renders, source.resolve_left fun ⟨_, here⟩ => ?_⟩
    obtain ⟨p, member, same⟩ := (declaresIff {} (vaultFound c) _).mp here
    exact undeclared p member same

theorem vaultUndeclared : ¬ ∀ (document : Json) (c : Channel) (o : GenerationOptions) (files : FileTree) (root : String)
    (clock : Clock) (ttl : Nat), (validateChannel document).channel = some c →
      let found := (findNexons [.directory files root] clock (.ofTtl ttl) c.stages).1
      ∀ stage n params, c.Renders o found stage n params →
        ∀ p ∈ n.manifest.parameters.getD [], p.2.type = .secret →
          ∀ env, params.field? p.1 = some (.str (Secret.placeholder env)) →
            (c.generate o [.directory files root] clock (.ofTtl ttl)).1.artifacts.Declares env := by
  intro declares
  obtain ⟨c, valid, undeclared, stages⟩ := vaultRendered
  obtain ⟨stage, n, params, second, renders, vault⟩ := stages "b" (by simp)
  obtain ⟨d, declared⟩ := vault.declared
  have value := vault.value
  rw [second] at value
  have nope := declares vaultDocument c {} vaultNexons "nexons" (.still 0) 1 valid stage n params renders _ declared
    (vault.secret _ declared).1 _ value
  obtain ⟨p, member, same⟩ := (declaresIff {} (vaultFound c) _).mp nope
  exact undeclared p member same

end Channel

end Conduit
