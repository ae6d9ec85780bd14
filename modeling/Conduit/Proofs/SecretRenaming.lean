import Conduit.Flow.Generation
import Conduit.Pattern
import Conduit.Proofs.Tables
import Mathlib.Logic.Equiv.Basic

/-! What is generated for a channel depends on its secret references only in so far as they are equal.
A renaming that keeps different references apart, and leaves alone those that nexons write themselves, is
seen in the credentials map and nowhere else. -/
namespace Conduit

/-! Renaming. -/

namespace Param

mutual
def rename (f : String → String) : Param → Param
  | .literal v => .literal v
  | .token (.secret reference) => .token (.secret (f reference))
  | .token (.expr source) => .token (.expr source)
  | .list items => .list (renameItems f items)
  | .map entries => .map (renameEntries f entries)
def renameItems (f : String → String) : List Param → List Param
  | [] => []
  | p :: rest => rename f p :: renameItems f rest
def renameEntries (f : String → String) : List (String × Param) → List (String × Param)
  | [] => []
  | (k, p) :: rest => (k, rename f p) :: renameEntries f rest
end

end Param

def Stage.rename (f : String → String) (s : Stage) : Stage :=
  { s with params := s.params.map fun p => (p.1, p.2.rename f) }

def Channel.rename (f : String → String) (c : Channel) : Channel :=
  { c with stages := c.stages.map (·.rename f) }

def Credential.rename (f : String → String) (c : Credential) : Credential :=
  { c with reference := f c.reference }

namespace CredentialsMap

def rename (f : String → String) (m : CredentialsMap) : CredentialsMap :=
  { m with credentials := m.credentials.map fun p => (p.1, p.2.rename f) }

def Draft.rename (f : String → String) (d : Draft) : Draft :=
  { map := d.map.rename f, owners := d.owners.map fun p => (f p.1, p.2) }

end CredentialsMap

namespace Json

mutual
def secretTokens : Json → List String
  | .obj fields =>
    match Token.ofFields? fields with
    | some (.secret reference) => [reference]
    | some (.expr _) => []
    | none => secretTokensOfFields fields
  | .arr items => secretTokensOfItems items
  | _ => []
def secretTokensOfItems : List Json → List String
  | [] => []
  | v :: rest => secretTokens v ++ secretTokensOfItems rest
def secretTokensOfFields : List (String × Json) → List String
  | [] => []
  | (_, v) :: rest => secretTokens v ++ secretTokensOfFields rest
end

end Json

def Nexon.secretTokens (n : Nexon) : List String := n.nodes.flatMap fun node => (Json.obj node.content).secretTokens

/-! The credentials. -/

namespace Param

variable {f : String → String}

mutual
theorem secretsRenamed (path : String) : (p : Param) →
    (p.rename f).secrets path = (p.secrets path).map fun use => (use.1, f use.2)
  | .literal _ => rfl
  | .token (.secret _) => rfl
  | .token (.expr _) => rfl
  | .list items => itemSecretsRenamed path 0 items
  | .map entries => entrySecretsRenamed path entries
theorem itemSecretsRenamed (path : String) (index : Nat) : (items : List Param) →
    secretsOfItems path index (renameItems f items) =
      (secretsOfItems path index items).map fun use => (use.1, f use.2)
  | [] => rfl
  | p :: rest => by
    simp only [renameItems, secretsOfItems, List.map_append, secretsRenamed, itemSecretsRenamed]
theorem entrySecretsRenamed (path : String) : (entries : List (String × Param)) →
    secretsOfEntries path (renameEntries f entries) =
      (secretsOfEntries path entries).map fun use => (use.1, f use.2)
  | [] => rfl
  | (k, p) :: rest => by
    simp only [renameEntries, secretsOfEntries, List.map_append, secretsRenamed, entrySecretsRenamed]
end

end Param

theorem Stage.secretsRenamed (f : String → String) (s : Stage) :
    (s.rename f).secrets = s.secrets.map fun use => (use.1, f use.2) := by
  simp only [secrets, rename, List.flatMap_map, List.map_flatMap, Param.secretsRenamed]

namespace CredentialsMap

variable {f : String → String}

theorem lookupRenamed (injective : Function.Injective f) (owners : List (String × String))
    (reference : String) :
    (owners.map fun p => (f p.1, p.2)).lookup (f reference) = owners.lookup reference := by
  induction owners with
  | nil => rfl
  | cons head rest ih =>
    obtain ⟨owner, env⟩ := head
    have same : (f reference == f owner) = (reference == owner) := by
      rw [Bool.eq_iff_iff, beq_iff_eq, beq_iff_eq]
      exact injective.eq_iff
    simp only [List.map_cons, List.lookup_cons, same, ih]

theorem insertRenamed (path : String) (c : Credential) (table : Table Credential) :
    Table.insert path (c.rename f) (table.map fun p => (p.1, p.2.rename f)) =
      (Table.insert path c table).map fun p => (p.1, p.2.rename f) :=
  Table.insertOfMap (·.rename f) path c table

theorem Draft.addRenamed (injective : Function.Injective f) (d : Draft) (path reference : String) :
    (d.rename f).add path (f reference) = (d.add path reference).rename f := by
  have used : (d.rename f).used = d.used := by simp [Draft.used, Draft.rename, Function.comp_def]
  have owner : (d.rename f).owners.lookup (f reference) = d.owners.lookup reference :=
    lookupRenamed injective d.owners reference
  simp only [Draft.add, owner, used]
  split
  · rfl
  · simp only [Draft.rename, CredentialsMap.rename, List.map_cons, ← insertRenamed]
    rfl

theorem ofChannelRenamed (injective : Function.Injective f) (c : Channel) :
    ofChannel (c.rename f) = (ofChannel c).rename f := by
  have uses : (c.rename f).stages.flatMap Stage.secrets =
      (c.stages.flatMap Stage.secrets).map fun use => (use.1, f use.2) := by
    simp only [Channel.rename, List.flatMap_map, List.map_flatMap, Stage.secretsRenamed]
  have run : ∀ (uses : List (String × String)) (d : Draft),
      (uses.map fun use => (use.1, f use.2)).foldl (fun d use => d.add use.1 use.2) (d.rename f) =
        (uses.foldl (fun d use => d.add use.1 use.2) d).rename f := by
    intro uses
    induction uses with
    | nil => exact fun _ => rfl
    | cons use rest ih =>
      intro d
      rw [List.map_cons, List.foldl_cons, Draft.addRenamed injective, ih, List.foldl_cons]
  rw [ofChannel, uses]
  exact congrArg Draft.map (run (c.stages.flatMap Stage.secrets) {})

theorem envVarsRenamed (m : CredentialsMap) : (m.rename f).envVars = m.envVars := by
  simp [envVars, rename, Table.values, Credential.rename, Function.comp_def]

theorem envByRefRenamed (injective : Function.Injective f) (m : CredentialsMap) (reference : String) :
    (m.rename f).envByRef.get? (f reference) = m.envByRef.get? reference := by
  have renamed : ((m.rename f).credentials.values.map fun c => (c.reference, c.env)) =
      (m.credentials.values.map fun c => (c.reference, c.env)).map fun p => (f p.1, p.2) := by
    simp [rename, Table.values, Credential.rename, Function.comp_def]
  rw [envByRef, envByRef, renamed, Table.getOfList, Table.getOfList, ← List.map_reverse, List.find?_map,
    Option.map_map]
  simp only [Function.comp_def, injective.eq_iff]

end CredentialsMap

/-! Filling in. -/

namespace Substitution

def Context.withSecrets (x : Context) (table : Table String) : Context := { x with secretEnv := table }

def Context.Renames (x : Context) (f : String → String) (table : Table String) : Prop :=
  ∀ reference, table.get? (f reference) = x.secretEnv.get? reference

variable {f : String → String} {x : Context} {table : Table String}

theorem expressionRenamed (source : List Char) (path : String) :
    expression (x.withSecrets table) source path = expression x source path := by
  have scope : (x.withSecrets table).scope = x.scope := by
    funext root
    cases root <;> rfl
  simp only [expression, scope]

theorem piecesRenamed (path : String) (pieces : List Expression.Piece) :
    renderPieces (x.withSecrets table) path pieces = renderPieces x path pieces := by
  induction pieces with
  | nil => rfl
  | cons p rest ih =>
    have piece : renderPiece (x.withSecrets table) path p = renderPiece x path p := by
      cases p with
      | text cs => rfl
      | expr source => simp only [renderPiece, expressionRenamed]
    simp only [renderPieces, piece, ih]

theorem interpolateRenamed (s path : String) :
    interpolate (x.withSecrets table) s path = interpolate x s path := by
  simp only [interpolate, piecesRenamed]

mutual
theorem paramRenamed (renames : x.Renames f table) (limit : Nat) (path : String) (depth : Nat) :
    (p : Param) →
    resolveParam (x.withSecrets table) limit path depth (p.rename f) = resolveParam x limit path depth p
  | .literal v => rfl
  | .token (.secret reference) => by
    have known : (x.withSecrets table).secretEnv.get? (f reference) = x.secretEnv.get? reference :=
      renames reference
    simp only [Param.rename, resolveParam, known]
  | .token (.expr source) => by simp only [Param.rename, resolveParam, expressionRenamed]
  | .list items => by simp only [Param.rename, resolveParam, paramItemsRenamed renames]
  | .map entries => by simp only [Param.rename, resolveParam, paramEntriesRenamed renames]
theorem paramItemsRenamed (renames : x.Renames f table) (limit : Nat) (path : String) (depth index : Nat) :
    (items : List Param) →
    resolveParamItems (x.withSecrets table) limit path depth index (Param.renameItems f items) =
      resolveParamItems x limit path depth index items
  | [] => rfl
  | p :: rest => by
    simp only [Param.renameItems, resolveParamItems, paramRenamed renames, paramItemsRenamed renames]
theorem paramEntriesRenamed (renames : x.Renames f table) (limit : Nat) (path : String) (depth : Nat) :
    (entries : List (String × Param)) →
    resolveParamEntries (x.withSecrets table) limit path depth (Param.renameEntries f entries) =
      resolveParamEntries x limit path depth entries
  | [] => rfl
  | (k, p) :: rest => by
    simp only [Param.renameEntries, resolveParamEntries, paramRenamed renames, paramEntriesRenamed renames]
end

theorem paramsRenamed (renames : x.Renames f table) (limit : Nat) (params : List (String × Param)) :
    resolveParams limit (x.withSecrets table) (params.map fun p => (p.1, p.2.rename f)) =
      resolveParams limit x params := by
  simp only [resolveParams, List.map_map, Function.comp_def, paramRenamed renames]

mutual
theorem resolveRenamed (renames : x.Renames f table) (limit : Nat) (path : String) (depth : Nat) :
    (v : Json) → (∀ reference ∈ v.secretTokens, f reference = reference) →
    resolve (x.withSecrets table) limit path depth v = resolve x limit path depth v
  | .obj fields, fixes => by
    simp only [Json.secretTokens] at fixes
    simp only [resolve]
    split
    · rfl
    · cases token : Token.ofFields? fields with
      | none =>
        simp only [token] at fixes
        simp only [fieldsRenamed renames limit path (depth + 1) fields fixes]
      | some t =>
        cases t with
        | expr source => simp only [expressionRenamed]
        | secret reference =>
          simp only [token, List.mem_singleton, forall_eq] at fixes
          have known : (x.withSecrets table).secretEnv.get? reference = x.secretEnv.get? reference := by
            have moved := renames reference
            rwa [fixes] at moved
          simp only [secret, known]
  | .arr items, fixes => by
    simp only [Json.secretTokens] at fixes
    simp only [resolve, itemsRenamed renames limit path (depth + 1) 0 items fixes]
  | .str s, _ => by simp only [resolve, interpolateRenamed]
  | .null, _ => rfl
  | .bool _, _ => rfl
  | .num _, _ => rfl
theorem itemsRenamed (renames : x.Renames f table) (limit : Nat) (path : String) (depth index : Nat) :
    (items : List Json) → (∀ reference ∈ Json.secretTokensOfItems items, f reference = reference) →
    resolveItems (x.withSecrets table) limit path depth index items =
      resolveItems x limit path depth index items
  | [], _ => rfl
  | v :: rest, fixes => by
    simp only [Json.secretTokensOfItems, List.mem_append] at fixes
    have head := resolveRenamed renames limit (itemPath path index) depth v fun r mem => fixes r (.inl mem)
    have tail := itemsRenamed renames limit path depth (index + 1) rest fun r mem => fixes r (.inr mem)
    simp only [resolveItems, head, tail]
theorem fieldsRenamed (renames : x.Renames f table) (limit : Nat) (path : String) (depth : Nat) :
    (fields : List (String × Json)) →
    (∀ reference ∈ Json.secretTokensOfFields fields, f reference = reference) →
    resolveFields (x.withSecrets table) limit path depth fields = resolveFields x limit path depth fields
  | [], _ => rfl
  | (k, v) :: rest, fixes => by
    simp only [Json.secretTokensOfFields, List.mem_append] at fixes
    have head := resolveRenamed renames limit (keyPath path k) depth v fun r mem => fixes r (.inl mem)
    have tail := fieldsRenamed renames limit path depth rest fun r mem => fixes r (.inr mem)
    simp only [resolveFields, head, tail]
end

end Substitution

/-! Rendering. -/

def RenderContext.withSecrets (c : RenderContext) (table : Table String) : RenderContext :=
  { c with values := c.values.withSecrets table }

variable {f : String → String} {c : RenderContext} {table : Table String}

theorem NodeTemplate.renderRenamed [Regex] (renames : c.values.Renames f table) (s : Stage) (origin : Position)
    (known : List String) (index : Nat) (n : NodeTemplate)
    (fixes : ∀ reference ∈ (Json.obj n.content).secretTokens, f reference = reference) :
    n.render (c.withSecrets table) (s.rename f) origin known index = n.render c s origin known index := by
  have filled : Substitution.substitute Substitution.defaultDepth (c.withSecrets table).values none (.obj n.content)
      = Substitution.substitute Substitution.defaultDepth c.values none (.obj n.content) :=
    congrArg Substitution.Traced.outcome (congrArg (fun t => { t with errors := [] ++ t.errors })
      (Substitution.resolveRenamed renames Substitution.defaultDepth "$" 0 _ fixes))
  simp only [render, filled]
  rfl

theorem NodeTemplate.renderAllRenamed [Regex] (renames : c.values.Renames f table) (s : Stage) (origin : Position)
    (known : List String) (index : Nat) (nodes : List NodeTemplate)
    (fixes : ∀ n ∈ nodes, ∀ reference ∈ (Json.obj n.content).secretTokens, f reference = reference) :
    renderAll (c.withSecrets table) (s.rename f) origin known index nodes =
      renderAll c s origin known index nodes := by
  induction nodes generalizing index with
  | nil => rfl
  | cons n rest ih =>
    have head := renderRenamed renames s origin known index n (fixes n List.mem_cons_self)
    have tail := ih (index + 1) fun m mem => fixes m (List.mem_cons_of_mem _ mem)
    simp only [renderAll, head, tail]

namespace Stage

theorem parametersRenamed [Regex] {x : Substitution.Context} (renames : x.Renames f table) (s : Stage)
    (defs : ParamDefs) : (s.rename f).parameters defs (x.withSecrets table) = s.parameters defs x := by
  have given : Substitution.resolveParams Substitution.defaultDepth (x.withSecrets table) (s.rename f).params =
      Substitution.resolveParams Substitution.defaultDepth x s.params :=
    Substitution.paramsRenamed renames Substitution.defaultDepth s.params
  simp only [parameters, given]

theorem renderRenamed [Regex] (renames : c.values.Renames f table) (s : Stage) (origin : Position) (n : Nexon)
    (fixes : ∀ reference ∈ n.secretTokens, f reference = reference) :
    (s.rename f).render (c.withSecrets table) origin n = s.render c origin n := by
  let values : Substitution.Context := { c.values with stage := s.scopeValue }
  have given : (s.rename f).parameters (n.manifest.parameters.getD []) (values.withSecrets table) =
      s.parameters (n.manifest.parameters.getD []) values :=
    parametersRenamed (x := values) renames s _
  have nodes : ∀ params, NodeTemplate.renderAll
      (RenderContext.withSecrets { c with values := { values with params } } table) (s.rename f) origin
        (n.nodes.map (·.id)) 0 n.nodes =
      NodeTemplate.renderAll { c with values := { values with params } } s origin (n.nodes.map (·.id)) 0
        n.nodes := by
    intro params
    let filled : RenderContext := { c with values := { values with params } }
    refine NodeTemplate.renderAllRenamed (c := filled) renames s origin _ 0 n.nodes ?_
    exact fun node mem reference token => fixes reference (List.mem_flatMap.mpr ⟨node, mem, token⟩)
  unfold render
  refine bind_congr fun _ => ?_
  refine (congrArg (· >>= _) given).trans (bind_congr fun filled => ?_)
  exact congrArg (· >>= _) (nodes filled.1)

theorem codeRenamed (s : Stage) : Placeholder.code (s.rename f) = Placeholder.code s := by
  have found : (s.rename f).params.lookup "code" = (s.params.lookup "code").map (·.rename f) :=
    Table.getOfMap (Param.rename f) s.params "code"
  simp only [Placeholder.code, found]
  cases s.params.lookup "code" with
  | none => rfl
  | some p =>
    cases p with
    | token t => cases t <;> rfl
    | _ => rfl

theorem placeholderRenamed (s : Stage) (origin : Position) (reason : StageError) :
    (s.rename f).placeholder (c.withSecrets table) origin reason = s.placeholder c origin reason := by
  simp only [placeholder, Placeholder.node, Placeholder.properties, codeRenamed]
  rfl

theorem renderFoundRenamed [Regex] (renames : c.values.Renames f table) (s : Stage) (origin : Position)
    (found : Except TemplateError Nexon)
    (fixes : ∀ n, found = .ok n → ∀ reference ∈ n.secretTokens, f reference = reference) :
    (s.rename f).renderFound (c.withSecrets table) origin found = s.renderFound c origin found := by
  cases found with
  | error reason => rfl
  | ok n => exact renderRenamed renames s origin n (fixes n rfl)

end Stage

namespace Channel

section

variable [Regex]

theorem outcomeRenamed (renames : c.values.Renames f table) (index : Nat) (s : Stage)
    (found : Except TemplateError Nexon)
    (fixes : ∀ n, found = .ok n → ∀ reference ∈ n.secretTokens, f reference = reference) :
    outcome (c.withSecrets table) index (s.rename f) found =
      { outcome c index s found with stage := s.rename f } := by
  have position : (s.rename f).position = s.position := rfl
  simp only [outcome, position, Stage.renderFoundRenamed renames s _ found fixes]
  cases s.renderFound c (s.position.getD (gridPosition index)) found with
  | ok rendered => rfl
  | error reason => simp only [Stage.placeholderRenamed]

theorem outcomesRenamed (renames : c.values.Renames f table) (index : Nat)
    (stages : List (Stage × Except TemplateError Nexon))
    (fixes : ∀ s n, (s, .ok n) ∈ stages → ∀ reference ∈ n.secretTokens, f reference = reference) :
    outcomes (c.withSecrets table) index (stages.map fun s => (s.1.rename f, s.2)) =
      (outcomes c index stages).map fun o => { o with stage := o.stage.rename f } := by
  induction stages generalizing index with
  | nil => rfl
  | cons head rest ih =>
    obtain ⟨s, found⟩ := head
    have own : ∀ n, found = .ok n → ∀ reference ∈ n.secretTokens, f reference = reference := by
      rintro n rfl
      exact fixes s n List.mem_cons_self
    have stage : (outcome c index s found).stage = s := by
      simp only [outcome]
      split <;> rfl
    rw [List.map_cons, outcomes, outcomes, List.map_cons, outcomeRenamed renames index s found own, stage,
      ih (index + 1) fun s n mem => fixes s n (List.mem_cons_of_mem _ mem)]

theorem findNexonsRenamed (f : String → String) (sources : List NexonSource) (clock : Clock) (resolver : Resolver)
    (stages : List Stage) :
    findNexons sources clock resolver (stages.map (·.rename f)) = findNexons sources clock resolver stages := by
  induction stages generalizing clock resolver with
  | nil => rfl
  | cons s rest ih =>
    simp only [List.map_cons, findNexons, ih]
    rfl

theorem generateFromRenamed (injective : Function.Injective f) (c : Channel) (o : GenerationOptions)
    (found : List (Except TemplateError Nexon))
    (fixes : ∀ n, .ok n ∈ found → ∀ reference ∈ n.secretTokens, f reference = reference) :
    (c.rename f).generateFrom o found =
      { c.generateFrom o found with
        artifacts := { (c.generateFrom o found).artifacts with
          credentialsMap := ((CredentialsMap.ofChannel c).rename f).toJson } } := by
  let credentials := CredentialsMap.ofChannel c
  have map : CredentialsMap.ofChannel (c.rename f) = credentials.rename f :=
    CredentialsMap.ofChannelRenamed injective c
  have context : (c.rename f).renderContext o (credentials.rename f) =
      (c.renderContext o credentials).withSecrets (credentials.rename f).envByRef := rfl
  have stages : (c.rename f).stages.zip found = (c.stages.zip found).map fun s => (s.1.rename f, s.2) := by
    rw [Channel.rename, List.zip_map_left]
    rfl
  have renames : (c.renderContext o credentials).values.Renames f (credentials.rename f).envByRef :=
    CredentialsMap.envByRefRenamed injective credentials
  have outcomes := outcomesRenamed renames 0 (c.stages.zip found)
    fun s n mem => fixes n (List.of_mem_zip mem).2
  have edges : (c.rename f).edges = c.edges := rfl
  simp only [generateFrom, map, context, stages, outcomes, edges, unwired, List.foldl_map,
    List.filterMap_map, List.flatMap_map, manifest, List.map_map, Function.comp_def, StageOutcome.issues,
    CredentialsMap.envVarsRenamed]
  rfl

theorem secretsSeenOnlyInCredentials (f : String → String) (injective : Function.Injective f) (c : Channel)
    (o : GenerationOptions) (sources : List NexonSource) (clock : Clock) (resolver : Resolver)
    (fixes : ∀ n, .ok n ∈ (findNexons sources clock resolver c.stages).1 →
      ∀ reference ∈ n.secretTokens, f reference = reference) :
    let before := c.generate o sources clock resolver
    let after := (c.rename f).generate o sources clock resolver
    after.1.artifacts.flows = before.1.artifacts.flows ∧
    after.1.artifacts.settings = before.1.artifacts.settings ∧
    after.1.artifacts.manifest = before.1.artifacts.manifest ∧
    after.1.issues = before.1.issues ∧ after.1.placeholders = before.1.placeholders ∧
    before.1.artifacts.credentialsMap = (CredentialsMap.ofChannel c).toJson ∧
    after.1.artifacts.credentialsMap = ((CredentialsMap.ofChannel c).rename f).toJson ∧
    after.2 = before.2 := by
  intro before after
  have found : findNexons sources clock resolver (c.rename f).stages =
      findNexons sources clock resolver c.stages := findNexonsRenamed f sources clock resolver c.stages
  have made : after = ((c.rename f).generateFrom o (findNexons sources clock resolver c.stages).1,
      (findNexons sources clock resolver c.stages).2) := by simp only [after, generate, found]
  rw [made, generateFromRenamed injective c o _ fixes]
  exact ⟨rfl, rfl, rfl, rfl, rfl, rfl, rfl, rfl⟩

end

attribute [local instance] Pattern.engine in
theorem swappedSecretsSeenOnlyInCredentials :
    let n : Nexon :=
      { manifest := { id := "n", version := "1.0.0", title := "N" }
        nodes := [{ id := "x", type := "debug", properties :=
          [("own", Token.toJson (.secret "nexon")), ("given", .str "\x7b\x7bparams.key\x7d\x7d")] }]
        kind := .disk, locator := "", checksum := "", ttl := 1, serial := 0 }
    let stage (id : String) : Stage :=
      { id, nexonId := "n", nexonVersion := some "1.0.0", params := [("key", .token (.secret "one"))] }
    let c : Channel := { channelId := "c", title := "t", stages := [stage "a", stage "b"] }
    let resolver : Resolver := ⟨⟨[("n@1.0.0", ⟨n, 0, 1⟩)], 1⟩, 0⟩
    let f := Equiv.swap "one" "two"
    n.secretTokens = ["nexon"] ∧
    ((c.rename f).generate {} [] (.still 0) resolver).1.artifacts.flows
      = (c.generate {} [] (.still 0) resolver).1.artifacts.flows ∧
    ((c.rename f).generate {} [] (.still 0) resolver).1.artifacts.credentialsMap =
      ((CredentialsMap.ofChannel c).rename f).toJson := by
  intro n stage c resolver f
  have tokens : n.secretTokens = ["nexon"] := rfl
  have found : (findNexons [] (.still 0) resolver c.stages).1 = [.ok n, .ok n] := rfl
  have fixes : ∀ m, .ok m ∈ (findNexons [] (.still 0) resolver c.stages).1 →
      ∀ reference ∈ m.secretTokens, f reference = reference := by
    intro m mem reference token
    rw [found] at mem
    have same : m = n := by simpa using mem
    subst same
    rw [tokens, List.mem_singleton] at token
    subst token
    exact Equiv.swap_apply_of_ne_of_ne (by decide) (by decide)
  have seen := secretsSeenOnlyInCredentials f f.injective c {} [] (.still 0) resolver fixes
  exact ⟨tokens, seen.1, seen.2.2.2.2.2.2.1⟩

end Channel

end Conduit
