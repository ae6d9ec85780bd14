import Conduit.Channel.Validation
import Conduit.Proofs.SecretSpots
import Conduit.Proofs.SecretUses

/-! Whether every secret of a channel is served: it has one credential, its place is that credential or an
alias of it, and resolving the stage puts the placeholder there. This holds exactly when no use that matters
is written over by another use at a place of the same dotted path. -/
namespace Conduit

open CredentialsMap (Draft ownedEnv)

namespace Channel

def secretUses (c : Channel) : List SecretUse := c.stages.flatMap Stage.secrets

def UsesSecret (c : Channel) (s : Stage) (name : String) (spot : Spot) (reference : String) : Prop :=
  s ∈ c.stages ∧ ∃ p, (name, p) ∈ s.params ∧ p.Holds reference spot

end Channel

def Stage.secretPath (s : Stage) (name : String) (spot : Spot) : String := Spot.path s!"{s.id}.{name}" spot

def Channel.Serves (c : Channel) (limit : Nat) (s : Stage) (name : String) (spot : Spot)
    (reference : String) : Prop :=
  let m := CredentialsMap.ofChannel c
  ∃ home env,
    m.credentials.filter (·.2.reference = reference) = [(home, ⟨reference, env⟩)] ∧
    (s.secretPath name spot = home ∨ m.aliases.get? (s.secretPath name spot) = some env) ∧
    ∀ x : Substitution.Context, x.secretEnv = m.envByRef →
      let run := Substitution.resolveParams limit x s.params
      (∀ p, (name, p) ∈ s.params → p.Holds reference spot →
        (Substitution.resolveParam x limit name 0 p).value.Has spot (.str (Secret.placeholder env))) ∧
      (∀ place, .unregisteredSecret place ∉ run.errors) ∧
      (run.errors = [] → ∃ v, run.value = some v ∧
        v.Has (.field name :: spot) (.str (Secret.placeholder env)))

theorem singletonOfNodup {α : Type} {l : List α} {a : α} (distinct : l.Nodup) (mem : a ∈ l)
    (only : ∀ b ∈ l, b = a) : l = [a] := by
  cases l with
  | nil => simp at mem
  | cons head rest =>
    have here := only head List.mem_cons_self
    subst here
    cases rest with
    | nil => rfl
    | cons next rest =>
      have again := only next (by simp)
      subst again
      simp at distinct

namespace Channel

open SecretUse

variable {c : Channel} {s : Stage} {name reference : String} {spot : Spot} {limit : Nat}

theorem useOfSecret (uses : c.UsesSecret s name spot reference) :
    (s.secretPath name spot, reference) ∈ c.secretUses := by
  obtain ⟨stage, p, param, holds⟩ := uses
  exact List.mem_flatMap.mpr ⟨s, stage, List.mem_flatMap.mpr ⟨(name, p), param, Param.heldSecrets holds _⟩⟩

def finished (c : Channel) : Draft := c.secretUses.foldl (fun d use => d.add use.1 use.2) {}

theorem finishedGrown (c : Channel) : Draft.Grown {} c.secretUses c.finished :=
  Draft.grown c.secretUses {}

def envOf (c : Channel) (reference : String) : String := ownedEnv c.finished.owners reference

theorem credentialsListed (c : Channel) : (CredentialsMap.ofChannel c).credentials =
    Table.ofList ((first [] c.secretUses).map fun use => (use.1, ⟨use.2, c.envOf use.2⟩)) := by
  rw [Table.ofList, List.foldl_map]
  exact c.finishedGrown.credentials

theorem credentialAt (c : Channel) (path : String) :
    (CredentialsMap.ofChannel c).credentials.get? path =
      (lastAt path (first [] c.secretUses)).map fun reference => ⟨reference, c.envOf reference⟩ := by
  rw [credentialsListed, Table.getOfList, ← List.map_reverse, List.find?_map]
  simp only [lastAt, Option.map_map, Function.comp_def]

theorem aliasesListed (c : Channel) : (CredentialsMap.ofChannel c).aliases =
    Table.ofList ((later [] c.secretUses).map fun use => (use.1, c.envOf use.2)) := by
  rw [Table.ofList, List.foldl_map]
  exact c.finishedGrown.aliases

theorem aliasAt (c : Channel) (path : String) :
    (CredentialsMap.ofChannel c).aliases.get? path =
      (lastAt path (later [] c.secretUses)).map c.envOf := by
  rw [aliasesListed, Table.getOfList, ← List.map_reverse, List.find?_map]
  simp only [lastAt, Option.map_map, Function.comp_def]

theorem credentialsOrdered (c : Channel) : (CredentialsMap.ofChannel c).credentials.Ordered := by
  rw [credentialsListed]
  exact Table.ofListOrdered _

theorem aliasesOrdered (c : Channel) : (CredentialsMap.ofChannel c).aliases.Ordered := by
  rw [aliasesListed]
  exact Table.ofListOrdered _

theorem envOfInj {a b : SecretUse} (left : a ∈ c.secretUses) (right : b ∈ c.secretUses)
    (same : c.envOf a.2 = c.envOf b.2) : a.2 = b.2 := by
  obtain ⟨env, ownsA⟩ := c.finishedGrown.known a left
  obtain ⟨other, ownsB⟩ := c.finishedGrown.known b right
  have distinct : (Table.values c.finished.owners).Nodup := c.finishedGrown.distinct List.nodup_nil
  simp only [envOf, ownedEnv, ownsA, ownsB, Option.getD_some] at same
  subst same
  exact congrArg Prod.fst (List.inj_on_of_nodup_map distinct (Table.memOfGet ownsA) (Table.memOfGet ownsB) rfl)

theorem ownedOnce {home : String} (own : (home, reference) ∈ first [] c.secretUses)
    (stays : lastAt home (first [] c.secretUses) = some reference) :
    (CredentialsMap.ofChannel c).credentials.filter (·.2.reference = reference) =
      [(home, ⟨reference, c.envOf reference⟩)] := by
  have stored : (CredentialsMap.ofChannel c).credentials.get? home =
      some ⟨reference, c.envOf reference⟩ := by rw [credentialAt, stays]; rfl
  refine singletonOfNodup ((Table.nodupOfOrdered c.credentialsOrdered).filter _) ?_ ?_
  · exact List.mem_filter.mpr ⟨Table.memOfGet stored, by simp⟩
  · rintro ⟨path, credential⟩ mem
    obtain ⟨inside, named⟩ := List.mem_filter.mp mem
    have found := Table.getOfMem c.credentialsOrdered inside
    rw [credentialAt] at found
    obtain ⟨last, atPath, same⟩ := Option.map_eq_some_iff.mp found
    subst same
    have matched : last = reference := by simpa using named
    subst matched
    rw [firstUnique (lastAtMem atPath) own]

theorem registeredOnce {home env : String}
    (once : (CredentialsMap.ofChannel c).credentials.filter (·.2.reference = reference) =
      [(home, ⟨reference, env⟩)]) :
    (CredentialsMap.ofChannel c).envByRef.get? reference = some env := by
  have only : ∀ credential ∈ (CredentialsMap.ofChannel c).credentials.values,
      credential.reference = reference → credential.env = env := by
    intro credential mem matched
    obtain ⟨p, inside, rfl⟩ := List.mem_map.mp mem
    have filtered : p ∈ [(home, (⟨reference, env⟩ : Credential))] := by
      rw [← once]
      exact List.mem_filter.mpr ⟨inside, by simpa using matched⟩
    rw [List.mem_singleton.mp filtered]
  have present : (⟨reference, env⟩ : Credential) ∈ (CredentialsMap.ofChannel c).credentials.values := by
    have mem : (home, (⟨reference, env⟩ : Credential)) ∈
        (CredentialsMap.ofChannel c).credentials.filter (·.2.reference = reference) := by
      rw [once]
      exact List.mem_singleton_self _
    exact List.mem_map.mpr ⟨_, (List.mem_filter.mp mem).1, rfl⟩
  rw [CredentialsMap.envByRef, Table.getOfList]
  have some : ((((CredentialsMap.ofChannel c).credentials.values.map fun c => (c.reference, c.env)).reverse).find?
      fun p => p.1 = reference).isSome := by
    rw [List.find?_isSome]
    exact ⟨(reference, env), List.mem_reverse.mpr (List.mem_map.mpr ⟨_, present, rfl⟩), by simp⟩
  obtain ⟨p, found⟩ := Option.isSome_iff_exists.mp some
  obtain ⟨credential, mem, rfl⟩ := List.mem_map.mp (List.mem_reverse.mp (List.mem_of_find?_eq_some found))
  have matched : credential.reference = reference := by simpa using List.find?_some found
  rw [found, Option.map_some, only credential mem matched]

theorem keptOfServes (uses : c.UsesSecret s name spot reference)
    (served : c.Serves limit s name spot reference) :
    Kept c.secretUses (s.secretPath name spot, reference) := by
  obtain ⟨home, env, once, place, _⟩ := served
  have mem : (home, (⟨reference, env⟩ : Credential)) ∈
      (CredentialsMap.ofChannel c).credentials.filter (·.2.reference = reference) := by
    rw [once]
    exact List.mem_singleton_self _
  have found := Table.getOfMem c.credentialsOrdered (List.mem_filter.mp mem).1
  rw [credentialAt] at found
  obtain ⟨last, atHome, same⟩ := Option.map_eq_some_iff.mp found
  simp only [Credential.mk.injEq] at same
  obtain ⟨rfl, rfl⟩ := same
  refine ⟨home, lastAtMem atHome, atHome, place.imp_right ?_⟩
  intro aliased
  rw [aliasAt] at aliased
  obtain ⟨other, atPath, same⟩ := Option.map_eq_some_iff.mp aliased
  have matched : other = last :=
    envOfInj (a := (_, other)) (b := (_, last)) (memLater (lastAtMem atPath)) (useOfSecret uses) same
  rw [atPath, matched]

theorem registeredOfKept {path : String} (kept : Kept c.secretUses (path, reference)) :
    (CredentialsMap.ofChannel c).envByRef.get? reference = some (c.envOf reference) := by
  obtain ⟨home, own, stays, _⟩ := kept
  exact registeredOnce (ownedOnce own stays)

theorem servesOfKept (stage : s ∈ c.stages) (within : spot.length ≤ limit)
    (all : ∀ name spot reference, c.UsesSecret s name spot reference → spot.length ≤ limit →
      Kept c.secretUses (s.secretPath name spot, reference))
    (kept : Kept c.secretUses (s.secretPath name spot, reference)) (p : Param)
    (param : (name, p) ∈ s.params) (holds : p.Holds reference spot) :
    c.Serves limit s name spot reference := by
  have registered := registeredOfKept kept
  obtain ⟨home, own, stays, place⟩ := kept
  refine ⟨home, c.envOf reference, ownedOnce own stays, place.imp_right ?_, ?_⟩
  · intro last
    rw [aliasAt, last]
    rfl
  · intro x table
    rw [← table] at registered
    refine ⟨fun q _ inside => Substitution.heldResolved inside registered name 0 (by omega), ?_, ?_⟩
    · intro lost mem
      obtain ⟨entry, entryMem, failed⟩ := List.mem_flatMap.mp mem
      obtain ⟨⟨other, q⟩, otherMem, rfl⟩ := List.mem_map.mp entryMem
      obtain ⟨spot, reference, inside, shallow, absent⟩ := Substitution.unregisteredHeld failed
      have found := registeredOfKept (all other spot reference ⟨stage, q, otherMem, inside⟩ (by omega))
      rw [table, found] at absent
      contradiction
    · intro clean
      simp only [Substitution.resolveParams, Substitution.Traced.outcome] at clean ⊢
      refine ⟨_, if_pos (List.isEmpty_iff.mpr clean), ?_⟩
      have resolved := Substitution.heldResolved holds registered name 0 (by simpa using within)
      refine .field ?_ resolved
      rw [List.map_map]
      exact List.mem_map.mpr ⟨(name, p), param, rfl⟩

theorem secretsServedIff (c : Channel) (limit : Nat) :
    ((∀ s name spot reference, c.UsesSecret s name spot reference → spot.length ≤ limit →
        c.Serves limit s name spot reference) ↔
      ∀ s name spot reference, c.UsesSecret s name spot reference → spot.length ≤ limit →
        Kept c.secretUses (s.secretPath name spot, reference)) ∧
    ((∀ a ∈ c.secretUses, ∀ b ∈ c.secretUses, a.1 = b.1 → a.2 = b.2) →
      ∀ s name spot reference, c.UsesSecret s name spot reference → spot.length ≤ limit →
        c.Serves limit s name spot reference) := by
  have serve : (∀ s name spot reference, c.UsesSecret s name spot reference → spot.length ≤ limit →
      Kept c.secretUses (s.secretPath name spot, reference)) →
      ∀ s name spot reference, c.UsesSecret s name spot reference → spot.length ≤ limit →
        c.Serves limit s name spot reference := by
    rintro all s name spot reference ⟨stage, p, param, holds⟩ within
    exact servesOfKept stage within (all s) (all s name spot reference ⟨stage, p, param, holds⟩ within)
      p param holds
  refine ⟨⟨fun served s name spot reference uses within => ?_, serve⟩, fun apart => serve ?_⟩
  · exact keptOfServes uses (served s name spot reference uses within)
  · exact fun s name spot reference uses _ => keptOfPaths apart (useOfSecret uses)

def clashingDocument : Json :=
  .ofPairs [("channelId", .str "c"), ("title", .str "t"), ("stages", .arr [.ofPairs
    [("id", .str "a"), ("nexonId", .str "n"), ("params", .ofPairs
      [("b", .ofPairs [("c", Token.toJson (.secret "one"))]), ("b.c", Token.toJson (.secret "two"))])]])]

set_option maxRecDepth 4000 in
/-- The second of two secrets whose paths have the same text takes the credential of the first. -/
theorem clashLosesSecret : ∃ c, (validateChannel clashingDocument).channel = some c ∧
    ¬ ∀ s name spot reference, c.UsesSecret s name spot reference →
      spot.length ≤ Substitution.defaultDepth →
      c.Serves Substitution.defaultDepth s name spot reference := by
  let s : Stage := { id := "a", nexonId := "n", params :=
    [("b", .map [("c", .token (.secret "one"))]), ("b.c", .token (.secret "two"))] }
  refine ⟨{ channelId := "c", title := "t", stages := [s] }, rfl, fun served => ?_⟩
  have uses : Channel.UsesSecret { channelId := "c", title := "t", stages := [s] } s "b" [.field "c"] "one" :=
    ⟨by simp, _, List.mem_cons_self, .field List.mem_cons_self .here⟩
  obtain ⟨home, own, stays, _⟩ := keptOfServes uses (served s "b" [.field "c"] "one" uses (by decide))
  have firsts : first [] (Channel.secretUses { channelId := "c", title := "t", stages := [s] }) =
      [("a.b.c", "one"), ("a.b.c", "two")] := rfl
  rw [firsts] at own stays
  have place : home = "a.b.c" := by simpa using own
  subst place
  exact absurd stays (by decide)

end Channel

end Conduit
