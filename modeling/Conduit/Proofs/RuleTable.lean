import Conduit.Policy.Lint
import Mathlib.Data.List.Basic
import Mathlib.Data.List.ProdSigma

/-! The rules of a policy as a table: what triggers each of them, where, and how severe that is. A lint has one
violation for every rule and place that the table lists, with one exception: documentation that is missing is
overlooked where the policy asks for none of any length. -/
namespace Conduit

/-! Patterns of nexons. -/

def PatternFits (pattern id : String) : Prop :=
  pattern = id ∨ ∃ start, pattern.toList = start ++ ['*'] ∧ start <+: id.toList

theorem nexonMatchesIff {pattern id : String} : nexonMatches pattern id = true ↔ PatternFits pattern id := by
  simp only [nexonMatches, PatternFits]
  split
  next star =>
    obtain ⟨start, chars⟩ := List.getLast?_eq_some_iff.mp star
    rw [chars, List.dropLast_concat, List.isPrefixOf_iff_prefix]
    constructor
    · exact fun begins => .inr ⟨start, rfl, begins⟩
    · rintro (rfl | ⟨other, same, begins⟩)
      · exact chars ▸ List.prefix_append start ['*']
      · rwa [List.append_cancel_right same]
  next plain =>
    rw [decide_eq_true_iff]
    refine ⟨.inl, ?_⟩
    rintro (same | ⟨start, chars, -⟩)
    · exact same
    · exact absurd (chars ▸ List.getLast?_concat) plain

def AnyFits (patterns : List String) (id : String) : Prop := ∃ pattern ∈ patterns, PatternFits pattern id

theorem nexonListedIff {patterns : List String} {id : String} :
    nexonListed patterns id = true ↔ AnyFits patterns id := by
  simp only [nexonListed, AnyFits, List.any_eq_true, nexonMatchesIff]

instance (patterns : List String) (id : String) : Decidable (AnyFits patterns id) :=
  decidable_of_iff _ nexonListedIff

/-! The table. -/

namespace PolicyRule

theorem everyRule (rule : PolicyRule) : rule ∈ all := by
  cases rule <;> decide

def mode? (p : OrgPolicy) : PolicyRule → Option PolicyMode
  | .httpOut => some p.egress.http
  | .tcpOut => some p.egress.tcp
  | .udpOut => some p.egress.udp
  | .publicHttpIn => some p.publicHttpIn
  | .unlistedNexon => some p.unlistedNexons
  | .documentation => some p.requireDocumentation
  | .sensitiveData => some p.sensitiveData
  | _ => none

def ownSeverity : PolicyRule → Severity
  | .unpinnedVersion => .info
  | .stageCount => .warning
  | _ => .error

def usualSeverity? (p : OrgPolicy) (rule : PolicyRule) : Option Severity :=
  match rule.mode? p with
  | some mode => mode.severity?
  | none => some rule.ownSeverity

def Triggers (c : Channel) (p : OrgPolicy) : PolicyRule → Place → Prop
  | .httpOut, .channel => c.security.httpOut = true
  | .tcpOut, .channel => c.security.tcpOut = true
  | .udpOut, .channel => c.security.udpOut = true
  | .publicHttpIn, .channel => c.security.httpIn = true
  | .blockedNexon, .stage s => AnyFits p.blockedNexons s.nexonId
  | .unlistedNexon, .stage s => ∃ allowed ∈ p.allowedNexons, ¬ AnyFits allowed s.nexonId
  | .unpinnedVersion, .stage s => s.nexonVersion = none
  | .target, .channel => c.target ∉ p.allowedTargets
  | .stageLimit, .channel => p.maxStages < c.stages.length
  | .stageCount, .channel => p.stageWarnThreshold < c.stages.length ∧ c.stages.length ≤ p.maxStages
  | .documentation, .channel =>
    c.documentation = none ∨ ∃ d ∈ c.documentation, d.textLength < p.minDocumentationLength
  | .sensitiveData, .stage s => AnyFits p.sensitiveNexons s.nexonId
    ∧ (c.security.httpOut = true ∨ c.security.tcpOut = true ∨ c.security.udpOut = true ∨ c.target = .cloud)
  | _, _ => False

instance (c : Channel) (p : OrgPolicy) (rule : PolicyRule) (place : Place) : Decidable (rule.Triggers c p place) := by
  cases rule <;> cases place <;> dsimp only [Triggers] <;> infer_instance

def Overlooked (c : Channel) (p : OrgPolicy) (rule : PolicyRule) : Prop :=
  rule = .documentation ∧ c.documentation = none ∧ p.minDocumentationLength = 0

instance (c : Channel) (p : OrgPolicy) (rule : PolicyRule) : Decidable (rule.Overlooked c p) :=
  inferInstanceAs (Decidable (_ ∧ _ ∧ _))

end PolicyRule

namespace OrgPolicy

def sites (c : Channel) : List (PolicyRule × Place) := PolicyRule.all ×ˢ (.channel :: c.stages.map .stage)

def Due (p : OrgPolicy) (c : Channel) (site : PolicyRule × Place) : Prop :=
  site.1.mode? p ≠ some .allow ∧ site.1.Triggers c p site.2

instance (p : OrgPolicy) (c : Channel) (site : PolicyRule × Place) : Decidable (p.Due c site) :=
  inferInstanceAs (Decidable (_ ∧ _))

def due (p : OrgPolicy) (c : Channel) : List (PolicyRule × Place) := (sites c).filter fun site => p.Due c site

def noticed (p : OrgPolicy) (c : Channel) : List (PolicyRule × Place) :=
  (sites c).filter fun site => p.Due c site ∧ ¬ site.1.Overlooked c p

structure Gated (p : OrgPolicy) (acknowledged : List String) (sites : List (PolicyRule × Place)) (r : LintResult) :
    Prop where
  sites : r.violations.map (fun v => (v.rule, v.stage)) = sites.map fun site => (site.1, site.2.stageId?)
  severity : ∀ v ∈ r.violations,
    (p.severityOverrides.get? v.rule.id).or (v.rule.usualSeverity? p) = some v.severity
  acknowledged : ∀ v ∈ r.violations,
    v.acknowledged = true ↔ ∃ a ∈ acknowledged, Text.trimmed a = v.id ∨ Text.trimmed a = v.rule.id
  total : r.count .error + r.count .warning + r.count .info = r.violations.length
  passed : r.passed = true ↔ ∀ v ∈ r.violations, v.severity = .error → v.acknowledged = true

end OrgPolicy

/-! Where rules are broken. -/

namespace PolicyRule

variable {c : Channel} {p : OrgPolicy} {rule : PolicyRule}

def brokenAt (c : Channel) (p : OrgPolicy) (rule : PolicyRule) : Place → Bool
  | .channel => rule.broken c p
  | .stage s => rule.brokenBy c p s

theorem placesBroken : rule.places c p = (.channel :: c.stages.map .stage).filter (rule.brokenAt c p) := by
  rw [places, List.filter_cons, List.filter_map, brokenAt]
  split <;> rfl

theorem documentationBroken : documentation.broken c p = true ↔
    (c.documentation = none ∨ ∃ d ∈ c.documentation, d.textLength < p.minDocumentationLength)
      ∧ ¬ (c.documentation = none ∧ p.minDocumentationLength = 0) := by
  rw [broken, decide_eq_true_iff, Channel.documentationLength]
  cases c.documentation with
  | none => simp [Nat.pos_iff_ne_zero]
  | some d => simp

theorem brokenAtIff {place : Place} :
    rule.brokenAt c p place = true ↔ rule.Triggers c p place ∧ ¬ rule.Overlooked c p := by
  -- for all other rules the two sides ask the same
  cases rule with
  | documentation =>
    cases place with
    | channel => simpa only [brokenAt, Triggers, Overlooked, true_and] using documentationBroken
    | stage s => simp [brokenAt, brokenBy, Triggers]
  | _ =>
    cases place <;>
      simp [brokenAt, broken, brokenBy, Triggers, Overlooked, ← nexonListedIff, Option.any_eq_true,
        Channel.isExposed, Security.anyEgress, and_comm, or_assoc]

theorem severityUsual : rule.severity? p = rule.usualSeverity? p := by
  cases rule <;> rfl

theorem severityNone : rule.severity? p = none ↔ rule.mode? p = some .allow := by
  rw [severityUsual, usualSeverity?]
  cases rule.mode? p with
  | none => simp
  | some mode => cases mode <;> simp [PolicyMode.severity?]

end PolicyRule

namespace OrgPolicy

variable {p : OrgPolicy} {c : Channel} {given : List String}

theorem coversIff {rule : PolicyRule} {stage : Option String} : covers given rule stage = true ↔
    ∃ a ∈ given, Text.trimmed a = Violation.idOf rule stage ∨ Text.trimmed a = rule.id := by
  simp [covers]

theorem violationsSites (rule : PolicyRule) : (p.violationsOf c given rule).map (fun v => (v.rule, v.stage)) =
    (((Place.channel :: c.stages.map .stage).map (Prod.mk rule)).filter fun site =>
      p.Due c site ∧ ¬ site.1.Overlooked c p).map fun site => (site.1, site.2.stageId?) := by
  rw [violationsOf, List.filter_map, List.map_map]
  split
  next allowed =>
    have mode := PolicyRule.severityNone.mp allowed
    rw [List.filter_eq_nil_iff.mpr fun place _ => by simp [Due, mode]]
    rfl
  next severity given =>
    have mode : rule.mode? p ≠ some .allow := fun allowed => by
      rw [PolicyRule.severityNone.mpr allowed] at given
      cases given
    rw [PolicyRule.placesBroken, List.map_map]
    congr 1
    refine List.filter_congr fun place _ => ?_
    rw [Bool.eq_iff_iff, PolicyRule.brokenAtIff]
    simp [Due, mode]

theorem violationSource {v : Violation} (member : v ∈ (p.lint c given).violations) :
    ∃ rule severity place, rule.severity? p = some severity ∧ place ∈ rule.places c p
      ∧ v = p.violation c given rule severity place := by
  obtain ⟨rule, -, here⟩ := List.mem_flatMap.mp member
  rw [violationsOf] at here
  split at here
  next => cases here
  next severity found =>
    obtain ⟨place, broken, rfl⟩ := List.mem_map.mp here
    exact ⟨rule, severity, place, found, broken, rfl⟩

theorem countsTotal (r : LintResult) :
    r.count .error + r.count .warning + r.count .info = r.violations.length := by
  obtain ⟨violations⟩ := r
  simp only [LintResult.count]
  induction violations with
  | nil => rfl
  | cons v rest ih =>
    simp only [List.countP_cons, List.length_cons, ← ih]
    cases v.severity <;> simp <;> omega

theorem passedIff (r : LintResult) :
    r.passed = true ↔ ∀ v ∈ r.violations, v.severity = .error → v.acknowledged = true := by
  simp [LintResult.passed, Violation.blocks]

theorem lintNoticed : p.Gated given (p.noticed c) (p.lint c given) where
  sites := by
    rw [lint, List.map_flatMap, noticed, sites]
    -- a product of lists is this by definition
    show _ = ((PolicyRule.all.flatMap fun rule =>
      (Place.channel :: c.stages.map .stage).map (Prod.mk rule)).filter _).map _
    rw [List.filter_flatMap, List.map_flatMap]
    exact List.flatMap_congr fun rule _ => violationsSites rule
  severity v member := by
    obtain ⟨rule, severity, place, found, -, rfl⟩ := violationSource member
    rw [violation, ← PolicyRule.severityUsual, found]
    cases p.severityOverrides.get? rule.id <;> rfl
  acknowledged v member := by
    obtain ⟨rule, severity, place, -, -, rfl⟩ := violationSource member
    exact coversIff
  total := countsTotal _
  passed := passedIff _

theorem noticedLess (missing : c.documentation = none) (none : p.minDocumentationLength = 0)
    (asked : p.requireDocumentation ≠ .allow) : (p.noticed c).length < (p.due c).length := by
  have site : (PolicyRule.documentation, Place.channel) ∈ sites c :=
    List.mem_product.mpr ⟨PolicyRule.everyRule _, List.mem_cons_self⟩
  have split : p.noticed c = (p.due c).filter fun site => ¬ site.1.Overlooked c p := by
    rw [noticed, due, List.filter_filter]
    simp [Bool.and_comm]
  rw [split, List.length_filter_lt_length_iff_exists]
  refine ⟨_, List.mem_filter.mpr ⟨site, ?_⟩, ?_⟩
  · simp [Due, PolicyRule.mode?, PolicyRule.Triggers, asked, missing]
  · simp [PolicyRule.Overlooked, missing, none]

theorem lintGated (p : OrgPolicy) (c : Channel) (given : List String) :
    p.Gated given (p.noticed c) (p.lint c given)
    ∧ (p.Gated given (p.due c) (p.lint c given) ↔
      ¬ (c.documentation = none ∧ p.minDocumentationLength = 0 ∧ p.requireDocumentation ≠ .allow)) := by
  refine ⟨lintNoticed, fun gated => ?_, fun asked => ?_⟩
  · rintro ⟨missing, none, asked⟩
    have sites := congrArg List.length (lintNoticed.sites.symm.trans gated.sites)
    rw [List.length_map, List.length_map] at sites
    exact Nat.ne_of_lt (noticedLess missing none asked) sites
  · have same : p.due c = p.noticed c := by
      refine List.filter_congr fun site _ => ?_
      rw [decide_eq_decide, and_iff_left_of_imp]
      rintro ⟨mode, -⟩ ⟨documentation, missing, none⟩
      rw [documentation] at mode
      exact asked ⟨missing, none, fun allowed => mode (congrArg some allowed)⟩
    rw [same]
    exact lintNoticed

def anyLength : OrgPolicy := { orgId := "acme", requireDocumentation := .deny, minDocumentationLength := 0 }

def undocumented : Channel :=
  { channelId := "c", stages := [{ id := "a", nexonId := "function", nexonVersion := some "1.0.0" }] }

theorem undocumentedPasses : (anyLength.lint undocumented []).passed = true
    ∧ ¬ anyLength.Gated [] (anyLength.due undocumented) (anyLength.lint undocumented []) := by
  refine ⟨rfl, fun gated => ?_⟩
  have site : (anyLength.due undocumented).map (·.1) = [.documentation] := by decide
  have none : (anyLength.lint undocumented []).violations = [] := rfl
  have rules := congrArg (List.map Prod.fst) gated.sites
  rw [none, List.map_map] at rules
  exact absurd (rules.trans site) (by decide)

end OrgPolicy

end Conduit
