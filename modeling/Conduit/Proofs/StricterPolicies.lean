import Conduit.Proofs.RuleTable

/-! Policies whose settings are tightened. Whatever blocks a channel under a policy blocks it under a stricter one, and
the same acknowledgements answer for it, so that no build is freed by tightening. -/
namespace Conduit

/-! Settings. -/

namespace PolicyMode

def strictness : PolicyMode → Nat
  | .allow => 0
  | .warn => 1
  | .deny => 2

instance : LE PolicyMode := ⟨fun a b => a.strictness ≤ b.strictness⟩

instance (a b : PolicyMode) : Decidable (a ≤ b) := inferInstanceAs (Decidable (a.strictness ≤ b.strictness))

theorem errorKept {a b : PolicyMode} (stricter : a ≤ b) (severe : a.severity? = some .error) :
    b.severity? = some .error := by
  cases a with
  | deny =>
    cases b with
    | deny => rfl
    | warn => exact absurd stricter (by decide)
    | allow => exact absurd stricter (by decide)
  | warn => cases severe
  | allow => cases severe

end PolicyMode

theorem anyFitsMore {few more : List String} (among : few ⊆ more) {id : String} (fits : AnyFits few id) :
    AnyFits more id := by
  obtain ⟨pattern, member, fits⟩ := fits
  exact ⟨pattern, among member, fits⟩

namespace OrgPolicy

def Admits (p : OrgPolicy) (id : String) : Prop := ∀ allowed ∈ p.allowedNexons, AnyFits allowed id

/-- The second policy is at least as strict as the first in every setting. Nothing is asked of the number of stages from
which it warns. -/
structure Tightened (p q : OrgPolicy) : Prop where
  http : p.egress.http ≤ q.egress.http
  tcp : p.egress.tcp ≤ q.egress.tcp
  udp : p.egress.udp ≤ q.egress.udp
  publicHttpIn : p.publicHttpIn ≤ q.publicHttpIn
  unlistedNexons : p.unlistedNexons ≤ q.unlistedNexons
  requireDocumentation : p.requireDocumentation ≤ q.requireDocumentation
  sensitiveData : p.sensitiveData ≤ q.sensitiveData
  blocked : ∀ id, AnyFits p.blockedNexons id → AnyFits q.blockedNexons id
  admitted : ∀ id, q.Admits id → p.Admits id
  targets : q.allowedTargets ⊆ p.allowedTargets
  maxStages : q.maxStages ≤ p.maxStages
  minDocumentationLength : p.minDocumentationLength ≤ q.minDocumentationLength
  sensitive : ∀ id, AnyFits p.sensitiveNexons id → AnyFits q.sensitiveNexons id

namespace Tightened

/-! What a rule finds. -/

variable {p q : OrgPolicy} {c : Channel} {given : List String} {rule : PolicyRule} (tightened : p.Tightened q)
include tightened

theorem severityKept (severe : rule.severity? p = some .error) : rule.severity? q = some .error := by
  cases rule with
  | httpOut => exact PolicyMode.errorKept tightened.http severe
  | tcpOut => exact PolicyMode.errorKept tightened.tcp severe
  | udpOut => exact PolicyMode.errorKept tightened.udp severe
  | publicHttpIn => exact PolicyMode.errorKept tightened.publicHttpIn severe
  | unlistedNexon => exact PolicyMode.errorKept tightened.unlistedNexons severe
  | documentation => exact PolicyMode.errorKept tightened.requireDocumentation severe
  | sensitiveData => exact PolicyMode.errorKept tightened.sensitiveData severe
  | blockedNexon => rfl
  | target => rfl
  | stageLimit => rfl
  | unpinnedVersion => cases severe
  | stageCount => cases severe

theorem unlistedKept {id : String} (unlisted : ∃ allowed ∈ p.allowedNexons, ¬ AnyFits allowed id) :
    ∃ allowed ∈ q.allowedNexons, ¬ AnyFits allowed id := by
  obtain ⟨allowed, listed, unfit⟩ := unlisted
  by_contra everyFits
  push Not at everyFits
  exact unfit (tightened.admitted id everyFits allowed listed)

theorem triggersKept (severe : rule.severity? p = some .error) {place : Place} (triggers : rule.Triggers c p place) :
    rule.Triggers c q place := by
  cases place with
  | channel =>
    cases rule with
    | target => exact fun allowed => triggers (tightened.targets allowed)
    | stageLimit => exact Nat.lt_of_le_of_lt tightened.maxStages triggers
    | stageCount => cases severe
    | documentation =>
      exact Or.imp_right (fun ⟨d, written, short⟩ =>
        ⟨d, written, Nat.lt_of_lt_of_le short tightened.minDocumentationLength⟩) triggers
    | _ => exact triggers
  | stage s =>
    cases rule with
    | blockedNexon => exact tightened.blocked _ triggers
    | unlistedNexon => exact tightened.unlistedKept triggers
    | sensitiveData => exact And.imp_left (tightened.sensitive _) triggers
    | _ => exact triggers

theorem overlookedBefore (overlooked : rule.Overlooked c q) : rule.Overlooked c p := by
  obtain ⟨documentation, missing, none⟩ := overlooked
  exact ⟨documentation, missing, Nat.le_zero.mp (none ▸ tightened.minDocumentationLength)⟩

theorem placesKept (severe : rule.severity? p = some .error) {place : Place} (broken : place ∈ rule.places c p) :
    place ∈ rule.places c q := by
  rw [PolicyRule.placesBroken, List.mem_filter, PolicyRule.brokenAtIff] at broken ⊢
  obtain ⟨among, triggers, noticed⟩ := broken
  exact ⟨among, tightened.triggersKept severe triggers, fun overlooked => noticed (tightened.overlookedBefore overlooked)⟩

/-! What a lint finds. -/

theorem blockingKept (plain : p.severityOverrides = []) (other : q.severityOverrides = []) {v : Violation}
    (member : v ∈ (p.lint c given).violations) (blocks : v.blocks = true) :
    ∃ w ∈ (q.lint c given).violations, w.blocks = true ∧ w.rule = v.rule ∧ w.stage = v.stage := by
  obtain ⟨rule, severity, place, found, broken, rfl⟩ := violationSource member
  simp only [Violation.blocks, violation, plain, Table.get?, List.lookup_nil, Option.getD_none, Bool.and_eq_true,
    decide_eq_true_eq] at blocks
  obtain ⟨rfl, unacknowledged⟩ := blocks
  refine ⟨q.violation c given rule .error place, ?_, ?_, rfl, rfl⟩
  · refine List.mem_flatMap.mpr ⟨rule, PolicyRule.everyRule rule, ?_⟩
    rw [violationsOf, tightened.severityKept found]
    exact List.mem_map_of_mem (tightened.placesKept found broken)
  · simp only [Violation.blocks, violation, other, Table.get?, List.lookup_nil, Option.getD_none, Bool.and_eq_true,
      decide_true, true_and]
    exact unacknowledged

end Tightened

theorem tightenedPasses {p q : OrgPolicy} (tightened : p.Tightened q) (plain : p.severityOverrides = [])
    (other : q.severityOverrides = []) (c : Channel) (given : List String) (passed : (q.lint c given).passed = true) :
    (p.lint c given).passed = true := by
  rw [LintResult.passed, Bool.not_eq_true', List.any_eq_false] at passed ⊢
  intro v member blocks
  obtain ⟨w, among, blocked, -⟩ := tightened.blockingKept plain other member blocks
  exact passed w among blocked

/-! A policy and a stricter one, which a channel passes with an acknowledgement. -/

def lenientPolicy : OrgPolicy where
  egress := { http := .allow, tcp := .warn }
  blockedNexons := ["legacy-ftp"]
  unlistedNexons := .warn
  maxStages := 3

def strictPolicy : OrgPolicy where
  egress := { http := .deny }
  blockedNexons := ["legacy-*"]
  allowedNexons := some ["legacy-*"]
  allowedTargets := [.onprem]
  maxStages := 2
  stageWarnThreshold := 1
  requireDocumentation := .deny
  minDocumentationLength := 30
  sensitiveNexons := ["postgres"]
  sensitiveData := .deny

def legacyStages : Channel where
  channelId := "c"
  title := "t"
  stages := [{ id := "a", nexonId := "legacy-ftp" }, { id := "b", nexonId := "legacy-smb" }]
  documentation := some { summary := some "Fetches the orders of the day from the old shop" }

theorem strictTightens : lenientPolicy.Tightened strictPolicy where
  http := by decide
  tcp := by decide
  udp := by decide
  publicHttpIn := by decide
  unlistedNexons := by decide
  requireDocumentation := by decide
  sensitiveData := by decide
  blocked id fits := by
    obtain ⟨pattern, member, same | ⟨start, chars, -⟩⟩ := fits
    · rw [List.mem_singleton.mp member] at same
      subst same
      decide
    · rw [List.mem_singleton.mp member] at chars
      exact absurd (congrArg List.getLast? chars) (by simp)
  admitted _ _ allowed listed := by cases listed
  targets := by decide
  maxStages := by decide
  minDocumentationLength := by decide
  sensitive _ := anyFitsMore (List.nil_subset _)

theorem lenientPasses : lenientPolicy.Tightened strictPolicy
    ∧ (strictPolicy.lint legacyStages ["nexon.blocked"]).passed = true
    ∧ (lenientPolicy.lint legacyStages ["nexon.blocked"]).passed = true := by
  have passed : (strictPolicy.lint legacyStages ["nexon.blocked"]).passed = true := by decide
  exact ⟨strictTightens, passed, tightenedPasses strictTightens rfl rfl legacyStages _ passed⟩

end OrgPolicy

end Conduit
