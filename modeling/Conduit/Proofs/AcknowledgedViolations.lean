import Conduit.Policy.Lint
import Conduit.Proofs.RuleTable
import Conduit.Proofs.ValidDocuments

/-! Acknowledging the violations that block a channel. Their ids are what an acknowledgement reads them as, each of
them names one violation, and just those that were named stop blocking. -/
namespace Conduit

/-! Ids that were given. -/

theorem memFirstOfEach {seen ids : List String} {id : String} :
    id ∈ firstOfEach seen ids ↔ id ∈ ids ∧ id ∉ seen := by
  induction ids generalizing seen with
  | nil => simp [firstOfEach]
  | cons first rest ih =>
    simp only [firstOfEach, List.contains_iff_mem]
    split
    next known =>
      rw [ih]
      grind
    next new =>
      rw [List.mem_cons, ih]
      grind

theorem firstOfEachNodup (seen ids : List String) : (firstOfEach seen ids).Nodup := by
  induction ids generalizing seen with
  | nil => exact List.nodup_nil
  | cons first rest ih =>
    simp only [firstOfEach]
    split
    · exact ih seen
    · refine List.nodup_cons.mpr ⟨fun later => ?_, ih _⟩
      exact (memFirstOfEach.mp later).2 List.mem_cons_self

theorem trimmedVisible {s : String} (visible : ∀ c ∈ s.toList, Text.isBlank c = false) : Text.trimmed s = s := by
  have start {cs : List Char} (visible : ∀ c ∈ cs, Text.isBlank c = false) : cs.dropWhile Text.isBlank = cs := by
    cases cs with
    | nil => rfl
    | cons c rest => rw [List.dropWhile_cons_of_neg (by simp [visible c List.mem_cons_self])]
  rw [Text.trimmed, Text.trim, Text.trimStart, Text.trimEnd, start visible,
    start fun c member => visible c (List.mem_reverse.mp member), List.reverse_reverse, String.ofList_toList]

/-! Ids of violations. -/

namespace PolicyRule

theorem idChars (rule : PolicyRule) : ∀ c ∈ rule.id.toList, Text.isBlank c = false ∧ c ≠ ':' := by
  have all : rule.id.toList.all (fun c => !Text.isBlank c && c ≠ ':') = true := by cases rule <;> rfl
  simpa using all

theorem idInjective {a b : PolicyRule} (same : a.id = b.id) : a = b := by
  have distinct : (all.map id).Nodup := by decide
  exact List.inj_on_of_nodup_map distinct (everyRule a) (everyRule b) same

theorem brokenApart {c : Channel} {p : OrgPolicy} {rule : PolicyRule} {s : Stage} (broken : rule.broken c p = true) :
    rule.brokenBy c p s = false := by
  cases rule <;> first | rfl | cases broken

end PolicyRule

namespace Violation

theorem stageIdChars (rule : PolicyRule) (stage : String) :
    (idOf rule (some stage)).toList = rule.id.toList ++ ':' :: stage.toList := by
  show (rule.id ++ ":" ++ stage).toList = _
  simp

theorem idOfRule {rule other : PolicyRule} {stage : Option String} (same : idOf rule stage = other.id) :
    rule = other ∧ stage = none := by
  cases stage with
  | none => exact ⟨PolicyRule.idInjective same, rfl⟩
  | some stage =>
    have mark : ':' ∈ other.id.toList := by rw [← same, stageIdChars]; simp
    exact absurd rfl (other.idChars _ mark).2

theorem idFilled (rule : PolicyRule) (stage : Option String) : idOf rule stage ≠ "" := by
  cases stage with
  | none => cases rule <;> decide
  | some stage =>
    intro empty
    have chars := stageIdChars rule stage
    rw [empty] at chars
    exact absurd chars.symm (by simp)

theorem idTrimmed (rule : PolicyRule) {stage : Option String} (plain : ∀ s ∈ stage, isIdentifier s = true) :
    Text.trimmed (idOf rule stage) = idOf rule stage := by
  refine trimmedVisible ?_
  cases stage with
  | none => exact fun c member => (rule.idChars c member).1
  | some stage =>
    rw [stageIdChars]
    have visible : ∀ c ∈ stage.toList, Text.isBlank c = false := fun c member => by
      rcases (identifierIff.mp (plain stage rfl)).plain c member with letter | sign
      · exact alphanumVisible letter
      · simp only [List.mem_cons, List.not_mem_nil, or_false] at sign
        rcases sign with rfl | rfl | rfl <;> rfl
    exact List.forall_mem_append.mpr ⟨fun c member => (rule.idChars c member).1,
      List.forall_mem_cons.mpr ⟨rfl, visible⟩⟩

def unmarked (v : Violation) : Violation := { v with acknowledged := false }

def marked (given : List String) (v : Violation) : Violation :=
  { v with acknowledged := OrgPolicy.covers given v.rule v.stage }

end Violation

def LintResult.blockingIds (r : LintResult) : List String := (r.violations.filter (·.blocks)).map (·.id)

namespace OrgPolicy

variable {p : OrgPolicy} {c : Channel} {given others : List String}

theorem lintMarked (p : OrgPolicy) (c : Channel) (given others : List String) :
    (p.lint c given).violations = (p.lint c others).violations.map (Violation.marked given) := by
  simp only [lint, List.map_flatMap]
  refine List.flatMap_congr fun rule _ => ?_
  simp only [violationsOf]
  split
  · rfl
  · rw [List.map_map]
    rfl

theorem lintUnmarked (p : OrgPolicy) (c : Channel) (given others : List String) :
    (p.lint c given).violations.map Violation.unmarked = (p.lint c others).violations.map Violation.unmarked := by
  rw [lintMarked p c given others, List.map_map]
  rfl

theorem memMarked {v : Violation} (member : v ∈ (p.lint c given).violations) :
    v.acknowledged = covers given v.rule v.stage := by
  obtain ⟨rule, severity, place, -, -, rfl⟩ := violationSource member
  rfl

theorem stageListed {v : Violation} (member : v ∈ (p.lint c given).violations) :
    (v.stage = none ∧ v.rule.broken c p = true)
      ∨ ∃ s ∈ c.stages, v.stage = some s.id ∧ v.rule.brokenBy c p s = true := by
  obtain ⟨rule, severity, place, -, broken, rfl⟩ := violationSource member
  rw [PolicyRule.placesBroken, List.mem_filter] at broken
  obtain ⟨among, broken⟩ := broken
  rcases List.mem_cons.mp among with rfl | among
  · exact .inl ⟨rfl, broken⟩
  · obtain ⟨s, stage, rfl⟩ := List.mem_map.mp among
    exact .inr ⟨s, stage, rfl, broken⟩

theorem passedMarked (given : List String) : (p.lint c others).passed = true ↔ ∀ v ∈ (p.lint c given).violations,
    v.severity = .error → covers others v.rule v.stage = true := by
  rw [passedIff, lintMarked p c others given]
  simp [Violation.marked]

theorem memBlocking {id : String} : id ∈ (p.lint c given).blockingIds ↔
    ∃ v ∈ (p.lint c given).violations, v.severity = .error ∧ v.acknowledged = false ∧ v.id = id := by
  simp [LintResult.blockingIds, Violation.blocks, and_assoc]

theorem blockingTrimmed (identifiers : ∀ s ∈ c.stages, isIdentifier s.id = true) {id : String}
    (blocking : id ∈ (p.lint c given).blockingIds) : Text.trimmed id = id := by
  obtain ⟨v, member, -, -, rfl⟩ := memBlocking.mp blocking
  refine Violation.idTrimmed v.rule fun stage listed => ?_
  rcases stageListed member with ⟨none, -⟩ | ⟨s, among, some, -⟩
  · rw [none] at listed
    cases listed
  · cases some.symm.trans listed
    exact identifiers s among

theorem blockingRule {v : Violation} {id : String} (member : v ∈ (p.lint c given).violations)
    (blocking : id ∈ (p.lint c given).blockingIds) (covers : id = v.id ∨ id = v.rule.id) : id = v.id := by
  refine covers.elim (fun same => same) fun rule => ?_
  obtain ⟨w, other, -, -, rfl⟩ := memBlocking.mp blocking
  obtain ⟨same, none⟩ := Violation.idOfRule rule
  have broken : v.rule.broken c p = true := by
    rcases stageListed other with ⟨-, broken⟩ | ⟨s, -, some, -⟩
    · exact same ▸ broken
    · rw [none] at some
      cases some
  rcases stageListed member with ⟨nowhere, -⟩ | ⟨s, -, -, inside⟩
  · rw [Violation.id, Violation.id, same, none, nowhere]
  · rw [PolicyRule.brokenApart broken] at inside
    cases inside

variable {ids : List String}

theorem acknowledgedPasses (identifiers : ∀ s ∈ c.stages, isIdentifier s.id = true)
    (all : ∀ id ∈ (p.lint c given).blockingIds, id ∈ ids) : (p.lint c (given ++ ids)).passed = true := by
  refine (passedMarked given).mpr fun v member severe => coversIff.mpr ?_
  cases before : v.acknowledged with
  | true =>
    rw [memMarked member] at before
    obtain ⟨a, among, covers⟩ := coversIff.mp before
    exact ⟨a, List.mem_append_left _ among, covers⟩
  | false =>
    have blocking : v.id ∈ (p.lint c given).blockingIds := memBlocking.mpr ⟨v, member, severe, before, rfl⟩
    exact ⟨v.id, List.mem_append_right _ (all _ blocking), .inl (blockingTrimmed identifiers blocking)⟩

theorem omittedFails (identifiers : ∀ s ∈ c.stages, isIdentifier s.id = true) {id : String}
    (only : ∀ other ∈ ids, other ∈ (p.lint c given).blockingIds) (omitted : id ∉ ids)
    (blocking : id ∈ (p.lint c given).blockingIds) : (p.lint c (given ++ ids)).passed = false := by
  obtain ⟨v, member, severe, unacknowledged, rfl⟩ := memBlocking.mp blocking
  rw [memMarked member] at unacknowledged
  refine Bool.eq_false_iff.mpr fun passed => ?_
  obtain ⟨a, among, covers⟩ := coversIff.mp ((passedMarked given).mp passed v member severe)
  rcases List.mem_append.mp among with before | now
  · rw [coversIff.mpr ⟨a, before, covers⟩] at unacknowledged
    cases unacknowledged
  · rw [blockingTrimmed identifiers (only a now)] at covers
    exact omitted (blockingRule member (only a now) covers ▸ now)

end OrgPolicy

namespace AcknowledgeRequest

theorem accepted {r : AcknowledgeRequest} (reason : Text.isBlankText r.reason = false)
    (channel : Text.isBlankText r.channelId = false) (user : Text.isBlankText r.userId = false)
    (some : ∃ id ∈ r.violationIds.map Text.trimmed, id ≠ "") :
    ∃ ids, r.accept = .ok ids ∧ ids.Nodup ∧ ∀ id, id ∈ ids ↔ id ∈ r.violationIds.map Text.trimmed ∧ id ≠ "" := by
  have members : ∀ id, id ∈ firstOfEach [] ((r.violationIds.map Text.trimmed).filter (· ≠ ""))
      ↔ id ∈ r.violationIds.map Text.trimmed ∧ id ≠ "" := fun id => by
    rw [memFirstOfEach, List.mem_filter]
    simp
  refine ⟨_, ?_, firstOfEachNodup _ _, members⟩
  obtain ⟨id, asked⟩ := some
  have filled := List.isEmpty_eq_false_iff.mpr (List.ne_nil_of_mem ((members id).mpr asked))
  rw [accept, reason, channel, user]
  simp only [Bool.or_false, Bool.false_eq_true, if_false, filled]

end AcknowledgeRequest

namespace OrgPolicy

/-- The ids of what blocks a channel, however they are ordered, repeated and set apart by blanks, are accepted, each
once. Acknowledged together they let the channel pass with the same violations, and none of them can be left out. -/
theorem blockingAcknowledged {document : Json} {c : Channel} (valid : (validateChannel document).channel = some c)
    (p : OrgPolicy) (given : List String) (r : AcknowledgeRequest) (reason : Text.isBlankText r.reason = false)
    (channel : Text.isBlankText r.channelId = false) (user : Text.isBlankText r.userId = false)
    (blocked : (p.lint c given).blockingIds ≠ [])
    (asked : ∀ id, id ∈ r.violationIds.map Text.trimmed ↔ id ∈ (p.lint c given).blockingIds) :
    ∃ ids, r.accept = .ok ids ∧ ids.Nodup ∧ (∀ id, id ∈ ids ↔ id ∈ (p.lint c given).blockingIds)
      ∧ (p.lint c (given ++ ids)).passed = true
      ∧ (p.lint c (given ++ ids)).violations.map Violation.unmarked
        = (p.lint c given).violations.map Violation.unmarked
      ∧ ∀ id ∈ ids, (p.lint c (given ++ ids.erase id)).passed = false := by
  have identifiers := Channel.stageIdentifiers valid
  obtain ⟨first, blocking⟩ := List.exists_mem_of_ne_nil _ blocked
  have filled : ∀ id ∈ (p.lint c given).blockingIds, id ≠ "" := fun id blocking => by
    obtain ⟨v, -, -, -, rfl⟩ := memBlocking.mp blocking
    exact Violation.idFilled v.rule v.stage
  obtain ⟨ids, accepted, distinct, members⟩ := AcknowledgeRequest.accepted reason channel user
    ⟨first, (asked first).mpr blocking, filled first blocking⟩
  have same : ∀ id, id ∈ ids ↔ id ∈ (p.lint c given).blockingIds := fun id => by
    rw [members, asked]
    exact and_iff_left_of_imp (filled id)
  refine ⟨ids, accepted, distinct, same, ?_, lintUnmarked p c _ given, fun id named => ?_⟩
  · exact acknowledgedPasses identifiers fun id => (same id).mpr
  · refine omittedFails identifiers (fun other left => (same other).mp (List.mem_of_mem_erase left)) ?_ ((same id).mp named)
    exact distinct.not_mem_erase

def legacyDocument : Json :=
  .ofPairs [("channelId", .str "c"), ("security", .ofPairs [("allowInternetTcpOut", .bool true)]), ("stages", .arr
    [.ofPairs [("id", .str "a"), ("nexonId", .str "legacy-ftp")],
     .ofPairs [("id", .str "b"), ("nexonId", .str "legacy-smb")]])]

def legacyChannel : Channel where
  channelId := "c"
  title := "c"
  security := { tcpOut := true }
  stages := [{ id := "a", nexonId := "legacy-ftp" }, { id := "b", nexonId := "legacy-smb" }]

def legacyPolicy : OrgPolicy := { blockedNexons := ["legacy-*"] }

def legacyRequest : AcknowledgeRequest :=
  ⟨"c", "u", [" nexon.blocked:b", "security.internet-tcp-out\n", "nexon.blocked:b"], "moved next quarter"⟩

set_option maxRecDepth 4000 in
theorem legacyAcknowledged : (validateChannel legacyDocument).channel = some legacyChannel
    ∧ (legacyPolicy.lint legacyChannel ["nexon.blocked:a"]).blockingIds = ["security.internet-tcp-out", "nexon.blocked:b"]
    ∧ ∃ ids, legacyRequest.accept = .ok ids ∧ ids.Nodup ∧ "nexon.blocked:b" ∈ ids
      ∧ (legacyPolicy.lint legacyChannel ("nexon.blocked:a" :: ids)).passed = true
      ∧ (legacyPolicy.lint legacyChannel ("nexon.blocked:a" :: ids.erase "nexon.blocked:b")).passed = false := by
  have valid : (validateChannel legacyDocument).channel = some legacyChannel := rfl
  have blocked : (legacyPolicy.lint legacyChannel ["nexon.blocked:a"]).blockingIds
      = ["security.internet-tcp-out", "nexon.blocked:b"] := by decide
  have asked : legacyRequest.violationIds.map Text.trimmed
      = ["nexon.blocked:b", "security.internet-tcp-out", "nexon.blocked:b"] := by decide
  obtain ⟨ids, accepted, distinct, members, passed, -, needed⟩ := blockingAcknowledged valid legacyPolicy
    ["nexon.blocked:a"] legacyRequest (by decide) (by decide) (by decide) (by simp [blocked]) (by
      rw [asked, blocked]
      simp [or_comm])
  have named : "nexon.blocked:b" ∈ ids := (members _).mpr (by simp [blocked])
  exact ⟨valid, blocked, ids, accepted, distinct, named, passed, needed _ named⟩

end OrgPolicy

end Conduit
