import Conduit.Channel.Validation
import Conduit.Proofs.Outcomes
import Conduit.Proofs.Tables
import Mathlib.Data.List.Nodup

/-! What a channel that is valid has about it. -/
namespace Conduit

/-! Fields of records. -/

namespace Json.Shape

theorem conformFieldFound {known : List Field} {name : String} {f : Field} (found : known.find? (·.1 = name) = some f)
    (v : Json) : conformField known name v = (conform f.2.1 v).map some := by
  induction known with
  | nil => cases found
  | cons g rest ih =>
    obtain ⟨key, shape, needed⟩ := g
    rw [conformField]
    by_cases same : key = name
    · rw [List.find?_cons_of_pos (by simpa using same)] at found
      cases found
      rw [if_pos same]
      cases conform shape v <;> rfl
    · rw [List.find?_cons_of_neg (by simpa using same)] at found
      rw [if_neg same]
      exact ih found

def keepField (known : List Field) (p : String × Json) : Except ReadError (Option (String × Json)) := do
  match ← conformField known p.1 p.2 with
  | some v => return some (p.1, v)
  | none => return none

theorem keptField {known : List Field} {fields kept : Fields} {key : String} {f : Field}
    (all : fields.filterMapM (keepField known) = .ok kept) (field : known.find? (·.1 = key) = some f) :
    (∀ v, fields.get? key = some v → ∃ w, conform f.2.1 v = .ok w ∧ kept.get? key = some w)
      ∧ (fields.get? key = none → kept.get? key = none) := by
  induction fields generalizing kept with
  | nil =>
    cases all
    exact ⟨fun v present => (by cases present), fun _ => rfl⟩
  | cons p rest ih =>
    obtain ⟨k, u⟩ := p
    rw [List.filterMapM_cons] at all
    obtain ⟨one, first, all⟩ := Outcome.bindOk.mp all
    obtain ⟨inner, admitted, first⟩ := Outcome.bindOk.mp first
    rw [Table.getCons]
    split
    next here =>
      subst here
      rw [conformFieldFound field] at admitted
      obtain ⟨w, conformed, some⟩ := Outcome.mapOk.mp admitted
      cases some
      cases first
      obtain ⟨others, -, same⟩ := Outcome.bindOk.mp all
      cases same
      refine ⟨fun v present => ?_, fun absent => (by cases absent)⟩
      cases present
      exact ⟨w, conformed, by rw [Table.getCons, if_pos rfl]⟩
    next other =>
      cases inner with
      | none =>
        cases first
        exact ih all
      | some w =>
        cases first
        obtain ⟨others, later, same⟩ := Outcome.bindOk.mp all
        cases same
        rw [Table.getCons, if_neg other]
        exact ih later

theorem requiredPresent {known : List Field} {present : Fields} {read : Json}
    (required : withRequired known present = .ok read) : read = .obj present := by
  rw [withRequired] at required
  split at required <;> cases required
  rfl

end Json.Shape

/-! Validity. -/

theorem ChannelValidation.ofIssuesSome {given : Option Channel} {issues : List ChannelIssue} {c : Channel}
    (kept : (ofIssues given issues).channel = some c) : given = some c ∧ ∀ i ∈ issues, i.isError = false := by
  simp only [ofIssues] at kept
  split at kept
  next none => exact ⟨kept, by simpa using none⟩
  next => cases kept

theorem documentIssuesErrors (document : Json) : ∀ issue ∈ documentIssues document, issue.isError := by
  intro issue member
  cases document with
  | obj fields =>
    obtain ⟨fault, -, rfl⟩ := List.mem_map.mp member
    rfl
  | _ =>
    cases List.mem_singleton.mp member
    rfl

theorem ChannelValidation.ofErrorsErrors {issues : List ChannelIssue} (some : issues ≠ [])
    (errors : ∀ issue ∈ issues, issue.isError) (channel : Option Channel) :
    (ofIssues channel issues).valid = false ∧ (ofIssues channel issues).errors ≠ [] := by
  have all : issues.filter (·.isError) = issues := List.filter_eq_self.mpr errors
  simp [ofIssues, valid, all, some]

theorem ChannelValidation.validOfSome {v : ChannelValidation} {channel : Channel} (found : v.channel = some channel) :
    v.valid = true := by
  rw [valid, found]
  rfl

theorem ChannelValidation.invalidOfNone {v : ChannelValidation} (none : v.channel = none) : v.valid = false := by
  rw [valid, none]
  rfl

theorem validatedErrors (document : Json) :
    (validateChannel document).valid = true ↔ (validateChannel document).errors = [] := by
  simp only [validateChannel]
  split
  next outline =>
    have some : documentIssues document ≠ [] := by simpa using outline
    have refused := ChannelValidation.ofErrorsErrors some (documentIssuesErrors document) none
    simp [refused]
  next =>
    split
    next reason _ =>
      have refused := ChannelValidation.ofErrorsErrors (List.cons_ne_nil (ChannelIssue.unreadable reason) [])
        (List.forall_mem_singleton.mpr rfl) none
      simp [refused]
    next read _ =>
      simp [ChannelValidation.ofIssues, ChannelValidation.valid]

theorem memRepeated {names : List String} {name : String} : name ∈ repeated names ↔ 1 < names.count name := by
  have fst : (names.filter fun name => 1 < names.count name).map (Prod.fst ∘ fun name => (name, ()))
      = names.filter fun name => 1 < names.count name := List.map_id _
  rw [repeated, Table.namesOfList, List.map_map, fst, List.mem_filter, decide_eq_true_iff]
  exact and_iff_right_of_imp fun twice => List.count_pos_iff.mp (Nat.lt_of_succ_lt twice)

theorem repeatedNone {names : List String} : repeated names = [] ↔ names.Nodup := by
  rw [List.eq_nil_iff_forall_not_mem, List.nodup_iff_count_le_one]
  exact forall_congr' fun name => by rw [memRepeated, Nat.not_lt]

namespace Channel

structure ValidFrom (document : Json) (c : Channel) : Prop where
  read : ∃ read, Channel.reader.read document = .ok read ∧ c = read.named document
  issues : ∀ i ∈ c.issues, i.isError = false

variable {document : Json} {c : Channel}

theorem validFrom (valid : (validateChannel document).channel = some c) : c.ValidFrom document := by
  simp only [validateChannel] at valid
  split at valid
  · cases (ChannelValidation.ofIssuesSome valid).1
  · split at valid
    · cases (ChannelValidation.ofIssuesSome valid).1
    next read success =>
      obtain ⟨same, issues⟩ := ChannelValidation.ofIssuesSome valid
      cases same
      exact ⟨⟨read, success, rfl⟩, fun i member => issues i (List.mem_append_right _ member)⟩

structure Coherent (c : Channel) : Prop where
  stages : c.stageIds.Nodup
  edges : (c.edges.map (·.id)).Nodup
  ends : ∀ e ∈ c.edges, e.source ∈ c.stageIds ∧ e.target ∈ c.stageIds

theorem unknownSource {c : Channel} {i : ChannelIssue} (member : i ∈ c.unknownStages) :
    ∃ index edgeId edgeEnd stage, i = .unknownStage index edgeId edgeEnd stage := by
  obtain ⟨_, -, here⟩ := List.mem_flatMap.mp member
  obtain ⟨_, -, some⟩ := List.mem_filterMap.mp here
  obtain ⟨-, same⟩ := Option.ite_none_left_eq_some.mp some
  exact ⟨_, _, _, _, (Option.some.inj same).symm⟩

theorem issueCodes {c : Channel} : ∀ i ∈ c.issues,
    i.code ∈ ["stage.duplicate-id", "edge.duplicate-id", "edge.unknown-stage", "stage.orphan", "graph.cycle"] := by
  simp only [issues, List.forall_mem_append]
  refine ⟨⟨⟨⟨?_, ?_⟩, ?_⟩, ?_⟩, ?_⟩
  · simp [duplicateStages, ChannelIssue.code]
  · simp [duplicateEdges, ChannelIssue.code]
  · intro i member
    obtain ⟨_, _, _, _, rfl⟩ := unknownSource member
    simp [ChannelIssue.code]
  · unfold orphanStages
    split <;> simp [ChannelIssue.code]
  · simp [cycleIssues, ChannelIssue.code]

theorem unknownNone {c : Channel} :
    c.unknownStages = [] ↔ ∀ e ∈ c.edges, e.source ∈ c.stageIds ∧ e.target ∈ c.stageIds := by
  simp only [unknownStages, List.flatMap_eq_nil_iff, List.filterMap_eq_nil_iff, List.forall_mem_cons, List.not_mem_nil,
    false_imp_iff, implies_true, and_true, ite_eq_left_iff, reduceCtorEq, imp_false, not_not, List.contains_iff_mem,
    Prod.forall]
  constructor
  · intro none e member
    obtain ⟨index, here⟩ := List.mem_iff_getElem?.mp member
    exact none e index (List.mk_mem_zipIdx_iff_getElem?.mpr here)
  · exact fun ends e index here => ends e (List.mem_of_getElem? (List.mk_mem_zipIdx_iff_getElem?.mp here))

theorem errorsNone {c : Channel} : (∀ i ∈ c.issues, i.isError = false) ↔ c.Coherent := by
  have never {issues : List ChannelIssue} (errors : ∀ i ∈ issues, i.isError = true) :
      (∀ i ∈ issues, i.isError = false) ↔ issues = [] := by
    refine ⟨fun none => List.eq_nil_iff_forall_not_mem.mpr fun i member => ?_, fun none => by simp [none]⟩
    exact absurd (errors i member) (by simp [none i member])
  have orphans : ∀ i ∈ c.orphanStages, i.isError = false := by
    unfold orphanStages
    split <;> simp [ChannelIssue.isError]
  have cycles : ∀ i ∈ c.cycleIssues, i.isError = false := by simp [cycleIssues, ChannelIssue.isError]
  simp only [issues, List.forall_mem_append, iff_true_intro orphans, iff_true_intro cycles, and_true]
  rw [never (by simp [duplicateStages, ChannelIssue.isError]), never (by simp [duplicateEdges, ChannelIssue.isError]),
    never ?_, duplicateStages, duplicateEdges, List.map_eq_nil_iff, List.map_eq_nil_iff, repeatedNone, repeatedNone,
    unknownNone]
  · exact ⟨fun ⟨⟨stages, edges⟩, ends⟩ => ⟨stages, edges, ends⟩, fun ⟨stages, edges, ends⟩ => ⟨⟨stages, edges⟩, ends⟩⟩
  · intro i member
    obtain ⟨_, _, _, _, rfl⟩ := unknownSource member
    rfl

theorem ValidFrom.stages (valid : c.ValidFrom document) : c.stageIds.Nodup := (errorsNone.mp valid.issues).stages

theorem ValidFrom.edges (valid : c.ValidFrom document) :
    ∀ e ∈ c.edges, e.source ∈ c.stageIds ∧ e.target ∈ c.stageIds := (errorsNone.mp valid.issues).ends

theorem validOutline (valid : (validateChannel document).channel = some c) :
    documentIssues document = [] := by
  simp only [validateChannel] at valid
  split at valid
  · cases (ChannelValidation.ofIssuesSome valid).1
  next none => simpa using none

end Channel

end Conduit
