import Conduit.Compilation.Compiler
import Conduit.Proofs.BundleSizes
import Conduit.Proofs.JsonMembers
import Conduit.Proofs.Outcomes
import Conduit.Proofs.ValidChannels

/-! What a compilation reports. It comes to one of four ends, and its errors, its product and its parts agree on
which of them it was. -/
namespace Conduit

/-! The report as it is written. -/

structure Compilation.Written (r : Compilation) : Prop where
  success : (r.report true).field? "success" = some (.bool r.success)
  errors : ((r.report true).field? "errors").isSome = !r.errors.isEmpty
  lint : ((r.report true).field? "policyLint").isSome = r.lint.isSome
  product : ∀ name ∈ ["bundle", "hashes", "metadata"], ((r.report true).field? name).isSome = r.success

theorem Compilation.reportWritten (r : Compilation) : r.Written := by
  constructor
  case success =>
    rw [report, Json.fieldOfSome (by simp)]
    simp [Table.getCons]
  case errors =>
    rw [report, Json.fieldOfSome (by simp)]
    simp only [Table.getCons, String.reduceEq, if_false, if_true]
    show (if r.errors.isEmpty then none else some (Json.arr _)).isSome = _
    cases r.errors <;> rfl
  case lint =>
    rw [report, Json.fieldOfSome (by simp)]
    simp [Table.getCons]
  case product =>
    simp only [List.forall_mem_cons, List.not_mem_nil, false_imp_iff, implies_true, and_true]
    refine ⟨?_, ?_, ?_⟩ <;> rw [report, Json.fieldOfSome (by simp)] <;> simp [Table.getCons, success]

/-! The ends of a compilation. -/

def CompileIssue.violation? : CompileIssue → Option Violation
  | .policy violation => some violation
  | _ => none

theorem CompileIssue.violationsOf (violations : List Violation) :
    (violations.map CompileIssue.policy).filterMap violation? = violations := by
  rw [List.filterMap_map]
  exact List.filterMap_some

theorem CompileIssue.noViolations {α : Type} {issue : α → CompileIssue} (other : ∀ a, (issue a).violation? = none)
    (items : List α) : (items.map issue).filterMap violation? = [] := by
  rw [List.filterMap_map]
  exact List.filterMap_eq_nil_iff.mpr fun a _ => other a

def TaskEnd.stage : TaskEnd → CompileStage
  | .aborted _ => .internal
  | _ => .bundle

namespace Compiler

def generation [Regex] (c : Compiler) (run : BuildRun) (channel : Channel) : Generation :=
  (channel.generate (c.generationOptions run) c.sources run.clock c.resolver).1

theorem lintPassed (l : LintResult) : l.passed = true ↔ lintErrors l = [] := by
  simp [LintResult.passed, lintErrors, List.filter_eq_nil_iff]

theorem passedBlocking {l : LintResult} (passed : l.passed = true) :
    l.violations.filter (fun v => v.severity = .error && !v.acknowledged) = [] :=
  List.map_eq_nil_iff.mp ((lintPassed l).mp passed)

theorem lintWarningsViolations (l : LintResult) :
    (lintWarnings l).filterMap (·.violation?)
      = l.violations.filter fun v => v.severity = .warning || v.severity = .error && v.acknowledged := by
  rw [lintWarnings, CompileIssue.violationsOf]
  refine List.filter_congr fun v _ => ?_
  rw [Violation.blocks]
  cases v.severity <;> simp

theorem warningsViolations (issues : List ChannelIssue) (l : LintResult) (flow : List FlowIssue) :
    (issues.map CompileIssue.validation ++ lintWarnings l ++ flow.map CompileIssue.generation).filterMap (·.violation?)
      = l.violations.filter fun v => v.severity = .warning || v.severity = .error && v.acknowledged := by
  rw [List.filterMap_append, List.filterMap_append, lintWarningsViolations,
    CompileIssue.noViolations (fun _ => rfl), CompileIssue.noViolations (fun _ => rfl), List.nil_append, List.append_nil]

theorem bundlingStage {c : Compiler} {run : BuildRun} {a : Artifacts} {failure : BundlingFailure}
    (failed : c.bundling run a = .error failure) : failure.stage = run.bundling.stage := by
  simp only [bundling] at failed
  split at failed
  next finished =>
    rw [finished]
    cases made : Bundle.ofArtifacts a (c.bundleOptions run) with
    | ok bundle => simp [made] at failed
    | error reason =>
      simp only [made, Outcome.mapErrorFailed, Except.error.injEq] at failed
      rw [← failed]
      rfl
  next late =>
    cases failed
    rw [late]
    rfl
  next reason aborted =>
    cases failed
    rw [aborted]
    rfl

theorem bundledMade {c : Compiler} {run : BuildRun} {a : Artifacts} {b : Bundle} (made : c.bundling run a = .ok b) :
    Bundle.ofArtifacts a (c.bundleOptions run) = .ok b := by
  simp only [bundling] at made
  split at made
  · exact Outcome.mapErrorOk.mp made
  · cases made
  · cases made

section

variable [Regex] (c : Compiler) (request : CompileRequest) (run : BuildRun)

inductive Ends : Compilation → Prop
  | invalid (invalid : (validateChannel request.channel).channel = none) :
    Ends { buildId := run.buildId, validation := validateChannel request.channel
           warnings := (validateChannel request.channel).warnings.map .validation
           errors := (validateChannel request.channel).errors.map .validation }
  | blocked {channel : Channel} (valid : (validateChannel request.channel).channel = some channel)
    (blocked : (c.lint channel request.orgId request.acknowledged).passed = false) :
    Ends { buildId := run.buildId, validation := validateChannel request.channel
           lint := some (c.lint channel request.orgId request.acknowledged)
           warnings := (validateChannel request.channel).warnings.map .validation
             ++ lintWarnings (c.lint channel request.orgId request.acknowledged)
           errors := lintErrors (c.lint channel request.orgId request.acknowledged) }
  | unbundled {channel : Channel} {failure : BundlingFailure}
    (valid : (validateChannel request.channel).channel = some channel)
    (passed : (c.lint channel request.orgId request.acknowledged).passed = true)
    (failed : c.bundling run (c.generation run channel).artifacts = .error failure) :
    Ends { buildId := run.buildId, validation := validateChannel request.channel
           lint := some (c.lint channel request.orgId request.acknowledged)
           warnings := (validateChannel request.channel).warnings.map .validation
             ++ lintWarnings (c.lint channel request.orgId request.acknowledged)
             ++ (c.generation run channel).warnings.map .generation
           errors := [.bundling failure] }
  | bundled {channel : Channel} {bundle : Bundle}
    (valid : (validateChannel request.channel).channel = some channel)
    (passed : (c.lint channel request.orgId request.acknowledged).passed = true)
    (made : c.bundling run (c.generation run channel).artifacts = .ok bundle) :
    Ends { buildId := run.buildId, validation := validateChannel request.channel
           lint := some (c.lint channel request.orgId request.acknowledged)
           warnings := (validateChannel request.channel).warnings.map .validation
             ++ lintWarnings (c.lint channel request.orgId request.acknowledged)
             ++ (c.generation run channel).warnings.map .generation
           product := some ⟨(c.generation run channel).artifacts, bundle⟩ }

theorem compileEnds : Ends c request run (c.compile request run).1 := by
  simp only [compile]
  split
  next invalid => exact .invalid invalid
  next channel valid =>
    simp only [build]
    split
    next blocked => exact .blocked valid (by simpa using blocked)
    next passed =>
      have passed : (c.lint channel request.orgId request.acknowledged).passed = true := by simpa using passed
      simp only [bundled]
      split
      next bundle made => exact .bundled valid passed made
      next failure failed => exact .unbundled valid passed failed

theorem compilerAfter : (c.compile request run).2 = c ∨ ∃ channel : Channel, (c.compile request run).2
    = { c with resolver := (Channel.findNexons c.sources run.clock c.resolver channel.stages).2 } := by
  simp only [compile]
  split
  next => exact .inl rfl
  next channel _ =>
    simp only [build]
    split
    next => exact .inl rfl
    next => exact .inr ⟨channel, rfl⟩

structure Reported (r : Compilation) : Prop where
  validated : r.validation = validateChannel request.channel
  linted : r.lint = r.validation.channel.map fun channel => c.lint channel request.orgId request.acknowledged
  judged : r.lint.isSome = r.validation.valid
  success : r.success ↔ r.validation.valid ∧ (∃ l, r.lint = some l ∧ l.passed)
    ∧ ∃ channel bundle, r.validation.channel = some channel
      ∧ c.bundling run (c.generation run channel).artifacts = .ok bundle
  made : ∀ p, r.product = some p → ∃ channel, r.validation.channel = some channel
    ∧ p.artifacts = (c.generation run channel).artifacts ∧ c.bundling run p.artifacts = .ok p.bundle
  errors : r.errors = [] ↔ r.success
  invalid : r.validation.valid = false → ∀ e ∈ r.errors, e.stage = .validate
  blocked : ∀ l, r.lint = some l → l.passed = false → ∀ e ∈ r.errors, e.stage = .lint
  unbundled : ∀ l, r.lint = some l → l.passed → ∀ e ∈ r.errors, e.stage = run.bundling.stage
  blocking : ∀ l, r.lint = some l →
    r.errors.filterMap (·.violation?) = l.violations.filter fun v => v.severity = .error && !v.acknowledged
  tolerated : ∀ l, r.lint = some l →
    r.warnings.filterMap (·.violation?)
      = l.violations.filter fun v => v.severity = .warning || v.severity = .error && v.acknowledged

variable {c request run} {r : Compilation}

theorem endsLinted (ends : Ends c request run r) :
    r.validation = validateChannel request.channel
      ∧ r.lint = r.validation.channel.map (fun channel => c.lint channel request.orgId request.acknowledged)
      ∧ r.lint.isSome = r.validation.valid := by
  cases ends with
  | invalid invalid => exact ⟨rfl, by rw [invalid]; rfl, (ChannelValidation.invalidOfNone invalid).symm⟩
  | blocked valid _ => exact ⟨rfl, by rw [valid]; rfl, (ChannelValidation.validOfSome valid).symm⟩
  | unbundled valid _ _ => exact ⟨rfl, by rw [valid]; rfl, (ChannelValidation.validOfSome valid).symm⟩
  | bundled valid _ _ => exact ⟨rfl, by rw [valid]; rfl, (ChannelValidation.validOfSome valid).symm⟩

theorem endsMade (ends : Ends c request run r) {p : Product} (product : r.product = some p) :
    ∃ channel, r.validation.channel = some channel
      ∧ p.artifacts = (c.generation run channel).artifacts ∧ c.bundling run p.artifacts = .ok p.bundle := by
  cases ends with
  | invalid _ => cases product
  | blocked _ _ => cases product
  | unbundled _ _ _ => cases product
  | @bundled channel bundle valid _ made =>
    cases product
    exact ⟨channel, valid, rfl, made⟩

theorem endsSuccess (ends : Ends c request run r) :
    r.success ↔ r.validation.valid ∧ (∃ l, r.lint = some l ∧ l.passed)
      ∧ ∃ channel bundle, r.validation.channel = some channel
        ∧ c.bundling run (c.generation run channel).artifacts = .ok bundle := by
  cases ends with
  | invalid invalid => simp [Compilation.success, ChannelValidation.invalidOfNone invalid]
  | blocked _ blocked => simp [Compilation.success, blocked]
  | unbundled valid _ failed =>
    refine iff_of_false (by simp [Compilation.success]) ?_
    rintro ⟨-, -, other, bundle, same, made⟩
    cases valid.symm.trans same
    rw [failed] at made
    cases made
  | @bundled channel bundle valid passed made =>
    exact iff_of_true rfl ⟨ChannelValidation.validOfSome valid, ⟨_, rfl, passed⟩, channel, bundle, valid, made⟩

theorem endsErrors (ends : Ends c request run r) : r.errors = [] ↔ r.success := by
  cases ends with
  | invalid invalid =>
    have errors : (validateChannel request.channel).errors ≠ [] := fun none => by
      have refused := ChannelValidation.invalidOfNone invalid
      rw [(validatedErrors request.channel).mpr none] at refused
      cases refused
    simpa [Compilation.success] using errors
  | blocked _ blocked => simpa [Compilation.success] using (lintPassed _).not.mp (by simp [blocked])
  | unbundled _ _ _ => simp [Compilation.success]
  | bundled _ _ _ => simp [Compilation.success]

/-! The stage of what went wrong, by how far a compilation came. -/

theorem endsInvalid (ends : Ends c request run r) (refused : r.validation.valid = false) :
    ∀ e ∈ r.errors, e.stage = .validate := by
  cases ends with
  | invalid _ =>
    intro e member
    obtain ⟨issue, -, rfl⟩ := List.mem_map.mp member
    rfl
  | blocked valid _ => cases (ChannelValidation.validOfSome valid).symm.trans refused
  | unbundled valid _ _ => cases (ChannelValidation.validOfSome valid).symm.trans refused
  | bundled valid _ _ => cases (ChannelValidation.validOfSome valid).symm.trans refused

theorem endsBlocked (ends : Ends c request run r) {l : LintResult} (linted : r.lint = some l)
    (refused : l.passed = false) : ∀ e ∈ r.errors, e.stage = .lint := by
  cases ends with
  | invalid _ => cases linted
  | blocked _ _ =>
    intro e member
    obtain ⟨v, -, rfl⟩ := List.mem_map.mp member
    rfl
  | unbundled _ passed _ =>
    cases linted
    cases passed.symm.trans refused
  | bundled _ passed _ =>
    cases linted
    cases passed.symm.trans refused

theorem endsUnbundled (ends : Ends c request run r) {l : LintResult} (linted : r.lint = some l) (passed : l.passed) :
    ∀ e ∈ r.errors, e.stage = run.bundling.stage := by
  cases ends with
  | invalid _ => cases linted
  | blocked _ blocked =>
    cases linted
    cases blocked.symm.trans passed
  | unbundled _ _ failed => exact List.forall_mem_singleton.mpr (bundlingStage failed)
  | bundled _ _ _ => exact List.forall_mem_nil _

/-! The violations of the policy, which are errors or warnings of the report. -/

theorem endsBlocking (ends : Ends c request run r) {l : LintResult} (linted : r.lint = some l) :
    r.errors.filterMap (·.violation?) = l.violations.filter fun v => v.severity = .error && !v.acknowledged := by
  cases ends with
  | invalid _ => cases linted
  | blocked _ _ =>
    cases linted
    exact CompileIssue.violationsOf _
  | unbundled _ passed _ =>
    cases linted
    exact (passedBlocking passed).symm
  | bundled _ passed _ =>
    cases linted
    exact (passedBlocking passed).symm

theorem endsTolerated (ends : Ends c request run r) {l : LintResult} (linted : r.lint = some l) :
    r.warnings.filterMap (·.violation?)
      = l.violations.filter fun v => v.severity = .warning || v.severity = .error && v.acknowledged := by
  cases ends with
  | invalid _ => cases linted
  | blocked _ _ =>
    cases linted
    rw [List.filterMap_append, CompileIssue.noViolations (fun _ => rfl), List.nil_append, lintWarningsViolations]
  | unbundled _ _ _ =>
    cases linted
    exact warningsViolations _ _ _
  | bundled _ _ _ =>
    cases linted
    exact warningsViolations _ _ _

theorem reportedEnds (ends : Ends c request run r) : Reported c request run r where
  validated := (endsLinted ends).1
  linted := (endsLinted ends).2.1
  judged := (endsLinted ends).2.2
  success := endsSuccess ends
  made _ := endsMade ends
  errors := endsErrors ends
  invalid := endsInvalid ends
  blocked _ := endsBlocked ends
  unbundled _ := endsUnbundled ends
  blocking _ := endsBlocking ends
  tolerated _ := endsTolerated ends

theorem endsFinished {channel : Channel} (valid : (validateChannel request.channel).channel = some channel)
    (passed : (c.lint channel request.orgId request.acknowledged).passed) (finished : run.bundling = .finished)
    (ends : Ends c request run r) :
    ∃ p, r.product = some p ∧ p.artifacts = (c.generation run channel).artifacts
      ∧ r.warnings = (validateChannel request.channel).warnings.map .validation
          ++ lintWarnings (c.lint channel request.orgId request.acknowledged)
          ++ (c.generation run channel).warnings.map .generation := by
  cases ends with
  | invalid none =>
    rw [none] at valid
    cases valid
  | blocked same blocked =>
    cases valid.symm.trans same
    rw [passed] at blocked
    cases blocked
  | unbundled same _ failed =>
    cases valid.symm.trans same
    obtain ⟨bundle, made⟩ := Bundle.ofArtifactsSome (c.generation run channel).artifacts (c.bundleOptions run)
    rw [bundling, finished] at failed
    simp only [made, Outcome.mapErrorPassed] at failed
    cases failed
  | bundled same _ _ =>
    cases valid.symm.trans same
    exact ⟨_, rfl, rfl, rfl⟩

theorem compileReported (c : Compiler) (request : CompileRequest) (run : BuildRun) :
    Reported c request run (c.compile request run).1 ∧ (c.compile request run).1.Written :=
  ⟨reportedEnds (compileEnds c request run), Compilation.reportWritten _⟩

end

end Compiler

end Conduit
