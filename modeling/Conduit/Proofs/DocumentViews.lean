import Conduit.Proofs.JsonMembers
import Conduit.Proofs.ReadDocuments
import Mathlib.Data.Option.Basic

/-! What is read of a document without faults is what stands in it. The normal form that reading goes through differs
from the document only in members that nothing looks at and in the numbers of positions. -/
namespace Conduit

namespace Json

namespace Shape

def Reads (shape : Shape) (v w : Json) : Prop := conform shape v = .ok w

/-! Shapes that leave values as they are. -/

def Keeps (shape : Shape) : Prop := ∀ ⦃v w⦄, shape.Reads v w → w = v

theorem keepsString : Keeps .string := by
  intro v w read
  cases v <;> cases read
  rfl

theorem keepsBool : Keeps .bool := by
  intro v w read
  cases v <;> cases read
  rfl

theorem keepsNatural (width : Width) : Keeps (.natural width) := by
  intro v w read
  have read : readNatural width v = .ok w := read
  unfold readNatural at read
  split at read
  · split at read <;> cases read
    rfl
  · cases read
  · cases read

theorem keepsEither {type : String} {first second : Shape} (one : Keeps first) (other : Keeps second) :
    Keeps (.either type first second) := by
  intro v w read
  rw [Reads, conform] at read
  split at read
  next u admitted =>
    cases read
    exact one admitted
  next =>
    split at read
    next u admitted =>
      cases read
      exact other admitted
    next => cases read

theorem keepsOption {inner : Shape} (keeps : Keeps inner) : Keeps (.option inner) := by
  intro v w read
  by_cases null : v = .null
  · rw [null, Reads, conform] at read
    rw [null, ← Except.ok.inj read]
  · rw [Reads, conformOption null] at read
    exact keeps read

theorem keepsMap : Keeps (.map .any) := by
  intro v w read
  cases v with
  | obj fields =>
    rw [Reads, conformMapAny] at read
    exact (Except.ok.inj read).symm
  | _ => cases read

theorem keepsOutlet : Keeps OutletRef.shape := keepsEither (keepsNatural .u32) keepsString

/-! Members of records. -/

def Passed (shape : Shape) (before after : Option Json) : Prop :=
  before = none ∧ after = none ∨ ∃ v u, before = some v ∧ after = some u ∧ shape.Reads v u

theorem keptSame {shape : Shape} (keeps : Keeps shape) {before after : Option Json}
    (passed : shape.Passed before after) : after = before := by
  obtain ⟨rfl, rfl⟩ | ⟨v, u, rfl, rfl, read⟩ := passed
  · rfl
  · rw [keeps read]

theorem recordObj {name : String} {known : List Field} {fields : Fields} {w : Json}
    (read : (record name known).Reads (.obj fields) w) : ∃ kept, w = .obj kept := by
  rw [Reads, conform] at read
  obtain ⟨kept, -, required⟩ := Outcome.bindOk.mp read
  exact ⟨kept, requiredPresent required⟩

theorem fieldPassed {name : String} {known : List Field} {fields : Fields} {w : Json} {f : Field} (key : String)
    (read : (record name known).Reads (.obj fields) w) (field : known.find? (·.1 = key) = some f) :
    f.2.1.Passed (fields.get? key) (w.field? key) := by
  rw [Reads, conform] at read
  obtain ⟨kept, all, required⟩ := Outcome.bindOk.mp read
  rw [requiredPresent required, field?]
  obtain ⟨present, absent⟩ := keptField all field
  cases found : fields.get? key with
  | none => exact .inl ⟨rfl, absent found⟩
  | some v =>
    obtain ⟨u, here, kept⟩ := present v found
    exact .inr ⟨v, u, rfl, kept, here⟩

theorem keptMember {name : String} {known : List Field} {fields : Fields} {w : Json} {f : Field} (key : String)
    (read : (record name known).Reads (.obj fields) w) (field : known.find? (·.1 = key) = some f)
    (keeps : Keeps f.2.1) : w.member? key = (obj fields).member? key := by
  have same : w.field? key = (obj fields).field? key := keptSame keeps (fieldPassed key read field)
  rw [member?, member?, same]

theorem keptText {name : String} {known : List Field} {fields : Fields} {w : Json} {f : Field} (key absent : String)
    (read : (record name known).Reads (.obj fields) w) (field : known.find? (·.1 = key) = some f)
    (keeps : Keeps f.2.1) : w.textAt key absent = (obj fields).textAt key absent := by
  rw [textAt, textAt, keptMember key read field keeps]

open Document

section

variable {α : Type} {shape : Shape} {fields : Fields} {w : Json} {key : String} {P : Json → Prop}
variable (view : Json → α) (here : Optional fields key P) (each : ∀ v u, P v → shape.Reads v u → view u = view v)
include here each

theorem valueViewed (refused : ∀ u, ¬shape.Reads .null u) (passed : shape.Passed (fields.get? key) (w.field? key)) :
    view (w.valueAt key) = view ((obj fields).valueAt key) := by
  rw [valueAt, valueAt, field?]
  obtain ⟨absent, after⟩ | ⟨v, u, found, after, read⟩ := passed
  · rw [absent, after]
  · rw [found, after]
    rcases here v found with rfl | holds
    · exact absurd read (refused u)
    · exact each v u holds read

theorem memberViewed (some : ∀ v u, P v → shape.Reads v u → v ≠ .null ∧ u ≠ .null)
    (passed : (option shape).Passed (fields.get? key) (w.field? key)) :
    (w.member? key).map view = ((obj fields).member? key).map view := by
  obtain ⟨absent, after⟩ | ⟨v, u, found, after, read⟩ := passed
  · rw [memberNone after, memberNone (v := .obj fields) absent]
  · rcases here v found with rfl | holds
    · rw [Reads, conform] at read
      cases read
      rw [memberNull after, memberNull (v := .obj fields) found]
    · by_cases null : v = .null
      · rw [null, Reads, conform] at read
        cases read
        rw [memberNull after, memberNull (v := .obj fields) (null ▸ found)]
      · have read : shape.Reads v u := by rwa [Reads, conformOption null] at read
        rw [memberOfField after (some v u holds read).2, memberOfField (v := .obj fields) found null, Option.map_some,
          Option.map_some, each v u holds read]

end

theorem listedViewed {α : Type} {view : Json → α} {shape : Shape} {P : Json → Prop} {values us : List Json}
    (each : ∀ v u, P v → shape.Reads v u → view u = view v) (holds : ∀ v ∈ values, P v)
    (all : values.mapM shape.conform = .ok us) : us.map view = values.map view := by
  have rows := Outcome.mapMOk all
  clear all
  induction rows with
  | nil => rfl
  | cons first _ ih =>
    obtain ⟨one, others⟩ := List.forall_mem_cons.mp holds
    rw [List.map_cons, List.map_cons, each _ _ one first, ih others]

theorem itemsViewed {α : Type} {view : Json → α} {shape : Shape} {fields : Fields} {w : Json} {key : String}
    {P : Json → Prop} (here : Optional fields key (Json.IsList P))
    (each : ∀ v u, P v → shape.Reads v u → view u = view v)
    (passed : (list shape).Passed (fields.get? key) (w.field? key)) :
    (w.itemsAt key).map view = ((obj fields).itemsAt key).map view := by
  rw [itemsAt, itemsAt]
  obtain ⟨absent, after⟩ | ⟨v, u, found, after, read⟩ := passed
  · rw [memberNone after, memberNone (v := .obj fields) absent]
  · rcases here v found with rfl | ⟨values, rfl, holds⟩
    · cases read
    · rw [Reads, conform] at read
      obtain ⟨us, all, same⟩ := Outcome.bindOk.mp read
      cases same
      rw [memberOfField after (by simp), memberOfField (v := .obj fields) found (by simp)]
      exact listedViewed each holds all

theorem doubleViewed {fields : Fields} {w : Json} {key : String}
    (passed : double.Passed (fields.get? key) (w.field? key)) : w.doubleAt? key = (obj fields).doubleAt? key := by
  rw [doubleAt?, doubleAt?]
  obtain ⟨absent, after⟩ | ⟨v, u, found, after, read⟩ := passed
  · rw [memberNone after, memberNone (v := .obj fields) absent]
  · cases v with
    | num n =>
      cases read
      rw [memberOfField after (by simp), memberOfField (v := .obj fields) found (by simp)]
      rfl
    | _ => cases read

/-! The records of a document, from the smallest to the whole. -/

section

variable {v w : Json}

theorem positionViewed (outline : v.IsRecord PositionOutline) (read : Position.shape.Reads v w) :
    Position.ofJson w = Position.ofJson v := by
  obtain ⟨fields, rfl, outline⟩ := outline
  rw [Position.ofJson, Position.ofJson, doubleViewed (fieldPassed "x" read rfl),
    doubleViewed (fieldPassed "y" read rfl)]

theorem documentationViewed (outline : v.IsRecord DocumentationOutline) (read : Documentation.shape.Reads v w) :
    Documentation.ofJson w = Documentation.ofJson v := by
  obtain ⟨fields, rfl, -⟩ := outline
  have text : Keeps (.option .string) := keepsOption keepsString
  simp only [Documentation.ofJson, textAt?, keptMember "summary" read rfl text, keptMember "owner" read rfl text,
    keptMember "notes" read rfl text]

theorem securityViewed {P : Fields → Prop} (outline : v.IsRecord P) (read : Security.shape.Reads v w) :
    Security.ofJson w = Security.ofJson v := by
  obtain ⟨fields, rfl, -⟩ := outline
  simp only [Security.ofJson, flagAt, keptMember "allowInternetHttpOut" read rfl keepsBool,
    keptMember "allowInternetTcpOut" read rfl keepsBool,
    keptMember "allowInternetUdpOut" read rfl keepsBool,
    keptMember "allowHttpInFromInternet" read rfl keepsBool]

theorem sourceViewed (outline : v.IsRecord SourceOutline) (read : Edge.sourceShape.Reads v w) :
    w.textAt "stageId" "" = v.textAt "stageId" "" ∧ w.member? "outlet" = v.member? "outlet" := by
  obtain ⟨fields, rfl, -⟩ := outline
  have outlet := keptMember "outlet" read rfl (keepsOption keepsOutlet)
  exact ⟨keptText "stageId" "" read rfl keepsString, outlet⟩

theorem targetEndViewed (outline : v.IsRecord TargetOutline) (read : Edge.targetShape.Reads v w) :
    w.textAt "stageId" "" = v.textAt "stageId" "" ∧ w.natAt? "inlet" = v.natAt? "inlet" := by
  obtain ⟨fields, rfl, -⟩ := outline
  have inlet := keptMember "inlet" read rfl (keepsOption (keepsNatural .u32))
  exact ⟨keptText "stageId" "" read rfl keepsString, by rw [natAt?, natAt?, inlet]⟩

theorem edgeViewed (outline : v.IsRecord EdgeOutline) (read : Edge.reader.shape.Reads v w) :
    Edge.ofJson w = Edge.ofJson v := by
  obtain ⟨fields, rfl, outline⟩ := outline
  have source := valueViewed (fun v => (v.textAt "stageId" "", v.member? "outlet")) (requiredOptional outline.source)
    (fun a b outline read => Prod.ext_iff.mpr (sourceViewed outline read)) (by rintro u ⟨⟩)
    (fieldPassed "from" read rfl)
  have target := valueViewed (fun v => (v.textAt "stageId" "", v.natAt? "inlet")) (requiredOptional outline.target)
    (fun a b outline read => Prod.ext_iff.mpr (targetEndViewed outline read)) (by rintro u ⟨⟩)
    (fieldPassed "to" read rfl)
  obtain ⟨left, outlet⟩ := Prod.ext_iff.mp source
  obtain ⟨entered, inlet⟩ := Prod.ext_iff.mp target
  simp only at left outlet entered inlet
  simp only [Edge.ofJson, keptText "id" "" read rfl keepsString, left, outlet, entered, inlet]

theorem stageViewed (outline : v.IsRecord StageOutline) (read : Stage.shape.Reads v w) :
    Stage.ofJson w = Stage.ofJson v := by
  obtain ⟨fields, rfl, outline⟩ := outline
  have text : Keeps (.option .string) := keepsOption keepsString
  have position := memberViewed Position.ofJson outline.position (fun a b => positionViewed) ?_
    (fieldPassed "position" read rfl)
  · simp only [Stage.ofJson, textAt?, fieldsAt, keptText "id" "" read rfl keepsString,
      keptMember "title" read rfl text, keptText "nexonId" "" read rfl keepsString,
      keptMember "nexonVersion" read rfl text, keptMember "params" read rfl keepsMap, position]
  · rintro a b ⟨inner, rfl, -⟩ read
    obtain ⟨kept, rfl⟩ := recordObj read
    simp

theorem runtimeViewed (outline : v.IsRecord fun inner => Optional inner "target" Json.IsTarget)
    (read : Channel.runtimeShape.Reads v w) : w.textAt "target" "" = v.textAt "target" "" := by
  obtain ⟨fields, rfl, outline⟩ := outline
  have same : w.field? "target" = (obj fields).field? "target" := by
    obtain ⟨absent, after⟩ | ⟨a, b, found, after, read⟩ := fieldPassed "target" read rfl
    · rw [after, field?, absent]
    · rcases outline a found with rfl | ⟨t, rfl⟩
      · cases read
      · rw [after, field?, found]
        cases t <;> cases read <;> rfl
  rw [textAt, textAt, member?, member?, same]

end

end Shape

end Json

open Json Json.Shape Document

theorem Channel.viewed {document w : Json} (clean : documentIssues document = [])
    (read : Channel.reader.shape.Reads document w) : Channel.ofJson w = Channel.ofJson document := by
  obtain ⟨fields, rfl, outline⟩ := documentIssuesNone.mp clean
  have runtime := valueViewed (fun v => v.textAt "target" "") outline.runtime (fun a b => runtimeViewed)
    (by rintro u ⟨⟩) (fieldPassed "runtime" read rfl)
  have security := valueViewed Security.ofJson outline.security (fun a b => securityViewed)
    (by rintro u ⟨⟩) (fieldPassed "security" read rfl)
  have stages := itemsViewed (requiredOptional outline.stages) (fun a b => stageViewed) (fieldPassed "stages" read rfl)
  have edges := itemsViewed outline.edges (fun a b => edgeViewed) (fieldPassed "edges" read rfl)
  have documentation := memberViewed Documentation.ofJson outline.documentation (fun a b => documentationViewed) ?_
    (fieldPassed "documentation" read rfl)
  · simp only [Channel.ofJson, keptText "version" "1.0" read rfl keepsString,
      keptText "channelId" "" read rfl keepsString, keptText "title" "" read rfl keepsString, runtime, security, stages,
      edges, documentation]
  · rintro a b ⟨inner, rfl, -⟩ read
    obtain ⟨kept, rfl⟩ := recordObj read
    simp

theorem Channel.readViewed {document : Json} {c : Channel} (clean : documentIssues document = [])
    (read : Channel.reader.read document = .ok c) : c = Channel.ofJson document := by
  obtain ⟨w, admitted, same⟩ := Outcome.bindOk.mp read
  cases same
  exact Channel.viewed clean admitted

end Conduit
