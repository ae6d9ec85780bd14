import Conduit.Channel.Validation

/-! What the document of a channel has to it when no fault is found, said without the places of faults. -/
namespace Conduit

/-! Kinds of members. -/

namespace Json

def IsText (v : Json) : Prop := ∃ s, v = .str s

def IsName (v : Json) : Prop := ∃ s, v = .str s ∧ isIdentifier s = true

def IsFilled (v : Json) : Prop := ∃ s, v = .str s ∧ Text.isBlankText s = false

def IsTarget (v : Json) : Prop := ∃ t : Target, v = .str t.name

def IsNumber (v : Json) : Prop := ∃ n, v = .num n

def IsPort (v : Json) : Prop := ∃ n : UInt64, v = .num (.whole n) ∧ n.toNat < 2 ^ 32

def IsRecord (P : Fields → Prop) (v : Json) : Prop := ∃ fields, v = .obj fields ∧ P fields

def IsList (P : Json → Prop) (v : Json) : Prop := ∃ values, v = .arr values ∧ ∀ w ∈ values, P w

end Json

namespace Document

def Required (fields : Fields) (key : String) (P : Json → Prop) : Prop := ∃ v, fields.get? key = some v ∧ P v

def Optional (fields : Fields) (key : String) (P : Json → Prop) : Prop :=
  ∀ v, fields.get? key = some v → v = .null ∨ P v

structure PositionOutline (fields : Fields) : Prop where
  x : Required fields "x" Json.IsNumber
  y : Required fields "y" Json.IsNumber

structure StageOutline (fields : Fields) : Prop where
  id : Required fields "id" Json.IsName
  title : Optional fields "title" Json.IsText
  nexonId : Required fields "nexonId" Json.IsFilled
  nexonVersion : Optional fields "nexonVersion" Json.IsText
  position : Optional fields "position" (Json.IsRecord PositionOutline)
  params : Optional fields "params" (Json.IsRecord fun params => ∀ path, paramFields path params = [])

structure SourceOutline (fields : Fields) : Prop where
  stage : Required fields "stageId" Json.IsName
  outlet : Optional fields "outlet" fun v => v.IsText ∨ v.IsPort

structure TargetOutline (fields : Fields) : Prop where
  stage : Required fields "stageId" Json.IsName
  inlet : Optional fields "inlet" Json.IsPort

structure EdgeOutline (fields : Fields) : Prop where
  id : Required fields "id" Json.IsName
  source : Required fields "from" (Json.IsRecord SourceOutline)
  target : Required fields "to" (Json.IsRecord TargetOutline)

structure DocumentationOutline (fields : Fields) : Prop where
  summary : Optional fields "summary" Json.IsText
  owner : Optional fields "owner" Json.IsText
  notes : Optional fields "notes" Json.IsText

structure RootOutline (fields : Fields) : Prop where
  version : Optional fields "version" Json.IsText
  title : Optional fields "title" Json.IsText
  channelId : Optional fields "channelId" Json.IsName
  runtime : Optional fields "runtime" (Json.IsRecord fun inner => Optional inner "target" Json.IsTarget)
  security : Optional fields "security" (Json.IsRecord fun inner => ∀ f ∈ inner, ∃ b, f.2 = .bool b)
  documentation : Optional fields "documentation" (Json.IsRecord DocumentationOutline)
  stages : Required fields "stages" (Json.IsList (Json.IsRecord StageOutline))
  edges : Optional fields "edges" (Json.IsList (Json.IsRecord EdgeOutline))

/-! One lemma for each kind of check. -/

section

variable {fields : Fields} {key path : String}

theorem optionalTextNone : optionalText fields key path = [] ↔ Optional fields key Json.IsText := by
  unfold optionalText Optional Json.IsText
  cases fields.get? key with
  | none => simp
  | some v => cases v <;> simp [fault]

theorem optionalNameNone : identifier fields key path false = [] ↔ Optional fields key Json.IsName := by
  unfold identifier Optional Json.IsName
  cases fields.get? key with
  | none => simp
  | some v => cases v <;> simp [fault]

theorem requiredNameNone : identifier fields key path true = [] ↔ Required fields key Json.IsName := by
  unfold identifier Required Json.IsName
  cases fields.get? key with
  | none => simp [fault]
  | some v => cases v <;> simp [fault]

theorem objectNone {check : Fields → List DocumentFault} :
    object (fields.get? key) path check = [] ↔ Optional fields key (Json.IsRecord fun inner => check inner = []) := by
  unfold object Optional Json.IsRecord
  cases fields.get? key with
  | none => simp
  | some v => cases v <;> simp [fault]

theorem requiredObjectNone {check : String → Fields → List DocumentFault} :
    requiredObject fields key path check = []
      ↔ Required fields key (Json.IsRecord fun inner => check (under path key) inner = []) := by
  unfold requiredObject Required Json.IsRecord
  cases fields.get? key with
  | none => simp [fault]
  | some v => cases v <;> simp [fault]

theorem requiredOptional {P : Json → Prop} (here : Required fields key P) : Optional fields key P := by
  intro v present
  obtain ⟨w, found, holds⟩ := here
  rw [found] at present
  cases present
  exact .inr holds

theorem optionalOfMap {α : Type} {P : Json → Prop} {o : Option α} {f : α → Json}
    (given : (Json.obj fields).field? key = o.map f) (each : ∀ a, o = some a → P (f a)) : Optional fields key P := by
  intro v found
  obtain ⟨a, here, rfl⟩ := Option.map_eq_some_iff.mp (given.symm.trans found)
  exact .inr (each a here)

theorem requiredCongr {P Q : Json → Prop} (same : ∀ v, P v ↔ Q v) : Required fields key P ↔ Required fields key Q := by
  simp only [Required, same]

theorem optionalCongr {P Q : Json → Prop} (same : ∀ v, P v ↔ Q v) : Optional fields key P ↔ Optional fields key Q := by
  simp only [Optional, same]

theorem recordCongr {P Q : Fields → Prop} (same : ∀ inner, P inner ↔ Q inner) (v : Json) :
    v.IsRecord P ↔ v.IsRecord Q := by
  simp only [Json.IsRecord, same]

end

theorem portIs {v : Json} : isPort v = true ↔ v.IsPort := by
  unfold isPort Json.IsPort
  split
  next n => simp
  next other =>
    simp only [Bool.false_eq_true, false_iff, not_exists]
    rintro n ⟨rfl, -⟩
    exact other n rfl

theorem natPort {n : Nat} (small : n < 2 ^ 32) : (Json.nat n).IsPort := by
  refine ⟨UInt64.ofNat n, rfl, ?_⟩
  rw [UInt64.toNat_ofNat', Nat.mod_eq_of_lt (by omega)]
  exact small

theorem targetIs {s : String} : s = "onprem" ∨ s = "cloud" ↔ (Json.str s).IsTarget := by
  constructor
  · rintro (rfl | rfl)
    · exact ⟨.onprem, rfl⟩
    · exact ⟨.cloud, rfl⟩
  · rintro ⟨t, same⟩
    cases same
    cases t
    · exact .inl rfl
    · exact .inr rfl

/-! Parameters. The same rules are broken at whatever place a value stands. -/

theorem tokenRules (fields : Fields) (path other : String) :
    (token fields path).map (·.rule) = (token fields other).map (·.rule) := by
  simp only [token]
  split
  · rfl
  · rw [List.map_append, List.map_append]
    congr 1
    · cases fields.get? secretKey with
      | none => rfl
      | some v =>
        cases v with
        | str s => cases blank : Text.isBlankText s <;> simp [blank, fault]
        | _ => rfl
    · cases fields.get? exprKey with
      | none => rfl
      | some v =>
        cases v with
        | str source => cases parsed : Expression.parse source <;> simp [parsed, fault]
        | _ => rfl

mutual
theorem paramRules (path other : String) : (v : Json) → (param path v).map (·.rule) = (param other v).map (·.rule)
  | .obj fields => by
    simp only [param]
    split
    · exact tokenRules fields path other
    · exact paramFieldsRules path other fields
  | .arr items => by
    simp only [param]
    exact paramItemsRules path other 0 items
  | .null => rfl
  | .bool _ => rfl
  | .num _ => rfl
  | .str _ => rfl
theorem paramItemsRules (path other : String) (index : Nat) : (items : List Json) →
    (paramItems path index items).map (·.rule) = (paramItems other index items).map (·.rule)
  | [] => rfl
  | v :: rest => by
    simp only [paramItems, List.map_append]
    rw [paramRules _ (item other index) v, paramItemsRules path other (index + 1) rest]
theorem paramFieldsRules (path other : String) : (fields : List (String × Json)) →
    (paramFields path fields).map (·.rule) = (paramFields other fields).map (·.rule)
  | [] => rfl
  | (k, v) :: rest => by
    simp only [paramFields, List.map_append]
    rw [paramRules _ (under other k) v, paramFieldsRules path other rest]
end

theorem paramFieldsNone {path : String} {fields : Fields} :
    paramFields path fields = [] ↔ ∀ other, paramFields other fields = [] := by
  refine ⟨fun none other => ?_, fun none => none path⟩
  have rules := paramFieldsRules path other fields
  rw [none] at rules
  exact List.map_eq_nil_iff.mp rules.symm

/-! The outlines. -/

theorem positionNone {fields : Fields} {path : String} : position path fields = [] ↔ PositionOutline fields := by
  rw [position, List.flatMap_eq_nil_iff]
  refine (forall₂_congr fun axis _ => (?_ : _ ↔ Required fields axis Json.IsNumber)).trans ?_
  · unfold Required Json.IsNumber
    cases fields.get? axis with
    | none => simp [fault]
    | some v => cases v <;> simp [fault]
  · simp only [List.forall_mem_cons, List.not_mem_nil, false_imp_iff, implies_true, and_true]
    exact ⟨fun ⟨x, y⟩ => ⟨x, y⟩, fun ⟨x, y⟩ => ⟨x, y⟩⟩

theorem stageFieldsNone {fields : Fields} {path : String} : stageFields path fields = [] ↔ StageOutline fields := by
  simp only [stageFields, List.append_eq_nil_iff, requiredNameNone, optionalTextNone, objectNone,
    optionalCongr (recordCongr fun _ => positionNone), optionalCongr (recordCongr fun _ => paramFieldsNone)]
  refine (and_congr_left' (and_congr_left'
    (and_congr_right' (c := Required fields "nexonId" Json.IsFilled) ?_))).trans ?_
  · unfold Required Json.IsFilled
    cases fields.get? "nexonId" with
    | none => simp [fault]
    | some v => cases v <;> simp [fault]
  · exact ⟨fun ⟨⟨⟨⟨⟨id, title⟩, version⟩, nexon⟩, place⟩, params⟩ => ⟨id, title, nexon, version, place, params⟩,
      fun ⟨id, title, nexon, version, place, params⟩ => ⟨⟨⟨⟨⟨id, title⟩, version⟩, nexon⟩, place⟩, params⟩⟩

theorem stageNone (path : String) (v : Json) : stage path v = [] ↔ v.IsRecord StageOutline := by
  unfold stage Json.IsRecord
  cases v <;> simp [fault, stageFieldsNone]

theorem edgeSourceNone {fields : Fields} {path : String} : edgeSource path fields = [] ↔ SourceOutline fields := by
  rw [edgeSource, List.append_eq_nil_iff, requiredNameNone]
  refine (and_congr_right' (c := Optional fields "outlet" fun v => v.IsText ∨ v.IsPort) ?_).trans
    ⟨fun ⟨stage, outlet⟩ => ⟨stage, outlet⟩, fun ⟨stage, outlet⟩ => ⟨stage, outlet⟩⟩
  simp only [Optional, Json.IsText, ← portIs]
  cases fields.get? "outlet" with
  | none => simp
  | some v => cases v <;> simp [fault]

theorem edgeTargetNone {fields : Fields} {path : String} : edgeTarget path fields = [] ↔ TargetOutline fields := by
  rw [edgeTarget, List.append_eq_nil_iff, requiredNameNone]
  refine (and_congr_right' (c := Optional fields "inlet" Json.IsPort) ?_).trans
    ⟨fun ⟨stage, inlet⟩ => ⟨stage, inlet⟩, fun ⟨stage, inlet⟩ => ⟨stage, inlet⟩⟩
  simp only [Optional, ← portIs]
  cases fields.get? "inlet" with
  | none => simp
  | some v => cases v <;> simp [fault]

theorem edgeNone (path : String) (v : Json) : edge path v = [] ↔ v.IsRecord EdgeOutline := by
  unfold edge Json.IsRecord
  cases v with
  | obj fields =>
    simp only [List.append_eq_nil_iff, requiredNameNone, requiredObjectNone,
      requiredCongr (recordCongr fun _ => edgeSourceNone), requiredCongr (recordCongr fun _ => edgeTargetNone),
      Json.obj.injEq, exists_eq_left']
    exact ⟨fun ⟨⟨id, source⟩, target⟩ => ⟨id, source, target⟩, fun ⟨id, source, target⟩ => ⟨⟨id, source⟩, target⟩⟩
  | _ => simp [fault]

theorem runtimeNone {fields : Fields} : runtime fields = [] ↔ Optional fields "target" Json.IsTarget := by
  unfold runtime Optional
  cases fields.get? "target" with
  | none => simp
  | some v =>
    cases v with
    | str s =>
      simp only [Option.some.injEq, forall_eq', reduceCtorEq, false_or, ← targetIs]
      split <;> simp_all [fault]
    | _ => simp [fault, Json.IsTarget]

theorem securityNone {fields : Fields} : security fields = [] ↔ ∀ f ∈ fields, ∃ b, f.2 = .bool b := by
  rw [security, List.flatMap_eq_nil_iff]
  refine forall₂_congr fun f _ => ?_
  cases f.2 <;> simp [fault]

theorem documentationNone {fields : Fields} : documentation fields = [] ↔ DocumentationOutline fields := by
  simp only [documentation, List.flatMap_cons, List.flatMap_nil, List.append_nil, List.append_eq_nil_iff,
    optionalTextNone]
  exact ⟨fun ⟨summary, owner, notes⟩ => ⟨summary, owner, notes⟩, fun ⟨summary, owner, notes⟩ => ⟨summary, owner, notes⟩⟩

theorem itemsNone {key : String} {check : String → Json → List DocumentFault} {P : Json → Prop}
    (each : ∀ path v, check path v = [] ↔ P v) (values : List Json) :
    items key check values = [] ↔ ∀ v ∈ values, P v := by
  simp only [items, List.flatMap_eq_nil_iff, each]
  constructor
  · intro all v member
    obtain ⟨index, here⟩ := List.mem_iff_getElem?.mp member
    exact all (v, index) (List.mk_mem_zipIdx_iff_getElem?.mpr here)
  · rintro all ⟨v, index⟩ member
    exact all v (List.mem_of_getElem? (List.mk_mem_zipIdx_iff_getElem?.mp member))

theorem rootNone {fields : Fields} : root fields = [] ↔ RootOutline fields := by
  simp only [root, List.append_eq_nil_iff, optionalTextNone, optionalNameNone, objectNone,
    optionalCongr (recordCongr fun _ => runtimeNone), optionalCongr (recordCongr fun _ => securityNone),
    optionalCongr (recordCongr fun _ => documentationNone)]
  refine (and_congr (and_congr_right' (c := Required fields "stages" (Json.IsList (Json.IsRecord StageOutline))) ?_)
    (?_ : _ ↔ Optional fields "edges" (Json.IsList (Json.IsRecord EdgeOutline)))).trans ?_
  · unfold Required Json.IsList
    cases fields.get? "stages" with
    | none => simp [fault]
    | some v =>
      cases v with
      | arr values =>
        have each : items "stages" stage values = [] ↔ ∀ v ∈ values, v.IsRecord StageOutline :=
          itemsNone stageNone values
        simp [each]
      | _ => simp [fault]
  · unfold Optional Json.IsList
    cases fields.get? "edges" with
    | none => simp
    | some v =>
      cases v with
      | arr values =>
        have each : items "edges" edge values = [] ↔ ∀ v ∈ values, v.IsRecord EdgeOutline :=
          itemsNone edgeNone values
        simp [each]
      | _ => simp [fault]
  · exact ⟨fun ⟨⟨⟨⟨⟨⟨⟨version, title⟩, id⟩, runtime⟩, security⟩, documentation⟩, stages⟩, edges⟩ =>
        ⟨version, title, id, runtime, security, documentation, stages, edges⟩,
      fun ⟨version, title, id, runtime, security, documentation, stages, edges⟩ =>
        ⟨⟨⟨⟨⟨⟨⟨version, title⟩, id⟩, runtime⟩, security⟩, documentation⟩, stages⟩, edges⟩⟩

end Document

theorem documentIssuesNone {document : Json} :
    documentIssues document = [] ↔ document.IsRecord Document.RootOutline := by
  unfold documentIssues Json.IsRecord
  cases document <;> simp [Document.rootNone]

end Conduit
