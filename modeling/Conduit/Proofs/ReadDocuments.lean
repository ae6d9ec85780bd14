import Conduit.Proofs.DocumentOutlines
import Conduit.Proofs.OrderedJson
import Conduit.Proofs.ValidChannels

/-! Reading the document of a channel in which no fault was found. A member with a value of its own for when it is left
out is passed by the outline when it is `null`, but is not read then; nothing else keeps the document from being
read. -/
namespace Conduit.Json

variable {α β : Type}

def Refused (bad : Prop) : Except ReadError α → Prop
  | .ok _ => ¬bad
  | .error e => bad ∧ ∃ expected, e = .invalidType (.value .null) expected

theorem refusedCongr {bad bad' : Prop} {x : Except ReadError α} (same : bad ↔ bad') (refused : Refused bad x) :
    Refused bad' x := by
  cases x with
  | ok a => exact fun held => refused (same.mpr held)
  | error e => exact ⟨same.mp refused.1, refused.2⟩

theorem refusedNot {bad : Prop} {x : Except ReadError α} {a : α} (read : x = .ok a) (fine : ¬bad) : Refused bad x := by
  rw [read]
  exact fine

theorem refusedNull {bad : Prop} {x : Except ReadError α} {expected : String}
    (read : x = .error (.invalidType (.value .null) expected)) (null : bad) : Refused bad x := by
  rw [read]
  exact ⟨null, expected, rfl⟩

theorem refusedThen {bad : Prop} {x : Except ReadError α} {f : α → Except ReadError β} (refused : Refused bad x)
    (later : ∀ a, x = .ok a → ∃ b, f a = .ok b) : Refused bad (x >>= f) := by
  cases x with
  | error e => exact refused
  | ok a =>
    obtain ⟨b, done⟩ := later a rfl
    exact refusedNot done refused

theorem refusedMap {bad : Prop} {x : Except ReadError α} (refused : Refused bad x) (f : α → β) :
    Refused bad (x.map f) := by
  cases x <;> exact refused

theorem refusedMapM {bad : α → Prop} {f : α → Except ReadError β} {items : List α}
    (each : ∀ a ∈ items, Refused (bad a) (f a)) : Refused (∃ a ∈ items, bad a) (items.mapM f) := by
  induction items with
  | nil => exact refusedNot rfl (by simp)
  | cons a rest ih =>
    obtain ⟨here, others⟩ := List.forall_mem_cons.mp each
    rw [List.mapM_cons]
    cases first : f a with
    | error e =>
      rw [first] at here
      exact ⟨⟨a, List.mem_cons_self, here.1⟩, here.2⟩
    | ok b =>
      rw [first] at here
      have later : Refused (∃ a ∈ rest, bad a) (do return b :: (← rest.mapM f)) :=
        refusedThen (ih others) fun bs _ => ⟨b :: bs, rfl⟩
      refine refusedCongr ?_ later
      simp only [List.exists_mem_cons_iff]
      exact (or_iff_right here).symm

theorem refusedFilterMapM {bad : α → Prop} {f : α → Except ReadError (Option β)} {items : List α}
    (each : ∀ a ∈ items, Refused (bad a) (f a)) : Refused (∃ a ∈ items, bad a) (items.filterMapM f) := by
  induction items with
  | nil => exact refusedNot rfl (by simp)
  | cons a rest ih =>
    obtain ⟨here, others⟩ := List.forall_mem_cons.mp each
    rw [List.filterMapM_cons]
    cases first : f a with
    | error e =>
      rw [first] at here
      exact ⟨⟨a, List.mem_cons_self, here.1⟩, here.2⟩
    | ok b =>
      rw [first] at here
      have later : Refused (∃ a ∈ rest, bad a) (do
          match b with
          | none => rest.filterMapM f
          | some b => return b :: (← rest.filterMapM f)) := by
        cases b with
        | none => exact ih others
        | some b => exact refusedThen (ih others) fun bs _ => ⟨b :: bs, rfl⟩
      refine refusedCongr ?_ later
      simp only [List.exists_mem_cons_iff]
      exact (or_iff_right here).symm

namespace Shape

theorem conformFieldUnknown {known : List Field} {name : String} (unknown : known.find? (·.1 = name) = none)
    (v : Json) : conformField known name v = .ok none := by
  induction known with
  | nil => rfl
  | cons f rest ih =>
    obtain ⟨key, shape, needed⟩ := f
    rw [List.find?_cons] at unknown
    split at unknown
    next => cases unknown
    next other =>
      rw [conformField, if_neg (by simpa using other)]
      exact ih unknown

structure FieldRefused (bad : String → Json → Prop) (fields : Fields) (f : Field) : Prop where
  value : ∀ v, fields.get? f.1 = some v → Refused (bad f.1 v) (conform f.2.1 v)
  needed : f.2.2 = true → ∃ v, fields.get? f.1 = some v

theorem membersRefused {known : List Field} {fields : Fields} {bad : String → Json → Prop}
    (ordered : Table.Ordered fields) (each : ∀ f ∈ known, FieldRefused bad fields f) :
    Refused (∃ p ∈ fields, (∃ f ∈ known, f.1 = p.1) ∧ bad p.1 p.2) (fields.filterMapM (keepField known)) := by
  refine refusedFilterMapM fun p member => ?_
  have present := Table.getOfMem ordered member
  cases found : known.find? (·.1 = p.1) with
  | none =>
    rw [keepField, conformFieldUnknown found]
    refine refusedNot rfl ?_
    rintro ⟨⟨f, field, same⟩, -⟩
    exact absurd same (by simpa using List.find?_eq_none.mp found f field)
  | some f =>
    have field := List.mem_of_find?_eq_some found
    have same : f.1 = p.1 := by simpa using List.find?_some found
    rw [keepField, conformFieldFound found]
    have here : Refused (bad p.1 p.2) (conform f.2.1 p.2) := same ▸ (each f field).value p.2 (same ▸ present)
    refine refusedThen (refusedCongr ?_ (refusedMap here some)) fun read _ => ?_
    · exact (and_iff_right ⟨f, field, same⟩).symm
    · cases read <;> exact ⟨_, rfl⟩

theorem nothingMissing {known : List Field} {fields kept : Fields} {bad : String → Json → Prop}
    (each : ∀ f ∈ known, FieldRefused bad fields f) (done : fields.filterMapM (keepField known) = .ok kept) :
    missing known kept = none := by
  rw [missing, Option.map_eq_none_iff, List.find?_eq_none]
  intro f field
  cases isNeeded : f.2.2 with
  | false => simp
  | true =>
    have listed : (known.find? (·.1 = f.1)).isSome := List.find?_isSome.mpr ⟨f, field, by simp⟩
    obtain ⟨g, found⟩ := Option.isSome_iff_exists.mp listed
    obtain ⟨v, present⟩ := (each f field).needed isNeeded
    obtain ⟨w, -, read⟩ := (keptField done found).1 v present
    simp [Table.has, read]

theorem recordRefused {name : String} {known : List Field} {fields : Fields} {bad : String → Json → Prop}
    (ordered : Table.Ordered fields) (each : ∀ f ∈ known, FieldRefused bad fields f) :
    Refused (∃ f ∈ known, ∃ v, fields.get? f.1 = some v ∧ bad f.1 v) (conform (.record name known) (.obj fields)) := by
  have whole : Refused (∃ f ∈ known, ∃ v, fields.get? f.1 = some v ∧ bad f.1 v)
      (fields.filterMapM (keepField known)) := by
    refine refusedCongr ⟨?_, ?_⟩ (membersRefused ordered each)
    · rintro ⟨p, member, ⟨f, field, same⟩, held⟩
      exact ⟨f, field, p.2, same ▸ Table.getOfMem ordered member, same ▸ held⟩
    · rintro ⟨f, field, v, present, held⟩
      exact ⟨(f.1, v), Table.memOfGet present, ⟨f, field, rfl⟩, held⟩
  rw [conform]
  refine refusedThen whole fun kept done => ⟨.obj kept, ?_⟩
  rw [withRequired, nothingMissing each done]

/-! What the members of a document without faults are read as. -/

open Document

section

variable {bad : String → Json → Prop} {fields : Fields} {key : String} {shape : Shape} {P : Json → Prop}

theorem requiredField (here : Required fields key P)
    (each : ∀ v, fields.get? key = some v → P v → Refused (bad key v) (conform shape v)) :
    FieldRefused bad fields (required key shape) := by
  obtain ⟨v, present, holds⟩ := here
  refine ⟨fun w found => ?_, fun _ => ⟨v, present⟩⟩
  rw [required, present] at found
  cases found
  exact each v present holds

theorem defaultField (here : Optional fields key P) (null : Refused (bad key .null) (conform shape .null))
    (each : ∀ v, fields.get? key = some v → P v → Refused (bad key v) (conform shape v)) :
    FieldRefused bad fields (optional key shape) := by
  refine ⟨fun v present => ?_, fun needed => (by cases needed)⟩
  rcases here v present with rfl | holds
  · exact null
  · exact each v present holds

def FieldRead : Fields → Field → Prop := FieldRefused fun _ _ => False

theorem needField (here : Required fields key P) (fine : ∀ v, ¬bad key v)
    (each : ∀ v, fields.get? key = some v → P v → ∃ w, conform shape v = .ok w) :
    FieldRefused bad fields (required key shape) := by
  refine requiredField here fun v present holds => ?_
  obtain ⟨w, read⟩ := each v present holds
  exact refusedNot read (fine v)

theorem conformOption {v : Json} (some : v ≠ .null) : conform (.option shape) v = conform shape v := by
  rw [conform]
  exact some

theorem refusedOption {bad : Prop} {v : Json} (fine : ¬bad) (read : ∃ w, conform shape v = .ok w) :
    Refused bad (conform (.option shape) v) := by
  by_cases null : v = .null
  · exact refusedNot (by rw [null, conform]) fine
  · obtain ⟨w, read⟩ := read
    exact refusedNot (by rw [conformOption null, read]) fine

theorem optionField (here : Optional fields key P) (fine : ∀ v, ¬bad key v)
    (each : ∀ v, fields.get? key = some v → P v → ∃ w, conform shape v = .ok w) :
    FieldRefused bad fields (optional key (.option shape)) :=
  defaultField here (refusedNot (by rw [conform]) (fine .null)) fun v present holds =>
    refusedOption (fine v) (each v present holds)

end

theorem refusedNever {bad : Prop} {x : Except ReadError α} (refused : Refused bad x) (never : ¬bad) :
    ∃ a, x = .ok a := by
  cases x with
  | ok a => exact ⟨a, rfl⟩
  | error e => exact absurd refused.1 never

theorem recordRead {name : String} {known : List Field} {fields : Fields} (ordered : Table.Ordered fields)
    (each : ∀ f ∈ known, FieldRead fields f) : ∃ w, conform (.record name known) (.obj fields) = .ok w :=
  refusedNever (recordRefused ordered each) fun ⟨_, _, _, _, held⟩ => held

theorem nameText {v : Json} (name : v.IsName) : v.IsText := by
  obtain ⟨s, rfl, -⟩ := name
  exact ⟨s, rfl⟩

theorem textRead {v : Json} (text : v.IsText) : ∃ w, conform .string v = .ok w := by
  obtain ⟨s, rfl⟩ := text
  exact ⟨.str s, rfl⟩

theorem nameRead {v : Json} (name : v.IsName) : ∃ w, conform .string v = .ok w := textRead (nameText name)

theorem filledRead {v : Json} (filled : v.IsFilled) : ∃ w, conform .string v = .ok w := by
  obtain ⟨s, rfl, -⟩ := filled
  exact ⟨.str s, rfl⟩

theorem numberRead {v : Json} (number : v.IsNumber) : ∃ w, conform .double v = .ok w := by
  obtain ⟨n, rfl⟩ := number
  exact ⟨_, rfl⟩

theorem portRead {v : Json} (port : v.IsPort) : ∃ w, conform (.natural .u32) v = .ok w := by
  obtain ⟨n, rfl, small⟩ := port
  have within : n.toNat < Width.bound .u32 := small
  exact ⟨_, by rw [conform, readNatural, if_pos within]⟩

theorem outletRead {v : Json} (outlet : v.IsText ∨ v.IsPort) : ∃ w, conform OutletRef.shape v = .ok w := by
  rcases outlet with ⟨s, rfl⟩ | port
  · exact ⟨.str s, rfl⟩
  · obtain ⟨w, read⟩ := portRead port
    exact ⟨w, by rw [OutletRef.shape, conform, read]⟩

theorem conformMapAny (fields : Fields) : conform (.map .any) (.obj fields) = .ok (.obj fields) := by
  have same : (fields.mapM fun f => do return (f.1, ← conform .any f.2) : Except ReadError Fields) = .ok fields := by
    induction fields with
    | nil => rfl
    | cons f rest ih =>
      rw [List.mapM_cons, ih]
      rfl
  rw [conform]
  exact Outcome.bindOk.mpr ⟨fields, same, rfl⟩

/-! Records, from the smallest to the whole. -/

theorem orderedGet {fields : Fields} {key : String} {w : Json} (ordered : (obj fields).Ordered)
    (present : fields.get? key = some w) : w.Ordered := (orderedObj.mp ordered).2 (key, w) (Table.memOfGet present)

section

variable {v : Json} (ordered : v.Ordered)
include ordered

theorem positionRead (outline : v.IsRecord PositionOutline) : ∃ w, conform Position.shape v = .ok w := by
  obtain ⟨fields, rfl, outline⟩ := outline
  refine recordRead (orderedObj.mp ordered).1 ?_
  simp only [List.forall_mem_cons, List.not_mem_nil, false_imp_iff, implies_true, and_true]
  exact ⟨needField outline.x (fun _ => id) fun _ _ => numberRead,
    needField outline.y (fun _ => id) fun _ _ => numberRead⟩

theorem documentationRead (outline : v.IsRecord DocumentationOutline) : ∃ w, conform Documentation.shape v = .ok w := by
  obtain ⟨fields, rfl, outline⟩ := outline
  refine recordRead (orderedObj.mp ordered).1 ?_
  simp only [List.forall_mem_cons, List.not_mem_nil, false_imp_iff, implies_true, and_true]
  exact ⟨optionField outline.summary (fun _ => id) fun _ _ => textRead,
    optionField outline.owner (fun _ => id) fun _ _ => textRead,
    optionField outline.notes (fun _ => id) fun _ _ => textRead⟩

theorem securityRead (outline : v.IsRecord fun inner => ∀ f ∈ inner, ∃ b, f.2 = .bool b) :
    ∃ w, conform Security.shape v = .ok w := by
  obtain ⟨fields, rfl, flags⟩ := outline
  have flag (key : String) : FieldRead fields (optional key .bool) := by
    refine ⟨fun w present => ?_, fun needed => (by cases needed)⟩
    obtain ⟨b, rfl⟩ := flags (key, w) (Table.memOfGet present)
    exact refusedNot rfl id
  refine recordRead (orderedObj.mp ordered).1 ?_
  simp only [List.forall_mem_cons, List.not_mem_nil, false_imp_iff, implies_true, and_true]
  exact ⟨flag _, flag _, flag _, flag _⟩

theorem sourceRead (outline : v.IsRecord SourceOutline) : ∃ w, conform Edge.sourceShape v = .ok w := by
  obtain ⟨fields, rfl, outline⟩ := outline
  refine recordRead (orderedObj.mp ordered).1 ?_
  simp only [List.forall_mem_cons, List.not_mem_nil, false_imp_iff, implies_true, and_true]
  exact ⟨needField outline.stage (fun _ => id) fun _ _ => nameRead,
    optionField outline.outlet (fun _ => id) fun _ _ => outletRead⟩

theorem targetEndRead (outline : v.IsRecord TargetOutline) : ∃ w, conform Edge.targetShape v = .ok w := by
  obtain ⟨fields, rfl, outline⟩ := outline
  refine recordRead (orderedObj.mp ordered).1 ?_
  simp only [List.forall_mem_cons, List.not_mem_nil, false_imp_iff, implies_true, and_true]
  exact ⟨needField outline.stage (fun _ => id) fun _ _ => nameRead,
    optionField outline.inlet (fun _ => id) fun _ _ => portRead⟩

theorem edgeRead (outline : v.IsRecord EdgeOutline) : ∃ w, conform Edge.reader.shape v = .ok w := by
  obtain ⟨fields, rfl, outline⟩ := outline
  refine recordRead (orderedObj.mp ordered).1 ?_
  simp only [List.forall_mem_cons, List.not_mem_nil, false_imp_iff, implies_true, and_true]
  exact ⟨needField outline.id (fun _ => id) fun _ _ => nameRead,
    needField outline.source (fun _ => id) fun _ present => sourceRead (orderedGet ordered present),
    needField outline.target (fun _ => id) fun _ present => targetEndRead (orderedGet ordered present)⟩

theorem stageRefused (outline : v.IsRecord StageOutline) :
    Refused (v.field? "params" = some .null) (conform Stage.shape v) := by
  obtain ⟨fields, rfl, outline⟩ := outline
  have params : FieldRefused (fun key v => key = "params" ∧ v = .null) fields (optional "params" (.map .any)) := by
    refine defaultField outline.params (refusedNull rfl ⟨rfl, rfl⟩) fun w _ given => ?_
    obtain ⟨inner, rfl, -⟩ := given
    exact refusedNot (conformMapAny inner) (by simp)
  have each : ∀ f ∈ [required "id" .string, optional "title" (.option .string), required "nexonId" .string,
      optional "nexonVersion" (.option .string), optional "params" (.map .any),
      optional "position" (.option Position.shape)],
      FieldRefused (fun key v => key = "params" ∧ v = .null) fields f := by
    simp only [List.forall_mem_cons, List.not_mem_nil, false_imp_iff, implies_true, and_true]
    exact ⟨needField outline.id (by simp) fun _ _ => nameRead, optionField outline.title (by simp) fun _ _ => textRead,
      needField outline.nexonId (by simp) fun _ _ => filledRead,
      optionField outline.nexonVersion (by simp) fun _ _ => textRead, params,
      optionField outline.position (by simp) fun _ present => positionRead (orderedGet ordered present)⟩
  refine refusedCongr ?_ (recordRefused (orderedObj.mp ordered).1 each)
  simp [required, optional, field?]

theorem runtimeRefused (outline : v.IsRecord fun inner => Optional inner "target" Json.IsTarget) :
    Refused (v.field? "target" = some .null) (conform Channel.runtimeShape v) := by
  obtain ⟨fields, rfl, target⟩ := outline
  have each : ∀ f ∈ [optional "target" Target.shape],
      FieldRefused (fun key v => key = "target" ∧ v = .null) fields f := by
    refine List.forall_mem_singleton.mpr (defaultField target (refusedNull rfl ⟨rfl, rfl⟩) fun w _ holds => ?_)
    obtain ⟨t, rfl⟩ := holds
    cases t <;> exact refusedNot rfl (by simp)
  refine refusedCongr ?_ (recordRefused (orderedObj.mp ordered).1 each)
  simp [optional, field?]

theorem listRefused {inner : Shape} {P : Json → Prop} {bad : Json → Prop} (outline : v.IsList P)
    (each : ∀ w, w.Ordered → P w → Refused (bad w) (conform inner w)) :
    Refused (∃ items, v = .arr items ∧ ∃ w ∈ items, bad w) (conform (.list inner) v) := by
  obtain ⟨items, rfl, holds⟩ := outline
  have all := refusedMapM fun w member => each w (orderedArr.mp ordered w member) (holds w member)
  rw [conform]
  refine refusedThen (refusedCongr ?_ all) fun ws _ => ⟨.arr ws, rfl⟩
  simp

end

end Shape

end Conduit.Json

namespace Conduit

namespace Document

def defaulted : List String := ["version", "channelId", "title", "runtime", "security", "edges"]

def Nulled (document : Json) : Prop :=
  (∃ key ∈ defaulted, document.field? key = some .null)
    ∨ (∃ runtime, document.field? "runtime" = some runtime ∧ runtime.field? "target" = some .null)
    ∨ ∃ stages, document.field? "stages" = some (.arr stages) ∧ ∃ s ∈ stages, s.field? "params" = some .null

def NulledIn (key : String) (v : Json) : Prop :=
  key ∈ defaulted ∧ v = .null
    ∨ key = "runtime" ∧ v.field? "target" = some .null
    ∨ key = "stages" ∧ ∃ stages, v = .arr stages ∧ ∃ s ∈ stages, s.field? "params" = some .null

theorem nulledIn {fields : Fields} :
    (∃ key v, fields.get? key = some v ∧ NulledIn key v) ↔ Nulled (.obj fields) := by
  constructor
  · rintro ⟨key, v, present, ⟨listed, rfl⟩ | ⟨rfl, target⟩ | ⟨rfl, stages, rfl, some⟩⟩
    · exact .inl ⟨key, listed, present⟩
    · exact .inr (.inl ⟨v, present, target⟩)
    · exact .inr (.inr ⟨stages, present, some⟩)
  · rintro (⟨key, listed, present⟩ | ⟨runtime, present, target⟩ | ⟨stages, present, some⟩)
    · exact ⟨key, .null, present, .inl ⟨listed, rfl⟩⟩
    · exact ⟨"runtime", runtime, present, .inr (.inl ⟨rfl, target⟩)⟩
    · exact ⟨"stages", .arr stages, present, .inr (.inr ⟨rfl, stages, rfl, some⟩)⟩

end Document

open Json Json.Shape Document

theorem Document.textField {fields : Fields} {key : String} {P : Json → Prop} (listed : key ∈ defaulted)
    (optional : Optional fields key P) (text : ∀ v, P v → v.IsText) :
    FieldRefused NulledIn fields (Json.optional key .string) := by
  refine defaultField optional (refusedNull rfl (.inl ⟨listed, rfl⟩)) fun v _ holds => ?_
  obtain ⟨s, rfl⟩ := text v holds
  exact refusedNot rfl (by simp [NulledIn, field?])

theorem Document.runtimeField {fields : Fields} (ordered : (obj fields).Ordered)
    (optional : Optional fields "runtime" (Json.IsRecord fun inner => Optional inner "target" Json.IsTarget)) :
    FieldRefused NulledIn fields (Json.optional "runtime" Channel.runtimeShape) := by
  refine defaultField optional (refusedNull rfl (.inl ⟨by decide, rfl⟩)) fun v present outline => ?_
  refine refusedCongr ?_ (runtimeRefused (orderedGet ordered present) outline)
  obtain ⟨inner, rfl, -⟩ := outline
  simp [NulledIn]

theorem Channel.readRefused {document : Json} (ordered : document.Ordered) (clean : documentIssues document = []) :
    Refused (Nulled document) (conform Channel.reader.shape document) := by
  obtain ⟨fields, rfl, outline⟩ := documentIssuesNone.mp clean
  have each : ∀ f ∈ [optional "version" .string, optional "channelId" .string, optional "title" .string,
      optional "runtime" runtimeShape, optional "security" Security.shape, required "stages" (.list Stage.shape),
      optional "edges" (.list Edge.reader.shape), optional "documentation" (.option Documentation.shape)],
      FieldRefused NulledIn fields f := by
    simp only [List.forall_mem_cons, List.not_mem_nil, false_imp_iff, implies_true, and_true]
    refine ⟨textField (by decide) outline.version fun _ => id,
      textField (by decide) outline.channelId fun _ => nameText, textField (by decide) outline.title fun _ => id,
      runtimeField ordered outline.runtime, ?_, ?_, ?_, ?_⟩
    · refine defaultField outline.security (refusedNull rfl (.inl ⟨by decide, rfl⟩)) fun v present flags => ?_
      obtain ⟨w, read⟩ := securityRead (orderedGet ordered present) flags
      obtain ⟨inner, rfl, -⟩ := flags
      exact refusedNot read (by simp [NulledIn])
    · refine requiredField outline.stages fun v present stages => ?_
      refine refusedCongr ?_ (listRefused (orderedGet ordered present) stages fun _ => stageRefused)
      obtain ⟨values, rfl, -⟩ := stages
      simp [NulledIn]
    · refine defaultField outline.edges (refusedNull rfl (.inl ⟨by decide, rfl⟩)) fun v present edges => ?_
      have each (w : Json) (ordered : w.Ordered) (outline : w.IsRecord EdgeOutline) :
          Refused False (conform Edge.reader.shape w) := by
        obtain ⟨u, read⟩ := edgeRead ordered outline
        exact refusedNot read id
      refine refusedCongr ?_ (listRefused (orderedGet ordered present) edges each)
      obtain ⟨values, rfl, -⟩ := edges
      simp [NulledIn]
    · exact optionField outline.documentation (by simp [NulledIn, defaulted]) fun v present =>
        documentationRead (orderedGet ordered present)
  refine refusedCongr ?_ (recordRefused (orderedObj.mp ordered).1 each)
  rw [← nulledIn]
  constructor
  · rintro ⟨f, -, v, present, null⟩
    exact ⟨f.1, v, present, null⟩
  · rintro ⟨key, v, present, null⟩
    have listed : key ∈ "stages" :: defaulted := by
      rcases null with ⟨listed, -⟩ | ⟨rfl, -⟩ | ⟨rfl, -⟩
      · exact List.mem_cons_of_mem _ listed
      · decide
      · decide
    simp only [defaulted, List.mem_cons, List.not_mem_nil, or_false] at listed
    rcases listed with rfl | rfl | rfl | rfl | rfl | rfl | rfl <;> simp [Json.optional, Json.required, present, null]

namespace Channel

theorem unreadableNever {c : Channel} {reason : ReadError} : ChannelIssue.unreadable reason ∉ c.issues :=
  fun member => absurd (issueCodes _ member) (by simp [ChannelIssue.code])

theorem unreadableErrors {document : Json} (clean : documentIssues document = []) {reason : ReadError} :
    .unreadable reason ∈ (validateChannel document).errors ↔ Channel.reader.read document = .error reason := by
  simp only [validateChannel, clean, List.isEmpty_nil, Bool.not_true, Bool.false_eq_true, if_false]
  split
  next other failed => simp [ChannelValidation.ofIssues, ChannelIssue.isError, failed, eq_comm]
  next read success =>
    simp only [ChannelValidation.ofIssues, List.mem_filter, List.mem_append, unreadableNever, or_false, success,
      reduceCtorEq, iff_false, not_and]
    intro listed
    split at listed <;> simp at listed

theorem faultlessRead {document : Json} (ordered : document.Ordered) (clean : documentIssues document = []) :
    ((∃ c, Channel.reader.read document = .ok c) ↔ ¬Nulled document)
      ∧ ((∃ reason, .unreadable reason ∈ (validateChannel document).errors) ↔ Nulled document)
      ∧ ∀ reason, .unreadable reason ∈ (validateChannel document).errors →
        ∃ expected, reason = .invalidType (.value .null) expected := by
  simp only [unreadableErrors clean]
  have refused : Refused (Nulled document) (Channel.reader.read document) :=
    refusedThen (readRefused ordered clean) fun w _ => ⟨Channel.reader.view w, rfl⟩
  cases read : Channel.reader.read document with
  | ok c =>
    rw [read] at refused
    have whole : ¬Nulled document := refused
    simp [whole]
  | error e =>
    rw [read] at refused
    have null := refused.1
    simp [null, refused.2]

def nullParams : Json :=
  .ofPairs [("stages", .arr [.ofPairs [("id", .str "a"), ("nexonId", .str "n"), ("params", .null)]])]

theorem nullParamsUnread : nullParams.Ordered ∧ documentIssues nullParams = [] ∧
    (¬∃ c, Channel.reader.read nullParams = .ok c) ∧
    ∃ reason, .unreadable reason ∈ (validateChannel nullParams).errors := by
  have stage : Json.Ordered (.ofPairs [("id", .str "a"), ("nexonId", .str "n"), ("params", .null)]) :=
    orderedOfPairs (by simp [Ordered])
  have ordered : nullParams.Ordered := orderedOfPairs (by simpa [Ordered, OrderedItems] using stage)
  have clean : documentIssues nullParams = [] := rfl
  have null : Nulled nullParams := .inr (.inr ⟨_, rfl, _, List.mem_cons_self, rfl⟩)
  obtain ⟨read, unread, -⟩ := faultlessRead ordered clean
  exact ⟨ordered, clean, fun some => read.mp some null, unread.mpr null⟩

theorem nullVersionUnread : ¬ ∀ document : Json, document.Ordered → documentIssues document = [] →
    (∃ c, Channel.reader.read document = .ok c)
      ∧ ∀ reason, .unreadable reason ∉ (validateChannel document).errors := by
  intro readable
  have ordered : Json.Ordered (.ofPairs [("stages", .arr []), ("version", .null)]) :=
    orderedOfPairs (by simp [Ordered, OrderedItems])
  obtain ⟨⟨c, read⟩, -⟩ := readable _ ordered rfl
  cases read

end Channel

end Conduit
