import Conduit.Pattern
import Conduit.Proofs.OrderedNexons
import Conduit.Proofs.ShapedText
import Conduit.Proofs.WrittenChannels

/-! The document of a nexon, written down again. What is written of a document that was read is in normal form and says
what the document is, part by part. -/
namespace Conduit

open Json Json.Shape

/-! What a part of a document has about it by having been read. -/

structure Constraints.Read (c : Constraints) : Prop where
  minLength : ∀ n ∈ c.minLength, n < 2 ^ 64
  maxLength : ∀ n ∈ c.maxLength, n < 2 ^ 64

structure ParamDef.Read (d : ParamDef) : Prop where
  default : d.default ≠ some .null
  validation : ∀ c ∈ d.validation, c.Read
  ui : d.ui ≠ some .null

structure TemplateDocument.Read (d : TemplateDocument) : Prop where
  parameters : ∀ defs ∈ d.manifest.parameters, ∀ p ∈ defs, p.2.Read
  nodes : ∀ t ∈ d.nodes, t.Read

theorem Constraints.ofJsonRead (v : Json) : (ofJson v).Read := by
  have small {key : String} : ∀ n ∈ v.natAt? key, n < 2 ^ 64 := by
    intro n given
    obtain ⟨w, -, read⟩ := Option.bind_eq_some_iff.mp given
    unfold asNat? at read
    split at read
    next m =>
      cases read
      exact m.toNat_lt
    next => cases read
  exact ⟨small, small⟩

theorem ParamDef.ofJsonRead (v : Json) : (ofJson v).Read := by
  have filled {key : String} : v.member? key ≠ some .null := by
    unfold member?
    split
    · simp
    next other => exact other
  refine ⟨filled, fun c given => ?_, filled⟩
  obtain ⟨w, -, rfl⟩ := Option.map_eq_some_iff.mp given
  exact Constraints.ofJsonRead w

theorem TemplateDocument.ofJsonRead {v : Json} (ordered : v.Ordered) : (ofJson v).Read := by
  constructor
  · intro defs given p member
    obtain ⟨w, -, rfl⟩ := Option.map_eq_some_iff.mp given
    obtain ⟨f, -, rfl⟩ := List.mem_map.mp member
    exact ParamDef.ofJsonRead f.2
  · intro t member
    obtain ⟨w, item, rfl⟩ := List.mem_map.mp member
    exact NodeTemplate.ofJsonRead (orderedItemsAt ordered w item)

/-! Capabilities. -/

namespace Network

variable (n : Network)

theorem kept : shape.Reads n.toJson n.toJson :=
  keptPairs (by decide) (.cons ⟨rfl, keptFlag _⟩ (.cons ⟨rfl, keptFlag _⟩ (.cons ⟨rfl, keptFlag _⟩
    (.cons ⟨rfl, keptFlag _⟩ .nil))))

theorem sameOfJson : ofJson n.toJson = n := by
  rw [ofJson, flagGiven (fieldOfPairs (by simp) "httpOut"), flagGiven (fieldOfPairs (by simp) "tcpOut"),
    flagGiven (fieldOfPairs (by simp) "udpOut"), flagGiven (fieldOfPairs (by simp) "httpIn")]

end Network

namespace Capabilities

variable (c : Capabilities)

theorem kept : shape.Reads c.toJson c.toJson :=
  keptPairs (by decide) (.cons ⟨rfl, c.network.kept⟩ (.cons ⟨rfl, keptFlag _⟩ (.cons ⟨rfl, keptFlag _⟩ .nil)))

theorem sameOfJson : ofJson c.toJson = c := by
  rw [ofJson, valueGiven (fieldOfPairs (by simp) "network"), c.network.sameOfJson,
    flagGiven (fieldOfPairs (by simp) "filesystem"), flagGiven (fieldOfPairs (by simp) "system")]

end Capabilities

namespace Compatibility

variable (c : Compatibility)

theorem kept : shape.Reads c.toJson c.toJson := by
  have word : ∀ t ∈ c.targets.map Target.name, t ∈ ["onprem", "cloud"] := fun t listed => by
    obtain ⟨target, -, rfl⟩ := List.mem_map.mp listed
    cases target <;> decide
  exact keptSome (by decide) (.cons (fillsUnless (keptMapped fun t listed => keptWord (word t listed)))
    (.cons (fillsMap fun t _ => keptStr t) .nil))

theorem sameOfJson : ofJson c.toJson = c := by
  have targets : c.toJson.textsAt "targets" = c.targets.map Target.name :=
    textsGiven (itemsUnless (fieldOfSome (by simp) "targets") (by simp))
  have names : (c.targets.map Target.name).map Target.ofName = c.targets := by
    rw [List.map_map]
    exact (List.map_congr_left fun t _ => by cases t <;> rfl).trans (List.map_id _)
  rw [ofJson, targets, names, textWritten (memberOfMap (fieldOfSome (by simp) "minEngineVersion") (by simp))]

end Compatibility

/-! Parameters. -/

theorem optionWritten {α : Type} {write : α → Json} {read : Json → α} {o : Option α}
    (back : ∀ a ∈ o, read (write a) = a) : (o.map write).map read = o := by
  cases o with
  | none => rfl
  | some a => exact congrArg some (back a rfl)

namespace Constraints

variable (c : Constraints)

theorem kept : shape.Reads c.toJson c.toJson :=
  keptSome (by decide) (.cons (fillsMap fun d _ => keptReal d) (.cons (fillsMap fun d _ => keptReal d)
    (.cons (fillsMap fun n _ => keptNat n) (.cons (fillsMap fun n _ => keptNat n)
    (.cons (fillsMap fun t _ => keptStr t) (.cons (fillsMap fun vs _ => keptItems.mpr fun _ _ => rfl) .nil))))))

theorem sameOfJson (read : c.Read) : ofJson c.toJson = c := by
  have allowed : (c.toJson.member? "enum").bind asArray? = c.allowed := by
    rw [memberOfMap (fieldOfSome (by simp) "enum") (by simp)]
    cases c.allowed <;> rfl
  rw [ofJson, doubleWritten (fieldOfSome (by simp) "min"), doubleWritten (fieldOfSome (by simp) "max"),
    natWritten (fieldOfSome (by simp) "minLength") read.minLength,
    natWritten (fieldOfSome (by simp) "maxLength") read.maxLength,
    textWritten (memberOfMap (fieldOfSome (by simp) "pattern") (by simp)), allowed]

end Constraints

namespace ParamDef

variable (d : ParamDef)

theorem kept : reader.shape.Reads d.toJson d.toJson := by
  have word : d.type.name ∈ ParamType.all.map ParamType.name := by cases d.type <;> decide
  exact keptSome (by decide) (.cons (fillsSome (keptWord word)) (.cons (fillsSome (keptFlag _))
    (.cons (fillsOption fun _ _ => rfl) (.cons (fillsMap fun c _ => c.kept) (.cons (fillsOption fun _ _ => rfl) .nil)))))

theorem sameOfJson (read : d.Read) : ofJson d.toJson = d := by
  have type : ParamType.ofName d.type.name = d.type := by cases d.type <;> decide
  have validation : (d.toJson.member? "validation").map Constraints.ofJson = d.validation := by
    rw [memberOfMap (fieldOfSome (by simp) "validation") (by simp [Constraints.toJson, ofSome, ofPairs])]
    exact optionWritten fun c given => c.sameOfJson (read.validation c given)
  have default : d.toJson.member? "default" = d.default := memberSame (fieldOfSome (by simp) "default") read.default
  have ui : d.toJson.member? "ui" = d.ui := memberSame (fieldOfSome (by simp) "ui") read.ui
  rw [ofJson, textGiven (fieldOfSome (by simp) "type"), type, flagGiven (fieldOfSome (by simp) "required"), default,
    validation, ui]

end ParamDef

/-! Manifests. -/

namespace Manifest

variable (m : Manifest)

theorem kept : shape.Reads m.toJson m.toJson := by
  have entries (defs : ParamDefs) : ParamDefs.reader.shape.Reads
      (.obj (defs.map fun p => (p.1, p.2.toJson))) (.obj (defs.map fun p => (p.1, p.2.toJson))) :=
    keptEntries.mpr fun p member => by
      obtain ⟨q, -, rfl⟩ := List.mem_map.mp member
      exact q.2.kept
  exact keptSome (by decide) (.cons (fillsSome (keptStr _)) (.cons (fillsSome (keptStr _)) (.cons (fillsSome (keptStr _))
    (.cons (fillsMap fun c _ => c.kept) (.cons (fillsMap fun defs _ => entries defs)
    (.cons (fillsUnless (keptStrings _)) (.cons (fillsMap fun c _ => c.kept) .nil)))))))

theorem sameOfJson (read : ∀ defs ∈ m.parameters, ∀ p ∈ defs, p.2.Read) : ofJson m.toJson = m := by
  have capabilities : (m.toJson.member? "capabilities").map Capabilities.ofJson = m.capabilities := by
    rw [memberOfMap (fieldOfSome (by simp) "capabilities") (by simp [Capabilities.toJson, ofPairs])]
    exact optionWritten fun c _ => c.sameOfJson
  have parameters : (m.toJson.member? "parameters").map ParamDefs.reader.view = m.parameters := by
    rw [memberOfMap (fieldOfSome (by simp) "parameters") (by simp)]
    refine optionWritten fun defs given => ?_
    have same : ∀ p ∈ defs, (p.1, ParamDef.ofJson p.2.toJson) = p := fun p member =>
      congrArg (Prod.mk p.1) (p.2.sameOfJson (read defs given p member))
    have all : (defs.map fun p => (p.1, p.2.toJson)).map (fun f => (f.1, ParamDef.ofJson f.2)) = defs := by
      rw [List.map_map]
      exact (List.map_congr_left same).trans (List.map_id _)
    exact all
  have compatibility : (m.toJson.member? "compatibility").map Compatibility.ofJson = m.compatibility := by
    rw [memberOfMap (fieldOfSome (by simp) "compatibility") (by simp [Compatibility.toJson, ofSome, ofPairs])]
    exact optionWritten fun c _ => c.sameOfJson
  have outlets : m.toJson.textsAt "outlets" = m.outlets :=
    textsGiven (itemsUnless (fieldOfSome (by simp) "outlets") (by simp))
  rw [ofJson, textGiven (fieldOfSome (by simp) "id"), textGiven (fieldOfSome (by simp) "version"),
    textGiven (fieldOfSome (by simp) "title"), capabilities, parameters, outlets, compatibility]

end Manifest

/-! Nodes. -/

namespace NodeTemplate

variable (t : NodeTemplate)

def fixed : List (String × Json) :=
  [("id", .str t.id), ("type", .str t.type)]
    ++ (if t.wires.isEmpty then [] else [("wires", .arr (t.wires.map Json.strings))])

theorem fixedNames : List.Sublist (t.fixed.map (·.1)) (knownFields.map (·.1)) := by
  unfold fixed
  split
  · exact (by decide : List.Sublist ["id", "type"] ["id", "type", "wires"])
  · exact (by decide : List.Sublist ["id", "type", "wires"] ["id", "type", "wires"])

theorem knownName {name : String} : knownFields.any (·.1 = name) = true ↔ name ∈ knownFields.map (·.1) := by
  simp [List.any_eq_true]

theorem fixedKept {p : String × Json} (member : p ∈ t.fixed) {f : Field}
    (found : knownFields.find? (·.1 = p.1) = some f) : f.2.1.Reads p.2 p.2 := by
  have cases : p = ("id", .str t.id) ∨ p = ("type", .str t.type) ∨ p = ("wires", .arr (t.wires.map Json.strings)) := by
    unfold fixed at member
    split at member
    · simp only [List.append_nil, List.mem_cons, List.not_mem_nil, or_false] at member
      exact member.imp_right .inl
    · simpa using member
  rcases cases with rfl | rfl | rfl
  · cases (found : some (Json.optional "id" .string) = some f)
    exact keptStr _
  · cases (found : some (Json.optional "type" .string) = some f)
    exact keptStr _
  · cases (found : some (Json.optional "wires" (.list (.list .string))) = some f)
    exact keptMapped fun texts _ => keptStrings texts

variable {t} (read : t.Read)
include read

theorem propertyUnknown {p : String × Json} (property : p ∈ t.properties) :
    knownFields.find? (·.1 = p.1) = none := by
  refine List.find?_eq_none.mpr fun f known same => ?_
  exact read.others p property (List.mem_map.mpr ⟨f, known, by simpa using same⟩)

theorem distinct : ((t.fixed ++ t.properties).map (·.1)).Nodup := by
  have fixed : (t.fixed.map (·.1)).Nodup := t.fixedNames.nodup (by decide)
  have properties : (t.properties.map (·.1)).Nodup :=
    List.pairwise_map.mpr (read.ordered.imp fun less => String.ne_of_lt less)
  rw [List.map_append]
  refine List.nodup_append.mpr ⟨fixed, properties, ?_⟩
  rintro name first _ second rfl
  obtain ⟨f, among, rfl⟩ := List.mem_map.mp second
  exact read.others f among (t.fixedNames.subset first)

theorem kept : shape.Reads t.toJson t.toJson := by
  refine keptOpen.mpr fun p member f found => ?_
  have among : p ∈ t.fixed ++ t.properties := Table.memOfList member
  rcases List.mem_append.mp among with first | property
  · exact t.fixedKept first found
  · rw [propertyUnknown read property] at found
    cases found

theorem sameOfJson : ofJson t.toJson = t := by
  have given (key : String) : t.toJson.field? key = Table.get? (t.fixed ++ t.properties) key :=
    fieldOfPairs (distinct read) key
  have wires : t.toJson.itemsAt "wires" = t.wires.map Json.strings := by
    refine itemsUnless ((given "wires").trans ?_) (by simp : t.wires.isEmpty = true → _)
    unfold fixed
    split
    · have wired : "wires" ∈ knownFields.map (·.1) := by decide
      have absent : Table.get? t.properties "wires" = none :=
        Option.eq_none_iff_forall_ne_some.mpr fun v found => read.others _ (Table.memOfGet found) wired
      exact absent
    · rfl
  have ports : (t.wires.map Json.strings).map (fun port => (port.asArray?.getD []).filterMap asString?) = t.wires := by
    refine mapBack fun texts _ => ?_
    exact (List.filterMap_map ..).trans List.filterMap_some
  have properties : (t.toJson.asObject?.getD []).filter (fun f => !(knownFields.any (·.1 = f.1))) = t.properties := by
    have fixed : t.fixed.filter (fun f => !(knownFields.any (·.1 = f.1))) = [] := by
      refine List.filter_eq_nil_iff.mpr fun p member => ?_
      simp [knownName.mpr (t.fixedNames.subset (List.mem_map.mpr ⟨p, member, rfl⟩))]
    have others : t.properties.filter (fun f => !(knownFields.any (·.1 = f.1))) = t.properties := by
      refine List.filter_eq_self.mpr fun p member => ?_
      simp [Bool.eq_false_iff.mpr fun known => read.others p member (knownName.mp known)]
    have all := Table.filterOfList (fun name => !(knownFields.any (·.1 = name))) (t.fixed ++ t.properties)
    rw [List.filter_append, fixed, others, List.nil_append, Table.ofListSame read.ordered] at all
    exact all
  rw [ofJson, textGiven (given "id"), textGiven (given "type"), wires, ports, properties]

end NodeTemplate

/-! Documents. -/

namespace TemplateDocument

variable {d : TemplateDocument} (read : d.Read)
include read

theorem kept : reader.shape.Reads d.toJson d.toJson :=
  keptSome (by decide) (.cons (fillsSome d.manifest.kept)
    (.cons (fillsSome (keptMapped fun t member => NodeTemplate.kept (read.nodes t member)))
    (.cons (fillsMap fun t _ => keptStr t) .nil)))

theorem sameOfJson : ofJson d.toJson = d := by
  have nodes : (d.toJson.itemsAt "template").map NodeTemplate.ofJson = d.nodes := by
    rw [itemsGiven (fieldOfSome (by simp) "template")]
    exact mapBack fun t member => NodeTemplate.sameOfJson (read.nodes t member)
  rw [ofJson, valueGiven (fieldOfSome (by simp) "manifest"), d.manifest.sameOfJson read.parameters, nodes,
    textWritten (memberOfMap (fieldOfSome (by simp) "checksum") (by simp))]

end TemplateDocument

/-! What is written has no more levels than what was read, if that has a few. -/

section

variable {n : Nat} {v : Json}

theorem Network.toJsonWithin (w : Network) : w.toJson.Within (n + 1) :=
  withinPairs (List.forall_mem_cons.mpr ⟨withinBool n _, List.forall_mem_cons.mpr ⟨withinBool n _,
    List.forall_mem_cons.mpr ⟨withinBool n _, List.forall_mem_singleton.mpr (withinBool n _)⟩⟩⟩)

theorem Capabilities.toJsonWithin (c : Capabilities) : c.toJson.Within (n + 2) :=
  withinPairs (List.forall_mem_cons.mpr ⟨c.network.toJsonWithin, List.forall_mem_cons.mpr ⟨withinBool _ _,
    List.forall_mem_singleton.mpr (withinBool _ _)⟩⟩)

theorem withinUnless {b : Bool} {w : Json} (within : w.Within n) :
    ∀ v, (if b then none else some w) = some v → v.Within n := by
  intro v given
  split at given
  · cases given
  · exact Option.some.inj given ▸ within

theorem withinGiven {w : Json} (within : w.Within n) : ∀ v, some w = some v → v.Within n :=
  fun _ given => Option.some.inj given ▸ within

theorem Compatibility.toJsonWithin (c : Compatibility) : c.toJson.Within (n + 2) :=
  withinSome (List.forall_mem_cons.mpr ⟨withinUnless (withinStrings n _),
    List.forall_mem_singleton.mpr (withinText c.minEngineVersion)⟩)

theorem withinObject (within : v.Within (n + 1)) :
    Table.Ordered (v.asObject?.getD []) ∧ ∀ p ∈ v.asObject?.getD [], p.2.Within n := by
  cases v with
  | obj fields => exact withinFields.mp within
  | _ => exact ⟨List.Pairwise.nil, List.forall_mem_nil _⟩

theorem Constraints.toJsonWithin (within : v.Within (n + 2)) : (ofJson v).toJson.Within (n + 2) := by
  have number (d : Double) : (Json.num (.real d)).Within (n + 1) := ⟨trivial, Nat.zero_le _⟩
  have allowed : ∀ vs ∈ (ofJson v).allowed, (Json.arr vs).Within (n + 1) := by
    intro vs given
    obtain ⟨w, found, items⟩ := Option.bind_eq_some_iff.mp given
    cases w with
    | arr ws =>
      cases items
      exact withinMember within found
    | _ => cases items
  refine withinSome ?_
  simp only [List.forall_mem_cons]
  exact ⟨withinMap fun d _ => number d, withinMap fun d _ => number d, withinMap fun m _ => withinNat _ m,
    withinMap fun m _ => withinNat _ m, withinText _, withinMap allowed, List.forall_mem_nil _⟩

theorem ParamDef.toJsonWithin (within : v.Within (n + 3)) : (ofJson v).toJson.Within (n + 3) := by
  refine withinSome ?_
  simp only [List.forall_mem_cons]
  refine ⟨withinGiven (withinStr _ _), withinGiven (withinBool _ _), fun w given => withinMember within given,
    withinMap fun c given => ?_, fun w given => withinMember within given, List.forall_mem_nil _⟩
  obtain ⟨w, found, rfl⟩ := Option.map_eq_some_iff.mp given
  exact Constraints.toJsonWithin (withinMember within found)

theorem Manifest.toJsonWithin (within : v.Within (n + 5)) : (ofJson v).toJson.Within (n + 5) := by
  have parameters : ∀ defs ∈ (ofJson v).parameters,
      (Json.obj (defs.map fun p => (p.1, p.2.toJson))).Within (n + 4) := by
    intro defs given
    obtain ⟨w, found, rfl⟩ := Option.map_eq_some_iff.mp given
    obtain ⟨ordered, each⟩ := withinObject (withinMember within found)
    have same : (ParamDefs.reader.view w).map (fun p => (p.1, p.2.toJson))
        = (w.asObject?.getD []).map fun f => (f.1, (ParamDef.ofJson f.2).toJson) := List.map_map
    rw [same]
    exact withinTable ordered fun f member => ParamDef.toJsonWithin (each f member)
  refine withinSome ?_
  simp only [List.forall_mem_cons]
  exact ⟨withinGiven (withinStr _ _), withinGiven (withinStr _ _), withinGiven (withinStr _ _),
    withinMap fun c _ => c.toJsonWithin, withinMap parameters, withinUnless (withinStrings _ _),
    withinMap fun c _ => c.toJsonWithin, List.forall_mem_nil _⟩

theorem NodeTemplate.toJsonWithin (within : v.Within (n + 3)) : (ofJson v).toJson.Within (n + 3) := by
  refine withinPairs fun p member => ?_
  rcases List.mem_append.mp member with first | property
  · rcases List.mem_append.mp first with text | wires
    · simp only [List.mem_cons, List.not_mem_nil, or_false] at text
      rcases text with rfl | rfl <;> exact withinStr _ _
    · split at wires
      · cases wires
      · cases List.mem_singleton.mp wires
        refine withinArr fun port listed => ?_
        obtain ⟨texts, -, rfl⟩ := List.mem_map.mp listed
        exact withinStrings n texts
  · exact (withinObject within).2 p (List.mem_filter.mp property).1

theorem TemplateDocument.toJsonWithin (within : v.Within (n + 6)) (checksum : Option String) :
    { ofJson v with checksum }.toJson.Within (n + 6) := by
  have nodes : (Json.arr ((ofJson v).nodes.map NodeTemplate.toJson)).Within (n + 5) := withinArr fun w member => by
    obtain ⟨t, node, rfl⟩ := List.mem_map.mp member
    obtain ⟨u, item, rfl⟩ := List.mem_map.mp node
    exact NodeTemplate.toJsonWithin (withinItemsAt within u item)
  refine withinSome ?_
  simp only [List.forall_mem_cons]
  exact ⟨withinGiven (Manifest.toJsonWithin (withinValueAt within)), withinGiven nodes, withinText _,
    List.forall_mem_nil _⟩

end

/-! Documents that are exported. -/

namespace TemplateDocument

def FromJson (d : TemplateDocument) : Prop :=
  (∃ v : Json, v.Ordered ∧ reader.read v = .ok d) ∨ ∃ text, reader.parse text = .ok d

def sealed (d : TemplateDocument) : TemplateDocument := { d with checksum := some d.computedChecksum }

variable {d : TemplateDocument}

theorem fromRead (given : d.FromJson) : d.Read := by
  rcases given with ⟨v, ordered, read⟩ | ⟨text, read⟩
  · obtain ⟨w, ordered, rfl⟩ := Reader.readOrdered ordered read
    exact ofJsonRead ordered
  · obtain ⟨w, ordered, rfl⟩ := Reader.parseOrdered read
    exact ofJsonRead ordered

theorem readBack (read : d.Read) : reader.read d.toJson = .ok d :=
  Outcome.bindOk.mpr ⟨d.toJson, kept read, congrArg Except.ok (sameOfJson read)⟩

theorem textReadBack (read : d.Read) (readable : d.toJson.Readable) {text : String} (written : d.toJson.TextOf text) :
    reader.parse text = .ok d := by
  rw [Reader.textRead (kept read) readable (by decide) written]
  exact congrArg Except.ok (sameOfJson read)

theorem parsedReadable {text : String} (parsed : reader.parse text = .ok d) (checksum : Option String) :
    { d with checksum }.toJson.Readable := by
  obtain ⟨w, within, rfl⟩ := Reader.parseWithin parsed
  exact @toJsonWithin 121 w within checksum

theorem sealedAdmitted [Regex] (s : Resolver) (r : NexonRequest) (kind : SourceKind)
    (locator key expected actual : String) :
    s.admission r kind ⟨d.sealed, locator⟩ ≠ .error (.checksumMismatch key expected actual) := by
  have holds : d.sealed.checksumHolds = true := by
    rw [checksumHolds, sealed, Option.all_some]
    exact decide_eq_true rfl
  simp only [Resolver.admission, holds]
  split
  next wrong => exact absurd wrong (by decide)
  next => split <;> simp

/-- A document that was read from JSON is read back as it is, with its checksum and its report, from what is written of
it: from the value always, from a text of it whenever it is not too deep for a text, as none is that was read from one.
So is the document with the checksum computed of it, which no resolver finds to be another than the document's own. -/
theorem exportReadBack [Regex] (given : d.FromJson) :
    (∀ e, e = d ∨ e = d.sealed → reader.read e.toJson = .ok e ∧
      (e.toJson.Readable → ∀ text, e.toJson.TextOf text → reader.parse text = .ok e)) ∧
    ((∃ text, reader.parse text = .ok d) → d.toJson.Readable ∧ d.sealed.toJson.Readable) ∧
    d.sealed.computedChecksum = d.computedChecksum ∧ d.sealed.report = d.report ∧
    ∀ (s : Resolver) (r : NexonRequest) (kind : SourceKind) (locator key expected actual : String),
      s.admission r kind ⟨d.sealed, locator⟩ ≠ .error (.checksumMismatch key expected actual) := by
  have read := fromRead given
  have sealedRead : d.sealed.Read := ⟨read.parameters, read.nodes⟩
  refine ⟨fun e same => ?_, fun ⟨text, parsed⟩ => ?_, rfl, rfl, sealedAdmitted⟩
  · have read : e.Read := by rcases same with rfl | rfl <;> assumption
    exact ⟨readBack read, fun readable text written => textReadBack read readable written⟩
  · exact ⟨parsedReadable parsed d.checksum, parsedReadable parsed _⟩

def boundedDocument : Json :=
  .ofPairs
    [("manifest", .ofPairs [("id", .str "n"), ("version", .str "1.0.0"), ("title", .str "t"), ("capabilities", .ofPairs []),
      ("parameters", .ofPairs [("p", .ofPairs [("validation", .ofPairs [("min", .nat 1)])])])]),
     ("template", .arr [.ofPairs [("id", .str "a"), ("type", .str "function"), ("func", .str "f")]])]

attribute [local instance] Pattern.engine in
theorem boundedReadBack : ∃ d, reader.parse boundedDocument.compact = .ok d ∧ d.FromJson ∧ d.report.valid = true ∧
    d.toJson.compact ≠ boundedDocument.compact ∧ reader.parse d.toJson.compact = .ok d ∧
    reader.parse d.sealed.toJson.compact = .ok d.sealed := by
  have passed : (reader.parse boundedDocument.compact).toOption.any fun d =>
      d.report.valid && d.toJson.compact ≠ boundedDocument.compact := by decide +kernel
  obtain ⟨d, parsed, checks⟩ := Outcome.okOfAny passed
  obtain ⟨valid, other⟩ := Bool.and_eq_true_iff.mp checks
  have given : d.FromJson := .inr ⟨_, parsed⟩
  obtain ⟨back, shallow, -⟩ := exportReadBack given
  obtain ⟨readable, sealedReadable⟩ := shallow ⟨_, parsed⟩
  exact ⟨d, parsed, given, valid, of_decide_eq_true other,
    (back d (.inl rfl)).2 readable _ (textOrdered readable.1).1,
    (back d.sealed (.inr rfl)).2 sealedReadable _ (textOrdered sealedReadable.1).1⟩

end TemplateDocument

end Conduit
