import Conduit.Proofs.OrderedValues
import Conduit.Proofs.SoundNexons

/-! Every nexon that a resolver answers with has ordered values: what its sources hold was read from text, and
its cache has only what they gave. -/
namespace Conduit

/-! Documents. -/

def NodeTemplate.Ordered (n : NodeTemplate) : Prop := (Json.obj n.properties).Ordered

def ParamDefs.Ordered (defs : ParamDefs) : Prop := ∀ d ∈ defs, ∀ v ∈ d.2.default, v.Ordered

structure NexonContent.Ordered (c : NexonContent) : Prop where
  defaults : ∀ defs ∈ c.manifest.parameters, ParamDefs.Ordered defs
  nodes : ∀ n ∈ c.nodes, n.Ordered

theorem NodeTemplate.ofJsonOrdered {v : Json} (ordered : v.Ordered) : (ofJson v).Ordered := by
  have fields : (Json.obj (v.asObject?.getD [])).Ordered := by
    cases v with
    | obj fields => exact ordered
    | _ => exact Json.orderedObj.mpr ⟨List.Pairwise.nil, by simp [Json.asObject?]⟩
  obtain ⟨table, values⟩ := Json.orderedObj.mp fields
  exact Json.orderedObj.mpr ⟨table.sublist List.filter_sublist, fun f member => values f (List.mem_filter.mp member).1⟩

theorem ParamDefs.viewOrdered {v : Json} (ordered : v.Ordered) : ParamDefs.Ordered (reader.view v) := by
  intro d member default given
  obtain ⟨f, field, rfl⟩ := List.mem_map.mp member
  cases v with
  | obj fields => exact Json.orderedMember ((Json.orderedObj.mp ordered).2 f field) given
  | _ => simp [Json.asObject?] at field

theorem TemplateDocument.ofJsonOrdered {v : Json} (ordered : v.Ordered) : (ofJson v).content.Ordered := by
  constructor
  · intro defs given
    obtain ⟨w, member, rfl⟩ := Option.map_eq_some_iff.mp given
    exact ParamDefs.viewOrdered (Json.orderedMember (Json.orderedValueAt _ ordered) member)
  · intro n member
    obtain ⟨w, item, rfl⟩ := List.mem_map.mp member
    exact NodeTemplate.ofJsonOrdered (Json.orderedItemsAt ordered w item)

/-! Sources. -/

def NexonSource.Written (source : NexonSource) : Prop :=
  ∀ id version t, source.fetch id version = .found t → ∃ v : Json, v.Ordered ∧ t.document = .ofJson v

def NexonSource.Ordered (source : NexonSource) : Prop :=
  ∀ id version t, source.fetch id version = .found t → t.document.content.Ordered

theorem NexonSource.versionWritten {files : FileTree} {dir version : String} {t : FetchedTemplate}
    (found : readVersion files dir version = .found t) : ∃ v : Json, v.Ordered ∧ t.document = .ofJson v := by
  unfold readVersion at found
  dsimp only at found
  split at found
  · cases found
  · cases found
  · split at found
    next document read =>
      cases found
      obtain ⟨v, ordered, same⟩ := Json.Reader.parseOrdered read
      exact ⟨v, ordered, same.symm⟩
    next => cases found

theorem NexonSource.directoryWritten (files : FileTree) (root : String) : (directory files root).Written := by
  intro id version t found
  simp only [directory, fetchFrom] at found
  split at found
  · cases found
  · split at found
    · exact versionWritten found
    · split at found
      · cases found
      · cases found
      · exact versionWritten found

theorem NexonSource.directoryOrdered (files : FileTree) (root : String) : (directory files root).Ordered := by
  intro id version t found
  obtain ⟨v, ordered, same⟩ := directoryWritten files root id version t found
  rw [same]
  exact TemplateDocument.ofJsonOrdered ordered

theorem NexonSource.unreachableOrdered : unreachable.Ordered := by
  intro id version t found
  cases found

namespace Resolver

def Ordered (s : Resolver) : Prop := ∀ p ∈ s.cache.entries, p.2.nexon.content.Ordered

variable {sources : List NexonSource} (known : ∀ source ∈ sources, source.Ordered) {r : NexonRequest}
include known

theorem fetchedOrdered [Regex] {c : NexonContent} (got : fetched sources r = .ok c) : c.Ordered := by
  obtain ⟨reply, found, rfl, -⟩ := fetchedFrom got
  obtain ⟨source, among, answered⟩ := searchFound found
  exact known source among _ _ _ answered

end Resolver

/-! What an admitted nexon has about it by having been read: the definitions of its parameters and the properties of its
nodes are tables in order, and no property has the name of a field that every node has. -/

structure NodeTemplate.Read (t : NodeTemplate) : Prop where
  ordered : Table.Ordered t.properties
  others : ∀ f ∈ t.properties, f.1 ∉ knownFields.map (·.1)

structure NexonContent.Admitted [Regex] (c : NexonContent) : Prop where
  sound : c.Sound
  read : ∃ v : Json, v.Ordered ∧ c = (TemplateDocument.ofJson v).content

theorem NodeTemplate.ofJsonRead {v : Json} (ordered : v.Ordered) : (ofJson v).Read := by
  refine ⟨(Json.orderedObj.mp (ofJsonOrdered ordered)).1, fun f member => ?_⟩
  have unknown : knownFields.any (·.1 = f.1) = false := by simpa using (List.mem_filter.mp member).2
  rintro known
  obtain ⟨g, among, same⟩ := List.mem_map.mp known
  exact List.any_eq_false.mp unknown g among (decide_eq_true same)

namespace NexonContent

variable [Regex] {c : NexonContent} (admitted : c.Admitted)
include admitted

theorem Admitted.nodes : ∀ t ∈ c.nodes, t.Read := by
  obtain ⟨v, ordered, rfl⟩ := admitted.read
  intro t member
  obtain ⟨w, item, rfl⟩ := List.mem_map.mp member
  exact NodeTemplate.ofJsonRead (Json.orderedItemsAt ordered w item)

theorem Admitted.parameters : Table.Ordered (c.manifest.parameters.getD []) := by
  obtain ⟨v, ordered, rfl⟩ := admitted.read
  cases given : (v.valueAt "manifest").member? "parameters" with
  | none =>
    have none : (TemplateDocument.ofJson v).content.manifest.parameters = none :=
      congrArg (Option.map ParamDefs.reader.view) given
    rw [none]
    exact List.Pairwise.nil
  | some w =>
    have some : (TemplateDocument.ofJson v).content.manifest.parameters = some (ParamDefs.reader.view w) :=
      congrArg (Option.map ParamDefs.reader.view) given
    have table : Table.Ordered (w.asObject?.getD []) := by
      cases w with
      | obj fields => exact (Json.orderedObj.mp (Json.orderedMember (Json.orderedValueAt _ ordered) given)).1
      | _ => exact List.Pairwise.nil
    rw [some]
    refine (Table.orderedNames ?_).mp table
    simp [Table.names, ParamDefs.reader, Json.Reader.map]

end NexonContent

theorem Resolver.fetchedAdmitted [Regex] {sources : List NexonSource} (written : ∀ source ∈ sources, source.Written)
    {r : NexonRequest} {c : NexonContent} (got : fetched sources r = .ok c) : c.Admitted := by
  refine ⟨fetchedSound got, ?_⟩
  obtain ⟨reply, found, rfl, -⟩ := fetchedFrom got
  obtain ⟨source, among, answered⟩ := searchFound found
  obtain ⟨v, ordered, same⟩ := written source among _ _ _ answered
  exact ⟨v, ordered, by rw [same]⟩

def Nexon.ofDocument (d : TemplateDocument) : Nexon := ⟨d.manifest, d.nodes, .disk, "", d.computedChecksum, 0, 0⟩

theorem Nexon.documentAdmitted [Regex] {v : Json} (ordered : v.Ordered)
    (sound : (TemplateDocument.ofJson v).report.faults = []) :
    (ofDocument (.ofJson v)).content.Admitted :=
  ⟨TemplateDocument.soundContent sound, v, ordered, rfl⟩

end Conduit
