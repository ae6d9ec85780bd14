import Conduit.Flow.Generation
import Conduit.Proofs.CacheTransparency

/-! What every nexon has about it that a resolver answers with. What all admitted nexons have, those in a cache
that began empty have too, and so have all that are found. -/
namespace Conduit

namespace Resolver

def Holding (P : NexonContent → Prop) (s : Resolver) : Prop := ∀ p ∈ s.cache.entries, P p.2.nexon.content

theorem emptyHolding (P : NexonContent → Prop) (ttl : Nat) : (ofTtl ttl).Holding P := List.forall_mem_nil _

end Resolver

variable [Regex]

namespace Resolver

section

variable {P : NexonContent → Prop} {sources : List NexonSource}
  (admitted : ∀ r c, fetched sources r = .ok c → P c)
include admitted

theorem resolvedHolding {r : NexonRequest} {s : Resolver} {t : Readings} (holding : s.Holding P) :
    (∀ n, (s.resolve sources t r).1 = .ok n → P n.content) ∧ (s.resolve sources t r).2.Holding P := by
  constructor
  · intro n answered
    cases cached : (if r.refresh then none else s.cache.fresh? t.looks r.key) with
    | none =>
      have given : s.answer sources (t, r) = .ok n.content := by rw [answer, answered]; rfl
      rw [answerMiss cached] at given
      exact admitted r _ given
    | some hit =>
      obtain ⟨passed, found⟩ : r.refresh = false ∧ s.cache.fresh? t.looks r.key = some hit := by
        split at cached
        · cases cached
        next passed => exact ⟨by simpa using passed, cached⟩
      rw [answerHit passed found] at answered
      cases answered
      obtain ⟨e, entry, rfl⟩ := Option.map_eq_some_iff.mp found
      obtain ⟨entry, -⟩ := Option.filter_eq_some_iff.mp entry
      exact holding _ (Table.memOfGet entry)
  · intro p member
    rcases entriesAfter member with before | ⟨n, _, got, entry, -⟩
    · exact holding p before
    · rw [entry]
      exact admitted r _ got

theorem foundHolding (stages : List Stage) {s : Resolver} {clock : Clock} (holding : s.Holding P) :
    (∀ n, .ok n ∈ (Channel.findNexons sources clock s stages).1 → P n.content)
      ∧ (Channel.findNexons sources clock s stages).2.Holding P := by
  induction stages generalizing s clock with
  | nil => exact ⟨fun n member => (by cases member), holding⟩
  | cons stage rest ih =>
    obtain ⟨answered, kept⟩ := @resolvedHolding _ P sources admitted stage.request s (clock 0) holding
    obtain ⟨others, after⟩ := ih kept
    refine ⟨fun n member => ?_, after⟩
    rcases List.mem_cons.mp member with here | later
    · exact answered n here.symm
    · exact others n later

end

theorem foundLength (sources : List NexonSource) (clock : Clock) (s : Resolver) (stages : List Stage) :
    (Channel.findNexons sources clock s stages).1.length = stages.length := by
  induction stages generalizing s clock with
  | nil => rfl
  | cons stage rest ih => exact congrArg (· + 1) (ih _ _)

end Resolver

/-! Nexons that were admitted. -/

structure NexonContent.Sound (c : NexonContent) : Prop where
  manifest : c.manifest.faults = []
  nodes : c.nodes ≠ []
  ids : nodeFaults [] 0 c.nodes = []
  wires : wireFaults c.nodes = []

def TemplateDocument.content (d : TemplateDocument) : NexonContent := ⟨d.manifest, d.nodes, d.computedChecksum⟩

theorem TemplateDocument.soundContent {d : TemplateDocument} (sound : d.report.faults = []) : d.content.Sound := by
  simp only [report, List.append_eq_nil_iff] at sound
  obtain ⟨⟨⟨manifest, some⟩, ids⟩, wires⟩ := sound
  refine ⟨manifest, fun none => ?_, ids, wires⟩
  rw [show d.nodes = [] from none] at some
  cases some

namespace Resolver

variable {sources : List NexonSource} {r : NexonRequest} {c : NexonContent}

theorem fetchedFrom (got : fetched sources r = .ok c) :
    ∃ reply, search r sources = .ok reply ∧ c = reply.2.document.content ∧ reply.2.document.report.faults = [] := by
  obtain ⟨reply, n, found, admitted, rfl⟩ := fetchedSearched got
  refine ⟨reply, found, ?_, (admissionSound admitted).2.1⟩
  simp only [admission] at admitted
  split at admitted
  · cases admitted
  · split at admitted
    · cases admitted
    · cases admitted
      rfl

theorem fetchedSound (got : fetched sources r = .ok c) : c.Sound := by
  obtain ⟨reply, -, rfl, sound⟩ := fetchedFrom got
  exact TemplateDocument.soundContent sound

end Resolver

end Conduit
