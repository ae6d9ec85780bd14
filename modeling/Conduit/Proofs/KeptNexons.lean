import Conduit.Pattern
import Conduit.Proofs.SoundNexons

/-! What the cache of a resolver holds after any run of calls, each at a time and with sources of its own:
nexons that can be used, each under a key of its own id. A call that fails takes nothing out of it that
could still be answered with, and puts nothing in. -/
namespace Conduit

/-! Nexons under the keys they belong to. -/

def Nexon.document (n : Nexon) : TemplateDocument := ⟨n.manifest, n.nodes, none⟩

structure Nexon.Usable [Regex] (n : Nexon) : Prop where
  valid : n.document.report.valid = true
  checksum : n.checksum = n.document.computedChecksum

structure CacheEntry.Belongs [Regex] (key : String) (e : CacheEntry) : Prop where
  usable : e.nexon.Usable
  key : ∃ v, (v = "latest" ∨ v = e.nexon.manifest.version) ∧ key = e.nexon.manifest.id ++ "@" ++ v

def NexonCache.unstale (c : NexonCache) (now : Nat) : Table CacheEntry := c.entries.filter fun p => !p.2.isStale now

/-! Calls. -/

structure Lookup where
  times : Readings
  sources : List NexonSource
  request : NexonRequest

def Lookup.Unmarked (l : Lookup) : Prop :=
  ∀ source ∈ l.sources, ∀ t, source.fetch l.request.id l.request.version = .found t → '@' ∉ l.request.id.toList

theorem NexonSource.directoryUnmarked {files : FileTree} {root id : String} {version : Option String}
    {t : FetchedTemplate} (found : (directory files root).fetch id version = .found t) : '@' ∉ id.toList :=
  plainNotAt (plainOfSegment (directorySegment found))

namespace Resolver

def after [Regex] (s : Resolver) (run : List Lookup) : Resolver :=
  run.foldl (fun s l => (s.resolve l.sources l.times l.request).2) s

variable {s : Resolver} {sources : List NexonSource} {t : Readings} {r : NexonRequest}

/-! What one call leaves. -/

theorem fetchedUsable [Regex] {n : Nexon} (got : fetched sources r = .ok n.content) : n.Usable := by
  obtain ⟨reply, -, same, sound⟩ := fetchedFrom got
  obtain ⟨manifest, nodes, checksum⟩ : n.manifest = reply.2.document.manifest ∧ n.nodes = reply.2.document.nodes
      ∧ n.checksum = reply.2.document.computedChecksum := by
    simpa only [Nexon.content, TemplateDocument.content, NexonContent.mk.injEq] using same
  constructor
  · rw [TemplateReport.valid, List.isEmpty_iff, ← sound, Nexon.document, manifest, nodes]
    rfl
  · rw [checksum, Nexon.document, manifest, nodes]
    rfl

theorem fetchedKey [Regex] {n : Nexon} (got : fetched sources r = .ok n.content) (unmarked : '@' ∉ r.id.toList)
    {key : String} (left : key = r.key ∨ r.version = none ∧ key = n.key) :
    ∃ v, (v = "latest" ∨ v = n.manifest.version) ∧ key = n.manifest.id ++ "@" ++ v := by
  obtain ⟨id, -, pinned⟩ := fetchedMatches got unmarked
  rcases left with rfl | ⟨-, rfl⟩
  · rw [show n.manifest.id = r.id from id]
    cases version : r.version with
    | none => exact ⟨"latest", .inl rfl, by rw [NexonRequest.key, version]; rfl⟩
    | some v => exact ⟨v, .inr (pinned v version).symm, by rw [NexonRequest.key, version]; rfl⟩
  · exact ⟨n.manifest.version, .inr rfl, rfl⟩

theorem resolvedBelongs [Regex] (belongs : ∀ p ∈ s.cache.entries, p.2.Belongs p.1) (l : Lookup)
    (unmarked : l.Unmarked) : ∀ p ∈ (s.resolve l.sources l.times l.request).2.cache.entries, p.2.Belongs p.1 := by
  intro p member
  rcases entriesAfter member with before | ⟨n, _, got, entry, left⟩
  · exact belongs p before
  · obtain ⟨reply, searched, -, -⟩ := fetchedFrom got
    obtain ⟨source, among, answered⟩ := searchFound searched
    rw [entry]
    exact ⟨fetchedUsable got, fetchedKey got (unmarked source among _ answered) left⟩

theorem lookedOrdered {now : Nat} (ordered : s.cache.entries.Ordered) : (s.looked now r).cache.entries.Ordered := by
  simp only [looked, NexonCache.touched]
  split
  · exact ordered
  · split
    · exact Table.eraseOrdered ordered _
    · exact ordered

theorem resolvedOrdered [Regex] (ordered : s.cache.entries.Ordered) (l : Lookup) :
    (s.resolve l.sources l.times l.request).2.cache.entries.Ordered := by
  have looked : (s.looked l.times.looks l.request).cache.entries.Ordered := lookedOrdered ordered
  simp only [resolve]
  split
  · exact ordered
  · split
    · simp only [keep]
      split
      · exact Table.insertOrdered _ _ (Table.insertOrdered _ _ looked)
      · exact Table.insertOrdered _ _ looked
    · exact looked

theorem lookedUnstale {now : Nat} (ordered : s.cache.entries.Ordered) :
    (s.looked now r).cache.unstale now = s.cache.unstale now := by
  simp only [looked, NexonCache.touched]
  split
  · rfl
  · split
    next stale =>
      simp only [NexonCache.unstale, Table.erase, List.filter_filter]
      refine List.filter_congr fun p member => ?_
      -- only the entry of the key is taken out, and that is stale
      by_cases same : p.1 = r.key
      · have found : s.cache.entries.get? r.key = some p.2 := Table.getOfMem ordered (same ▸ member)
        rw [found, Option.any_some] at stale
        simp [same, stale]
      · simp [same]
    next => rfl

section

variable [Regex]

theorem failedUnstale (ordered : s.cache.entries.Ordered) {reason : TemplateError}
    (failed : (s.resolve sources t r).1 = .error reason) :
    (s.resolve sources t r).2.cache.unstale t.looks = s.cache.unstale t.looks := by
  simp only [resolve] at failed ⊢
  split at failed
  · cases failed
  next miss =>
    split at failed
    · cases failed
    next got => simpa only [miss, got] using lookedUnstale ordered

/-! What a run leaves. -/

theorem runBelongs (run : List Lookup) (unmarked : ∀ l ∈ run, l.Unmarked)
    (belongs : ∀ p ∈ s.cache.entries, p.2.Belongs p.1) :
    ∀ p ∈ (s.after run).cache.entries, p.2.Belongs p.1 := by
  induction run generalizing s with
  | nil => exact belongs
  | cons l rest ih =>
    obtain ⟨here, later⟩ := List.forall_mem_cons.mp unmarked
    exact ih later (resolvedBelongs belongs l here)

theorem runOrdered (run : List Lookup) (ordered : s.cache.entries.Ordered) :
    (s.after run).cache.entries.Ordered := by
  induction run generalizing s with
  | nil => exact ordered
  | cons l rest ih => exact ih (resolvedOrdered ordered l)

theorem usableKept (ttl : Nat) (run : List Lookup) (unmarked : ∀ l ∈ run, l.Unmarked) :
    (∀ p ∈ ((ofTtl ttl).after run).cache.entries, p.2.Belongs p.1)
      ∧ ∀ (l : Lookup) (reason : TemplateError),
        (((ofTtl ttl).after run).resolve l.sources l.times l.request).1 = .error reason →
        ((ofTtl ttl).after (run ++ [l])).cache.unstale l.times.looks = ((ofTtl ttl).after run).cache.unstale l.times.looks := by
  refine ⟨runBelongs run unmarked (List.forall_mem_nil _), fun l reason failed => ?_⟩
  have ordered : ((ofTtl ttl).after run).cache.entries.Ordered := runOrdered run List.Pairwise.nil
  rw [show (ofTtl ttl).after (run ++ [l]) = (((ofTtl ttl).after run).resolve l.sources l.times l.request).2 from
    List.foldl_append]
  exact failedUnstale ordered failed

end

def askedLatest : Lookup := ⟨.at 0, [.directory mislabelled "nexons"], ⟨"n", none, false⟩⟩

def askedAgain : Lookup := ⟨.at 0, [.directory mislabelled "nexons"], ⟨"n", some "1.0.0", true⟩⟩

attribute [local instance] Pattern.engine in
/-- The latest nexon is kept under its version too, and is still there when another call, which may not be
answered with it, has failed. -/
theorem mislabelledKept :
    Table.names ((ofTtl 1).after [askedLatest]).cache.entries = ["n@1.0.0", "n@latest"]
      ∧ (∀ p ∈ ((ofTtl 1).after [askedLatest]).cache.entries, p.2.Belongs p.1)
      ∧ ((ofTtl 1).after [askedLatest, askedAgain]).cache.unstale 0
        = ((ofTtl 1).after [askedLatest]).cache.unstale 0 := by
  have unmarked : ∀ l ∈ [askedLatest], l.Unmarked :=
    List.forall_mem_singleton.mpr (List.forall_mem_singleton.mpr fun _ found => NexonSource.directoryUnmarked found)
  obtain ⟨belongs, failing⟩ := usableKept 1 [askedLatest] unmarked
  refine ⟨by decide +kernel, belongs, ?_⟩
  have fails : (((ofTtl 1).after [askedLatest]).resolve askedAgain.sources askedAgain.times
      askedAgain.request).1.toOption.isSome = false := by decide +kernel
  cases answer : (((ofTtl 1).after [askedLatest]).resolve askedAgain.sources askedAgain.times askedAgain.request).1 with
  | error reason => exact failing askedAgain reason answer
  | ok n =>
    rw [answer] at fails
    cases fails

end Resolver
end Conduit
