import Conduit.Json.Basic
import Conduit.Pattern
import Conduit.Proofs.NexonKeys
import Conduit.Proofs.Outcomes
import Conduit.Proofs.Tables

/-! When the cache of a resolver can be told from none. Everything in it was admitted for some earlier call;
an answer from it differs from that of an empty cache just when a call without a version left its nexon
under a key that a call with a version asks for, and that call would have found something else. -/
namespace Conduit

structure NexonContent where
  manifest : Manifest
  nodes : List NodeTemplate
  checksum : String

def Nexon.content (n : Nexon) : NexonContent := ⟨n.manifest, n.nodes, n.checksum⟩

/-! Calls that share a key. -/

structure NexonContent.Answers (c : NexonContent) (r : NexonRequest) : Prop where
  plainId : NexonSource.Plain r.id.toList
  id : c.manifest.id = r.id
  parsed : ∃ v, Version.parse? c.manifest.version = some v
  version : ∀ v, r.version = some v → c.manifest.version = v

def NexonRequest.Leaves (u : NexonRequest) (c : NexonContent) (key : String) : Prop :=
  key = u.key ∨ u.version = none ∧ key = cacheKey u.id (some c.manifest.version)

structure NexonRequest.Follows (q u : NexonRequest) (c : NexonContent) : Prop where
  reads : q.refresh = false
  id : q.id = u.id
  latest : u.version = none
  version : q.version = some "latest" ∨ q.version = some c.manifest.version

theorem NexonContent.Answers.notLatest {c : NexonContent} {u : NexonRequest} (answers : c.Answers u) :
    c.manifest.version ≠ "latest" := by
  obtain ⟨v, parsed⟩ := answers.parsed
  intro latest
  rw [latest, latestIsNoVersion] at parsed
  cases parsed

theorem versionOfWord {version : Option String} {w : String} (word : version.getD "latest" = w) (pinned : w ≠ "latest") :
    version = some w := by
  cases version with
  | none => exact absurd word.symm pinned
  | some v => exact congrArg some word

theorem NexonRequest.follows {q u : NexonRequest} {c : NexonContent} (reads : q.refresh = false)
    (answers : c.Answers u) (left : u.Leaves c q.key) :
    q.id = u.id ∧ q.version = u.version ∨ q.Follows u c := by
  obtain ⟨v, parsed⟩ := answers.parsed
  have plainVersion : NexonSource.Plain c.manifest.version.toList := Version.parsePlain parsed
  rcases left with same | ⟨unpinned, same⟩
  · cases asked : u.version with
    | none =>
      obtain ⟨id, word⟩ := cacheKeyParts same answers.plainId (by rw [asked]; exact latestWordPlain)
      rw [asked] at word
      cases pinned : q.version with
      | none => exact .inl ⟨id, rfl⟩
      | some w =>
        rw [pinned] at word
        exact .inr ⟨reads, id, asked, .inl (pinned.trans (congrArg some word))⟩
    | some w =>
      have exact := answers.version w asked
      obtain ⟨id, word⟩ := cacheKeyParts same answers.plainId (by rw [asked, Option.getD_some, ← exact]; exact plainVersion)
      rw [asked, Option.getD_some] at word
      exact .inl ⟨id, versionOfWord word (exact ▸ answers.notLatest)⟩
  · obtain ⟨id, word⟩ := cacheKeyParts same answers.plainId plainVersion
    exact .inr ⟨reads, id, unpinned, .inr (versionOfWord word answers.notLatest)⟩

/-! Runs of calls, each made at a time of its own. -/

abbrev Call := Readings × NexonRequest

section

variable [Regex]

namespace Resolver

def answer (s : Resolver) (sources : List NexonSource) (call : Call) : Except TemplateError NexonContent :=
  (s.resolve sources call.1 call.2).1.map Nexon.content

def answers (s : Resolver) (sources : List NexonSource) : List Call → List (Except TemplateError NexonContent)
  | [] => []
  | call :: rest => s.answer sources call :: answers (s.resolve sources call.1 call.2).2 sources rest

def NeverStale (s : Resolver) (sources : List NexonSource) : List Call → Prop
  | [] => True
  | call :: rest =>
    (∀ p ∈ s.cache.entries, p.2.isStale call.1.looks = false)
      ∧ NeverStale (s.resolve sources call.1 call.2).2 sources rest

/-! What one call answers and leaves behind. -/

variable {s : Resolver} {sources : List NexonSource} {t : Readings} {r : NexonRequest}

def fetched (sources : List NexonSource) (r : NexonRequest) : Except TemplateError NexonContent :=
  ((ofTtl 0).fetch sources r).map Nexon.content

theorem admissionContent (s s' : Resolver) (r : NexonRequest) (kind : SourceKind) (t : FetchedTemplate) :
    (s.admission r kind t).map Nexon.content = (s'.admission r kind t).map Nexon.content := by
  simp only [admission]
  split
  · rfl
  · split <;> rfl

theorem fetchContent (s : Resolver) (sources : List NexonSource) (r : NexonRequest) :
    (s.fetch sources r).map Nexon.content = fetched sources r := by
  simp only [fetched, fetch]
  cases search r sources with
  | error reason => simp only [bind, Except.bind]
  | ok reply =>
    simp only [bind, Except.bind]
    exact admissionContent s (ofTtl 0) r reply.1 reply.2

omit [Regex] in
theorem searchSame {q r : NexonRequest} (id : q.id = r.id) (version : q.version = r.version)
    (sources : List NexonSource) : search q sources = search r sources := by
  induction sources with
  | nil => simp only [search, id, version]
  | cons source rest ih => simp only [search, id, version, ih]

theorem fetchedSame {q r : NexonRequest} (id : q.id = r.id) (version : q.version = r.version) :
    fetched sources q = fetched sources r := by
  have key : q.key = r.key := by simp only [NexonRequest.key, id, version]
  simp only [fetched, fetch, searchSame id version]
  cases search r sources with
  | error reason => simp only [bind, Except.bind]
  | ok reply =>
    have against : reply.2.document.otherwise q = reply.2.document.otherwise r := by
      rw [TemplateDocument.otherwise, TemplateDocument.otherwise, key, version]
    simp only [bind, Except.bind, admission, key, against]

theorem answerHit {hit : Nexon} (passed : r.refresh = false) (found : s.cache.fresh? t.looks r.key = some hit) :
    s.resolve sources t r = (.ok hit, s) := by
  simp [resolve, passed, found]

theorem answerMiss (miss : (if r.refresh then none else s.cache.fresh? t.looks r.key) = none) :
    s.answer sources (t, r) = fetched sources r := by
  simp only [answer, resolve, miss]
  rw [← fetchContent (s.looked t.looks r)]
  cases (s.looked t.looks r).fetch sources r with
  | error reason => rfl
  | ok n => rfl

theorem answerEmpty (ttl : Nat) (call : Call) :
    (ofTtl ttl).answer sources call = fetched sources call.2 := by
  apply answerMiss
  split <;> rfl

omit [Regex] in
theorem ttlLooked {now : Nat} : (s.looked now r).cache.ttl = s.cache.ttl := by
  simp only [looked, NexonCache.touched]
  split
  · rfl
  · split <;> rfl

theorem ttlResolved : (s.resolve sources t r).2.cache.ttl = s.cache.ttl := by
  simp only [resolve]
  split
  · rfl
  · split
    · simp only [keep]
      split <;> exact ttlLooked
    · exact ttlLooked

theorem entriesAfter {p : String × CacheEntry} (member : p ∈ (s.resolve sources t r).2.cache.entries) :
    p ∈ s.cache.entries ∨ ∃ (n : Nexon) (kept : Nat), fetched sources r = .ok n.content ∧ p.2 = ⟨n, kept, s.cache.ttl⟩
      ∧ (p.1 = r.key ∨ r.version = none ∧ p.1 = n.key) := by
  have looking {p : String × CacheEntry} (member : p ∈ (s.looked t.looks r).cache.entries) :
      p ∈ s.cache.entries := by
    simp only [looked, NexonCache.touched] at member
    split at member
    · exact member
    · split at member
      · exact (List.mem_filter.mp member).1
      · exact member
  have same : (s.looked t.looks r).cache.ttl = s.cache.ttl := ttlLooked
  simp only [resolve] at member
  split at member
  next => exact .inl member
  next =>
    split at member
    next n got =>
      have answered : fetched sources r = .ok n.content := by
        rw [← fetchContent (s.looked t.looks r), got]
        rfl
      simp only [keep, same] at member
      split at member
      next latest =>
        rcases Table.memInsert member with rfl | member
        · exact .inr ⟨n, _, answered, rfl, .inr ⟨by simpa using latest, rfl⟩⟩
        · rcases Table.memInsert member with rfl | member
          · exact .inr ⟨n, _, answered, rfl, .inl rfl⟩
          · exact .inl (looking member)
      next =>
        rcases Table.memInsert member with rfl | member
        · exact .inr ⟨n, _, answered, rfl, .inl rfl⟩
        · exact .inl (looking member)
    next => exact .inl (looking member)

theorem neverStaleWithin {ttl : Nat} (run : List Call) (within : ∀ call ∈ run, call.1.looks < ttl)
    (same : s.cache.ttl = ttl) (kept : ∀ p ∈ s.cache.entries, p.2.ttl = ttl) : s.NeverStale sources run := by
  induction run generalizing s with
  | nil => trivial
  | cons call rest ih =>
    refine ⟨fun p member => ?_, ih (fun later member => within later (List.mem_cons_of_mem _ member)) ?_ ?_⟩
    · have early := within call List.mem_cons_self
      simp only [CacheEntry.isStale, kept p member, decide_eq_false_iff_not]
      omega
    · rw [ttlResolved, same]
    · intro p member
      rcases entriesAfter member with member | ⟨n, _, -, entry, -⟩
      · exact kept p member
      · rw [entry]
        exact same

end Resolver

/-! What a directory can be asked for with success. -/

theorem Manifest.soundIdAndVersion {m : Manifest} (sound : m.faults = []) :
    m.id ≠ "" ∧ ∃ v, Version.parse? m.version = some v := by
  simp only [faults, List.append_eq_nil_iff] at sound
  obtain ⟨⟨⟨⟨⟨id, version⟩, -⟩, -⟩, -⟩, -⟩ := sound
  constructor
  · intro empty
    rw [empty] at id
    exact absurd id (by decide)
  · split at version
    next => cases version
    next =>
      split at version
      next => cases version
      next parsed => exact Option.ne_none_iff_exists'.mp (by simpa using parsed)

omit [Regex] in
theorem NexonSource.directorySegment {files : FileTree} {root id : String} {version : Option String}
    {t : FetchedTemplate} (found : (directory files root).fetch id version = .found t) : isSegment id := by
  cases segment : isSegment id with
  | true => rfl
  | false => simp [directory, fetchFrom, segment] at found

namespace Resolver

variable {files : FileTree} {root : String} {r : NexonRequest}

omit [Regex] in
theorem searchFound {sources : List NexonSource} {reply : SourceKind × FetchedTemplate}
    (found : search r sources = .ok reply) : ∃ source ∈ sources, source.fetch r.id r.version = .found reply.2 := by
  induction sources with
  | nil => cases found
  | cons source rest ih =>
    have later (found : search r rest = .ok reply) :
        ∃ other ∈ source :: rest, other.fetch r.id r.version = .found reply.2 := by
      obtain ⟨other, among, answered⟩ := ih found
      exact ⟨other, List.mem_cons_of_mem _ among, answered⟩
    simp only [search] at found
    split at found
    next t answered =>
      cases found
      exact ⟨source, List.mem_cons_self, answered⟩
    next => exact later found
    next => exact later found
    next => cases found

theorem admissionSound {s : Resolver} {kind : SourceKind} {t : FetchedTemplate} {n : Nexon}
    (admitted : s.admission r kind t = .ok n) :
    n.manifest = t.document.manifest ∧ t.document.report.faults = [] ∧ t.document.otherwise r = [] := by
  simp only [admission] at admitted
  split at admitted
  · cases admitted
  · split at admitted
    · cases admitted
    next sound =>
      simp only [Bool.not_eq_true', Bool.not_eq_false, List.isEmpty_iff, List.append_eq_nil_iff] at sound
      cases admitted
      exact ⟨rfl, sound⟩

theorem fetchedSearched {sources : List NexonSource} {c : NexonContent} (got : fetched sources r = .ok c) :
    ∃ reply n, search r sources = .ok reply ∧ (ofTtl 0).admission r reply.1 reply.2 = .ok n ∧ n.content = c := by
  obtain ⟨n, found, same⟩ := Outcome.mapOk.mp got
  obtain ⟨reply, searched, admitted⟩ := Outcome.bindOk.mp found
  exact ⟨reply, n, searched, admitted, same⟩

theorem fetchedMatches {sources : List NexonSource} {c : NexonContent} (got : fetched sources r = .ok c)
    (unmarked : '@' ∉ r.id.toList) : c.manifest.id = r.id ∧ (∃ v, Version.parse? c.manifest.version = some v)
      ∧ ∀ v, r.version = some v → c.manifest.version = v := by
  obtain ⟨reply, n, -, admitted, rfl⟩ := fetchedSearched got
  obtain ⟨manifest, sound, against⟩ := admissionSound admitted
  simp only [TemplateDocument.report, List.append_eq_nil_iff] at sound
  obtain ⟨named, parsed⟩ := Manifest.soundIdAndVersion sound.1.1.1
  simp only [TemplateDocument.otherwise, List.append_eq_nil_iff, NexonRequest.key, idOfCacheKey unmarked] at against
  rw [← manifest] at named parsed against
  refine ⟨?_, parsed, ?_⟩ <;> simp only [Nexon.content]
  · simpa [named] using against.1
  · intro v pinned
    have filled : n.manifest.version ≠ "" := by
      obtain ⟨version, parsed⟩ := parsed
      intro empty
      rw [empty] at parsed
      cases parsed
    simpa [pinned, filled] using against.2

theorem fetchedAnswers {c : NexonContent} (got : fetched [.directory files root] r = .ok c) : c.Answers r := by
  obtain ⟨reply, n, searched, -, -⟩ := fetchedSearched got
  obtain ⟨source, among, answered⟩ := searchFound searched
  cases List.mem_singleton.mp among
  have plain := NexonSource.plainOfSegment (NexonSource.directorySegment answered)
  obtain ⟨id, parsed, version⟩ := fetchedMatches got (NexonSource.plainNotAt plain)
  exact ⟨plain, id, parsed, version⟩

end Resolver

namespace Resolver

variable {files : FileTree} {root : String} {P : NexonRequest → Prop}

def Sourced (files : FileTree) (root : String) (P : NexonRequest → Prop) (s : Resolver) : Prop :=
  ∀ p ∈ s.cache.entries, ∃ u, P u
    ∧ fetched [.directory files root] u = .ok p.2.nexon.content ∧ u.Leaves p.2.nexon.content p.1

theorem sourcedResolved {s : Resolver} {t : Readings} {r : NexonRequest} (sourced : Sourced files root P s)
    (asked : P r) : Sourced files root P (s.resolve [.directory files root] t r).2 := by
  intro p member
  rcases entriesAfter member with member | ⟨n, _, answered, entry, key⟩
  · exact sourced p member
  · refine ⟨r, asked, by rw [entry]; exact answered, ?_⟩
    rw [entry]
    rcases key with own | ⟨unpinned, version⟩
    · exact .inl own
    · refine .inr ⟨unpinned, ?_⟩
      have id : n.manifest.id = r.id := (fetchedAnswers answered).id
      rw [version, Nexon.key, id]
      rfl

theorem answerSourced {s : Resolver} {call : Call} (sourced : Sourced files root P s)
    (agree : ∀ u c, P u → fetched [.directory files root] u = .ok c → call.2.Follows u c →
      fetched [.directory files root] call.2 = .ok c) :
    s.answer [.directory files root] call = fetched [.directory files root] call.2 := by
  obtain ⟨t, q⟩ := call
  cases passed : q.refresh with
  | true => exact answerMiss (by simp [passed])
  | false =>
    cases hit : s.cache.fresh? t.looks q.key with
    | none => exact answerMiss (by simp [hit])
    | some n =>
      have stored : s.answer [.directory files root] (t, q) = .ok n.content := by
        rw [answer, answerHit passed hit]
        rfl
      simp only [NexonCache.fresh?, Option.map_eq_some_iff, Option.filter_eq_some_iff] at hit
      obtain ⟨e, ⟨found, -⟩, rfl⟩ := hit
      obtain ⟨u, asked, answered, left⟩ := sourced _ (Table.memOfGet found)
      rw [stored]
      rcases NexonRequest.follows passed (fetchedAnswers answered) left with ⟨id, version⟩ | follows
      · rw [fetchedSame id version, answered]
      · exact (agree u _ asked answered follows).symm

theorem answersSourced {s : Resolver} (run : List Call) (calls : ∀ call ∈ run, P call.2)
    (sourced : Sourced files root P s)
    (agree : ∀ u q c, P u → P q → fetched [.directory files root] u = .ok c → q.Follows u c →
      fetched [.directory files root] q = .ok c) :
    s.answers [.directory files root] run = run.map fun call => fetched [.directory files root] call.2 := by
  induction run generalizing s with
  | nil => rfl
  | cons call rest ih =>
    have asked := calls call List.mem_cons_self
    simp only [answers, List.map_cons]
    rw [answerSourced sourced fun u c left answered follows => agree u call.2 c left asked answered follows]
    rw [ih (fun later member => calls later (List.mem_cons_of_mem _ member)) (sourcedResolved sourced asked)]

theorem freshAfter {ttl : Nat} {sources : List NexonSource} {u : NexonRequest} {c : NexonContent} {key : String}
    (positive : 0 < ttl) (answered : fetched sources u = .ok c) (latest : u.version = none)
    (under : key = u.key ∨ key = cacheKey c.manifest.id (some c.manifest.version)) :
    ∃ n : Nexon, n.content = c ∧ ((ofTtl ttl).resolve sources (.at 0) u).2.cache.fresh? 0 key = some n := by
  have miss : (if u.refresh then none else (ofTtl ttl).cache.fresh? 0 u.key) = none := by split <;> rfl
  have empty : (ofTtl ttl).looked 0 u = ofTtl ttl := by
    rw [looked]
    split <;> rfl
  rw [← fetchContent (ofTtl ttl)] at answered
  cases got : (ofTtl ttl).fetch sources u with
  | error reason => rw [got] at answered; cases answered
  | ok n =>
    rw [got] at answered
    cases answered
    refine ⟨n, rfl, ?_⟩
    have unstale : CacheEntry.isStale 0 ⟨n, 0, ttl⟩ = false := by
      simp only [CacheEntry.isStale, decide_eq_false_iff_not]
      omega
    have found : ((ofTtl ttl).resolve sources (.at 0) u).2.cache.entries.get? key = some ⟨n, 0, ttl⟩ := by
      simp only [resolve, Readings.at, miss, empty, got, keep, latest, Option.isNone_none, if_true, NexonCache.put,
        Table.getInsert]
      rcases under with rfl | rfl
      · split
        · rfl
        · rw [if_pos rfl]
          rfl
      · exact if_pos rfl
    simp only [NexonCache.fresh?, found, Option.filter_some, unstale, Bool.not_false, if_true, Option.map_some]

theorem transparentIff (files : FileTree) (root : String) (P : NexonRequest → Prop) :
    (∀ (ttl : Nat) (run : List Call), (∀ call ∈ run, P call.2) →
      (ofTtl ttl).NeverStale [.directory files root] run →
      (ofTtl ttl).answers [.directory files root] run =
        run.map ((ofTtl ttl).answer [.directory files root])) ↔
    ∀ u q c, P u → P q → (ofTtl 1).answer [.directory files root] (.at 0, u) = .ok c → q.Follows u c →
      (ofTtl 1).answer [.directory files root] (.at 0, q) = .ok c := by
  constructor
  · intro transparent u q c first second answered follows
    rw [answerEmpty] at answered
    have short : (ofTtl 1).NeverStale [.directory files root] [(.at 0, u), (.at 0, q)] :=
      neverStaleWithin _ (by simp [ofTtl, Readings.at]) rfl (by simp [ofTtl])
    have same := transparent 1 [(.at 0, u), (.at 0, q)] (by simp [first, second]) short
    simp only [answers, List.map_cons, List.map_nil, List.cons.injEq, and_true, true_and] at same
    have under : q.key = u.key ∨ q.key = cacheKey c.manifest.id (some c.manifest.version) := by
      rw [NexonRequest.key, follows.id, (fetchedAnswers answered).id]
      rcases follows.version with pinned | pinned
      · left
        rw [NexonRequest.key, pinned, follows.latest]
        rfl
      · right
        rw [pinned]
    obtain ⟨n, content, found⟩ := freshAfter Nat.one_pos answered follows.latest under
    rw [← same, answer, answerHit follows.reads found, ← content]
    rfl
  · intro agree ttl run calls unstale
    have each : (ofTtl ttl).answer [.directory files root] = fun call =>
        fetched [.directory files root] call.2 := funext (answerEmpty ttl)
    rw [each]
    have none : Sourced files root P (ofTtl ttl) := fun p member => by cases member
    refine answersSourced run calls none fun u q c first second answered follows => ?_
    have direct := agree u q c first second (by rw [answerEmpty]; exact answered) follows
    rwa [answerEmpty] at direct

end Resolver

end

/-! Where it can be told. -/

attribute [local instance] Pattern.engine

namespace Resolver

def mislabelled : FileTree where
  nodes := [(["nexons", "n", "2.0.0.json"], .file (Text.utf8 (Json.compact (.ofPairs
    [("manifest", .ofPairs [("id", .str "n"), ("version", .str "1.0.0"), ("title", .str "N"),
        ("capabilities", .ofPairs []), ("parameters", .ofPairs [])]),
     ("template", .arr [.ofPairs [("id", .str "x"), ("type", .str "debug")]])]))))]

/-- The latest nexon is found in that file; from then on its version is there, which no file is named for. -/
theorem mislabelledSeen :
    ¬ ∀ (files : FileTree) (root : String) (ttl : Nat) (run : List Call),
      (ofTtl ttl).NeverStale [.directory files root] run →
      (ofTtl ttl).answers [.directory files root] run =
        run.map ((ofTtl ttl).answer [.directory files root]) := by
  intro transparent
  have short : (ofTtl 1).NeverStale [.directory mislabelled "nexons"]
      [(.at 0, ⟨"n", none, false⟩), (.at 0, ⟨"n", some "1.0.0", false⟩)] :=
    neverStaleWithin _ (by decide) rfl (by simp [ofTtl])
  have same := congrArg (List.map fun reply => reply.toOption.isSome) (transparent _ _ _ _ short)
  exact absurd same (by decide +kernel)

end Resolver
end Conduit
