import Conduit.Flow.Generation
import Conduit.Proofs.CacheTransparency

/-! Two runs of lookups, each by a clock of its own. If what one lookup keeps is stale to a later one in both runs or in
neither, then caches that answer alike go on to do so; who found a nexon, and when, is not seen. -/
namespace Conduit

/-- In the next `n` lookups of two runs everything is as old as in the other run, as far as staleness goes. -/
def Clock.SameAges (n ttl : Nat) (clock clock' : Clock) : Prop :=
  ∀ i j, i < j → j < n →
    ((clock i).keeps + ttl ≤ (clock j).looks ↔ (clock' i).keeps + ttl ≤ (clock' j).looks)
      ∧ ((clock i).keepsVersion + ttl ≤ (clock j).looks ↔ (clock' i).keepsVersion + ttl ≤ (clock' j).looks)

namespace Clock

theorem SameAges.next {n ttl : Nat} {clock clock' : Clock} (ages : SameAges (n + 1) ttl clock clock') :
    SameAges n ttl clock.next clock'.next :=
  fun i j before within => ages (i + 1) (j + 1) (by omega) (by omega)

def later (d : Nat) (clock : Clock) : Clock :=
  fun i => ⟨(clock i).looks + d, (clock i).keeps + d, (clock i).keepsVersion + d⟩

theorem laterAges (n ttl d : Nat) (clock : Clock) : SameAges n ttl clock (clock.later d) := by
  intro i j _ _
  simp only [later]
  omega

end Clock

namespace NexonCache

theorem freshTouched (c : NexonCache) (now later : Nat) (key other : String) :
    (c.touched now key).fresh? later other
      = if other = key ∧ c.fresh? now key = none then none else c.fresh? later other := by
  cases entry : c.entries.get? key with
  | none =>
    have absent : c.fresh? later key = none := by rw [fresh?, entry]; rfl
    simp only [touched, entry, Option.any_none, Bool.false_eq_true, if_false]
    split
    next both => rw [both.1, absent]
    next => rfl
  | some e =>
    cases stale : e.isStale now with
    | true =>
      have missed : c.fresh? now key = none := by rw [fresh?, entry, Option.filter_some, stale]; rfl
      simp only [touched, entry, Option.any_some, stale, if_true, fresh?, Table.getErase]
      split <;> simp_all [fresh?]
    | false => simp [touched, fresh?, entry, stale]

theorem freshPut (c : NexonCache) (kept ttl later : Nat) (key other : String) (n : Nexon) :
    (c.put kept ttl key n).fresh? later other
      = if other = key then (if kept + ttl ≤ later then none else some n) else c.fresh? later other := by
  rw [fresh?, put, Table.getInsert]
  split
  next =>
    rw [Option.filter_some, CacheEntry.isStale]
    split <;> simp_all
  next => rfl

end NexonCache

namespace Resolver

section

variable {s : Resolver} {t : Readings} {r : NexonRequest}

theorem freshLooked (later : Nat) (key : String) :
    (s.looked t.looks r).cache.fresh? later key
      = if r.refresh = false ∧ key = r.key ∧ s.cache.fresh? t.looks r.key = none then none
        else s.cache.fresh? later key := by
  unfold looked
  cases r.refresh with
  | true => simp
  | false => simp [NexonCache.freshTouched]

theorem seenKept (n : Nexon) (later : Nat) (key : String) :
    ((s.keep t r n).cache.fresh? later key).map Nexon.content
      = if r.version = none ∧ key = n.key then
          (if t.keepsVersion + s.cache.ttl ≤ later then none else some n.content)
        else if key = r.key then (if t.keeps + s.cache.ttl ≤ later then none else some n.content)
        else (s.cache.fresh? later key).map Nexon.content := by
  cases asked : r.version with
  | none =>
    simp only [keep, asked, Option.isNone_none, if_true, NexonCache.freshPut, true_and]
    split_ifs <;> rfl
  | some v =>
    simp only [keep, asked, Option.isNone_some, Bool.false_eq_true, if_false, NexonCache.freshPut, reduceCtorEq, false_and]
    split_ifs <;> rfl

theorem ttlKept (n : Nexon) : (s.keep t r n).cache.ttl = s.cache.ttl := by
  simp only [keep]
  split <;> rfl

end

structure Alike (K : String → Prop) (n : Nat) (clock clock' : Clock) (s s' : Resolver) : Prop where
  ttl : s.cache.ttl = s'.cache.ttl
  fresh : ∀ i < n, ∀ key, K key → (s.cache.fresh? (clock i).looks key).map Nexon.content
    = (s'.cache.fresh? (clock' i).looks key).map Nexon.content

variable {K : String → Prop} {n : Nat} {clock clock' : Clock} {s s' : Resolver} {r : NexonRequest}

theorem emptyAlike (K : String → Prop) (n : Nat) (clock clock' : Clock) (ttl : s.cache.ttl = s'.cache.ttl)
    (first : s.cache.entries = []) (second : s'.cache.entries = []) : Alike K n clock clock' s s' :=
  ⟨ttl, fun _ _ _ _ => by rw [NexonCache.fresh?, NexonCache.fresh?, first, second]; rfl⟩

theorem Alike.next (alike : Alike K (n + 1) clock clock' s s') : Alike K n clock.next clock'.next s s' :=
  ⟨alike.ttl, fun i within => alike.fresh (i + 1) (by omega)⟩

theorem Alike.looked (alike : Alike K (n + 1) clock clock' s s') (r : NexonRequest) :
    Alike K (n + 1) clock clock' (s.looked (clock 0).looks r) (s'.looked (clock' 0).looks r) := by
  refine ⟨ttlLooked.trans (alike.ttl.trans ttlLooked.symm), fun i within key among => ?_⟩
  rw [freshLooked, freshLooked]
  by_cases own : key = r.key
  · subst own
    -- looking takes out what is stale, and that is so in both or in neither
    have here := alike.fresh 0 (by omega) r.key among
    have missed : s.cache.fresh? (clock 0).looks r.key = none ↔ s'.cache.fresh? (clock' 0).looks r.key = none := by
      rw [← Option.map_eq_none_iff, here, Option.map_eq_none_iff]
    simp only [missed]
    split
    · rfl
    · exact alike.fresh i within r.key among
  · rw [if_neg (by simp [own]), if_neg (by simp [own])]
    exact alike.fresh i within key among

theorem Alike.keep (alike : Alike K (n + 1) clock clock' s s')
    (ages : Clock.SameAges (n + 1) s.cache.ttl clock clock') {found found' : Nexon}
    (same : found.content = found'.content) :
    Alike K n clock.next clock'.next (s.keep (clock 0) r found) (s'.keep (clock' 0) r found') := by
  have named : found.key = found'.key := by
    rw [Nexon.key, Nexon.key, show found.manifest = found'.manifest from congrArg (·.manifest) same]
  refine ⟨by rw [ttlKept, ttlKept, alike.ttl], fun i within key among => ?_⟩
  -- both puts were made in the first lookup, and are stale in the one after the next `i` in both or in neither
  obtain ⟨asked, version⟩ := ages 0 (i + 1) (by omega) (by omega)
  rw [seenKept, seenKept, named, same, ← alike.ttl]
  exact if_congr Iff.rfl (if_congr version rfl rfl)
    (if_congr Iff.rfl (if_congr asked rfl rfl) (alike.fresh (i + 1) (by omega) key among))

theorem resolvedAlike [Regex] {sources sources' : List NexonSource} (alike : Alike K (n + 1) clock clock' s s')
    (ages : Clock.SameAges (n + 1) s.cache.ttl clock clock') (among : K r.key)
    (fetched : fetched sources r = fetched sources' r) :
    (s.resolve sources (clock 0) r).1.map Nexon.content = (s'.resolve sources' (clock' 0) r).1.map Nexon.content
      ∧ Alike K n clock.next clock'.next (s.resolve sources (clock 0) r).2 (s'.resolve sources' (clock' 0) r).2 := by
  have hits : (if r.refresh then none else s.cache.fresh? (clock 0).looks r.key).map Nexon.content
      = (if r.refresh then none else s'.cache.fresh? (clock' 0).looks r.key).map Nexon.content := by
    split
    · rfl
    · exact alike.fresh 0 (by omega) r.key among
  have looked := alike.looked r
  simp only [resolve]
  split
  next hit found =>
    rw [found, Option.map_some, eq_comm, Option.map_eq_some_iff] at hits
    obtain ⟨other, found, same⟩ := hits
    rw [found]
    exact ⟨congrArg Except.ok same.symm, alike.next⟩
  next miss =>
    rw [miss, Option.map_none, eq_comm, Option.map_eq_none_iff] at hits
    have fetched := (fetchContent (s.looked (clock 0).looks r) sources r).trans
      (fetched.trans (fetchContent (s'.looked (clock' 0).looks r) sources' r).symm)
    rw [hits]
    cases first : (s.looked (clock 0).looks r).fetch sources r with
    | error reason =>
      cases second : (s'.looked (clock' 0).looks r).fetch sources' r with
      | error other =>
        rw [first, second] at fetched
        cases fetched
        exact ⟨rfl, looked.next⟩
      | ok n => rw [first, second] at fetched; cases fetched
    | ok n =>
      cases second : (s'.looked (clock' 0).looks r).fetch sources' r with
      | error reason => rw [first, second] at fetched; cases fetched
      | ok m =>
        rw [first, second] at fetched
        have same : n.content = m.content := Except.ok.inj fetched
        exact ⟨congrArg Except.ok same, looked.keep (by rwa [ttlLooked]) same⟩

theorem foundAlike [Regex] (sources : List NexonSource) (stages : List Stage)
    (alike : Alike (fun _ => True) stages.length clock clock' s s')
    (ages : Clock.SameAges stages.length s.cache.ttl clock clock') :
    (Channel.findNexons sources clock s stages).1.map (·.map Nexon.content)
      = (Channel.findNexons sources clock' s' stages).1.map (·.map Nexon.content) := by
  induction stages generalizing clock clock' s s' with
  | nil => rfl
  | cons stage rest ih =>
    obtain ⟨answered, after⟩ := @resolvedAlike _ _ clock clock' s s' stage.request _ sources sources alike ages trivial rfl
    exact List.cons_eq_cons.mpr ⟨answered, ih after (ttlResolved (s := s) ▸ ages.next)⟩

/-! The stages of a channel whose nexons do not depend on the time. -/

def calls (clock : Clock) : List Stage → List Call
  | [] => []
  | stage :: rest => (clock 0, stage.request) :: calls clock.next rest

theorem foundAnswers [Regex] (sources : List NexonSource) (clock : Clock) (s : Resolver) (stages : List Stage) :
    (Channel.findNexons sources clock s stages).1.map (·.map Nexon.content) = s.answers sources (calls clock stages) := by
  induction stages generalizing clock s with
  | nil => rfl
  | cons stage rest ih => exact congrArg (_ :: ·) (ih _ _)

end Resolver

/-- Whatever a stage without a version leaves for another one to read, that one would have found the same. -/
def Channel.Steady [Regex] (c : Channel) (files : FileTree) (root : String) : Prop :=
  ∀ a ∈ c.stages, ∀ b ∈ c.stages, ∀ content, Resolver.fetched [.directory files root] a.request = .ok content →
    b.request.Follows a.request content → Resolver.fetched [.directory files root] b.request = .ok content

namespace Resolver

theorem foundSteady [Regex] {c : Channel} {files : FileTree} {root : String} (steady : c.Steady files root)
    {s : Resolver} (empty : s.cache.entries = []) (clock : Clock) :
    (Channel.findNexons [.directory files root] clock s c.stages).1.map (·.map Nexon.content)
      = c.stages.map fun stage => fetched [.directory files root] stage.request := by
  have requests (clock : Clock) (stages : List Stage) : (calls clock stages).map (·.2) = stages.map (·.request) := by
    induction stages generalizing clock with
    | nil => rfl
    | cons stage rest ih => exact congrArg (_ :: ·) (ih _)
  have made : ∀ call ∈ calls clock c.stages, ∃ stage ∈ c.stages, stage.request = call.2 := fun call member =>
    List.mem_map.mp (requests clock c.stages ▸ List.mem_map_of_mem member)
  have sourced : Sourced files root (fun r => ∃ stage ∈ c.stages, stage.request = r) s := fun p member => by
    rw [empty] at member
    cases member
  rw [foundAnswers, answersSourced _ made sourced]
  · have through := congrArg (List.map (fetched [.directory files root])) (requests clock c.stages)
    rwa [List.map_map, List.map_map] at through
  · rintro _ _ content ⟨a, among, rfl⟩ ⟨b, amongToo, rfl⟩ answered follows
    exact steady a among b amongToo content answered follows

end Resolver

end Conduit
