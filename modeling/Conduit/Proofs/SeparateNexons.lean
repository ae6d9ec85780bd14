import Conduit.Proofs.AlikeResolvers
import Conduit.Proofs.JoinedPaths
import Conduit.Proofs.Outcomes
import Conduit.Proofs.VersionOrder
import Conduit.Proofs.VersionText

/-! Directories that hold the same of every nexon but one. Whatever becomes of that one, the others are found to be what
they are: no path leads from one nexon to the files of another, and no two of them meet under one key of the cache. -/
namespace Conduit

/-! What directories hold. -/

namespace NexonSource

structure SameBut (name : String) (files files' : FileTree) (root : String) : Prop where
  lists : ∀ id, isSegment id → id ≠ name → files.list (FileTree.join root id) = files'.list (FileTree.join root id)
  texts : ∀ id, isSegment id → id ≠ name → ∀ version : String, Plain version.toList →
    files.readText (FileTree.join (FileTree.join root id) (version ++ ".json"))
      = files'.readText (FileTree.join (FileTree.join root id) (version ++ ".json"))

theorem plainNotSlash {cs : List Char} (plain : Plain cs) : '/' ∉ cs := by
  intro member
  have wrong : isSegmentChar '/' = true := plain _ member
  exact absurd wrong (by decide)

theorem segmentName {s : String} (segment : isSegment s) : FileTree.IsName s := by
  have slash := plainNotSlash (plainOfSegment segment)
  simp only [isSegment, Bool.and_eq_true, decide_eq_true_eq] at segment
  obtain ⟨⟨⟨filled, here⟩, above⟩, -⟩ := segment
  exact ⟨slash, filled, here, above⟩

theorem versionName {version : String} (plain : Plain version.toList) : FileTree.IsName (version ++ ".json") := by
  have slash : '/' ∉ (version ++ ".json").toList := by
    rw [String.toList_append, List.mem_append, not_or]
    exact ⟨plainNotSlash plain, by decide⟩
  have length : 5 ≤ (version ++ ".json").length := by
    have suffix : ".json".length = 5 := by decide
    rw [String.length_append, suffix]
    omega
  refine ⟨slash, fun same => ?_, fun same => ?_, fun same => ?_⟩ <;>
    exact absurd length (by rw [same]; decide)

theorem SameBut.ofOutside {name : String} {files files' : FileTree} {root : String} {base : Route}
    (same : FileTree.SameOutside (base ++ [name]) files files')
    (first : files.reach root = .ok base ∧ files.node? base = some .directory)
    (second : files'.reach root = .ok base ∧ files'.node? base = some .directory) : SameBut name files files' root where
  lists _ segment other := FileTree.listBeside same first second (segmentName segment) other
  texts _ segment other _ plain := FileTree.textBeside same first second (segmentName segment) other (versionName plain)

theorem latestPlain {names : List String} {v : Version} (latest : latestOf names = some v) : Plain v.text.toList := by
  obtain ⟨name, -, read⟩ := List.mem_filterMap.mp (Version.latestSome.mp latest).1
  obtain ⟨stem, -, parsed⟩ := Option.bind_eq_some_iff.mp read
  exact (Version.parsedIff.mp parsed).1.textPlain

theorem latestInPlain {files : FileTree} {dir : String} {v : Version} (latest : latestIn files dir = .ok (some v)) :
    Plain v.text.toList := by
  unfold latestIn at latest
  split at latest
  · exact latestPlain (Except.ok.inj latest)
  · cases latest
  · cases latest

theorem SameBut.fetch {name : String} {files files' : FileTree} {root : String} (same : SameBut name files files' root)
    {id : String} (other : id ≠ name) (version : Option String) :
    fetchFrom files root id version = fetchFrom files' root id version := by
  unfold fetchFrom
  split
  · rfl
  next segments =>
    simp only [Bool.or_eq_true, Bool.not_eq_true', not_or, Bool.not_eq_false] at segments
    obtain ⟨segment, given⟩ := segments
    have read (v : String) (plain : Plain v.toList) :
        readVersion files (FileTree.join root id) v = readVersion files' (FileTree.join root id) v := by
      simp only [readVersion, same.texts id segment other v plain]
    have latest : latestIn files (FileTree.join root id) = latestIn files' (FileTree.join root id) := by
      simp only [latestIn, same.lists id segment other]
    cases version with
    | some v => exact read v (plainOfSegment given)
    | none =>
      simp only [latest]
      split
      · rfl
      · rfl
      next v found => exact read v.text (latestInPlain found)

end NexonSource

def Elsewhere (name key : String) : Prop :=
  ∀ version : String, NexonSource.Plain name.toList → NexonSource.Plain version.toList →
    key ≠ cacheKey name (some version)

theorem NexonRequest.elsewhere {r : NexonRequest} {name : String} (other : r.id ≠ name) : Elsewhere name r.key :=
  fun _ plain version same => other (cacheKeyParts same plain version).1

namespace Resolver

variable {name : String} {files files' : FileTree} {root : String} {n : Nat} {clock clock' : Clock} {s s' : Resolver}
  {r : NexonRequest}

theorem seenElsewhere [Regex] {t : Readings} {key : String} (elsewhere : Elsewhere r.id key) (later : Nat) :
    ((s.resolve [.directory files root] t r).2.cache.fresh? later key).map Nexon.content
      = ((s.looked t.looks r).cache.fresh? later key).map Nexon.content := by
  simp only [resolve]
  split
  next hit found =>
    -- what is answered from the cache was not taken out of it
    have present : ¬ (r.refresh = false ∧ key = r.key ∧ s.cache.fresh? t.looks r.key = none) := by
      rintro ⟨reads, -, absent⟩
      simp [reads, absent] at found
    rw [freshLooked, if_neg present]
  next =>
    split
    next n got =>
      have answered : fetched [.directory files root] r = .ok n.content := by
        rw [← fetchContent (s.looked t.looks r), got]
        rfl
      have answers := fetchedAnswers answered
      obtain ⟨v, parsed⟩ := answers.parsed
      have plain : NexonSource.Plain n.manifest.version.toList := Version.parsePlain parsed
      have asked : key ≠ r.key := by
        rw [NexonRequest.key]
        cases version : r.version with
        | none => exact elsewhere "latest" answers.plainId latestWordPlain
        | some w => exact elsewhere w answers.plainId (answers.version w version ▸ plain)
      have under : key ≠ n.key := by
        rw [Nexon.key, show n.manifest.id = r.id from answers.id]
        exact elsewhere n.manifest.version answers.plainId plain
      rw [seenKept, if_neg fun both => under both.2, if_neg asked]
    next => rfl

theorem fetchedOther [Regex] (same : NexonSource.SameBut name files files' root) (other : r.id ≠ name) :
    fetched [.directory files root] r = fetched [.directory files' root] r := by
  have found : search r [.directory files root] = search r [.directory files' root] := by
    simp only [search, NexonSource.directory, same.fetch other]
  rw [fetched, fetched, fetch, fetch, found]

theorem resolvedOwn [Regex] (alike : Alike (Elsewhere name) (n + 1) clock clock' s s') (own : r.id = name) :
    Alike (Elsewhere name) n clock.next clock'.next (s.resolve [.directory files root] (clock 0) r).2
      (s'.resolve [.directory files' root] (clock' 0) r).2 where
  ttl := ttlResolved.trans (alike.ttl.trans ttlResolved.symm)
  fresh i within key elsewhere := by
    rw [seenElsewhere (own ▸ elsewhere), seenElsewhere (own ▸ elsewhere)]
    exact (alike.looked r).next.fresh i within key elsewhere

def SameFound (name : String) (p p' : Stage × Except TemplateError Nexon) : Prop :=
  p.1 = p'.1 ∧ (p.1.nexonId ≠ name → p.2.map Nexon.content = p'.2.map Nexon.content)

theorem foundOthers [Regex] (same : NexonSource.SameBut name files files' root) (stages : List Stage)
    (alike : Alike (Elsewhere name) stages.length clock clock' s s')
    (ages : Clock.SameAges stages.length s.cache.ttl clock clock') :
    List.Forall₂ (SameFound name)
      (stages.zip (Channel.findNexons [.directory files root] clock s stages).1)
      (stages.zip (Channel.findNexons [.directory files' root] clock' s' stages).1) := by
  induction stages generalizing clock clock' s s' with
  | nil => exact .nil
  | cons stage rest ih =>
    have later {s : Resolver} (t : Readings) (sources : List NexonSource)
        (ages : Clock.SameAges (rest.length + 1) s.cache.ttl clock clock') :
        Clock.SameAges rest.length (s.resolve sources t stage.request).2.cache.ttl clock.next clock'.next := by
      rw [ttlResolved]
      exact ages.next
    by_cases own : stage.nexonId = name
    · have after := @resolvedOwn name files files' root rest.length clock clock' s s' stage.request _ alike own
      exact .cons ⟨rfl, fun other => absurd own other⟩ (ih after (later _ _ ages))
    · obtain ⟨answered, after⟩ := resolvedAlike alike ages (NexonRequest.elsewhere (r := stage.request) own)
        (fetchedOther same own)
      exact .cons ⟨rfl, fun _ => answered⟩ (ih after (later _ _ ages))

end Resolver

end Conduit
