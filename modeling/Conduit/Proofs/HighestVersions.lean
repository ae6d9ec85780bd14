import Conduit.Proofs.SeparateNexons
import Conduit.Proofs.Tables

/-! The version that is found where none is asked for. Of the entries of a directory only those named for a version count,
the highest of these is read, and neither the order of the entries nor any other entry is of matter. -/
namespace Conduit

/-! The names of files. -/

namespace FileTree

theorem stemOfJson {stem : String} (filled : stem ≠ "") : jsonStem? (stem ++ ".json") = some stem := by
  have front : (stem.toList ++ ".json".toList).length - 5 = stem.toList.length := by
    rw [List.length_append]
    exact Nat.add_sub_cancel _ 5
  have some : stem.toList ≠ [] := fun none => filled (String.toList_eq_nil_iff.mp none)
  simp only [jsonStem?, String.toList_append, front, List.drop_left, List.take_left, String.ofList_toList]
  exact if_pos (by simpa using some)

theorem jsonOfStem {name stem : String} (found : jsonStem? name = some stem) : name = stem ++ ".json" := by
  simp only [jsonStem?] at found
  split at found
  next ends =>
    simp only [Bool.and_eq_true, decide_eq_true_eq] at ends
    cases found
    rw [← String.toList_inj, String.toList_append, String.toList_ofList, ← ends.1, List.take_append_drop]
  next => cases found

theorem listedThere {t : FileTree} {path : String} {names : List String} (listed : t.list path = .ok names) :
    ∃ route, t.locate path = .ok route ∧ t.node? route = some .directory ∧
      ∀ name ∈ names, (t.node? (route ++ [name])).isSome := by
  rw [list] at listed
  cases located : t.locate path with
  | error reason => rw [located] at listed; cases listed
  | ok route =>
    rw [located] at listed
    simp only [bind, Except.bind] at listed
    split at listed
    · cases listed
    · cases listed
    next entered =>
      cases listed
      refine ⟨route, rfl, entered, fun name among => ?_⟩
      obtain ⟨p, pair, rfl⟩ := List.mem_map.mp ((Table.namesOfList _ _).mp among)
      obtain ⟨below, inside, rfl⟩ := List.mem_map.mp pair
      obtain ⟨n, stored, first⟩ := List.mem_filterMap.mp inside
      split at first
      next under =>
        obtain ⟨rest, same⟩ := List.isPrefixOf_iff_prefix.mp under
        rw [← same, List.drop_left] at first
        obtain ⟨more, rfl⟩ := List.head?_eq_some_iff.mp first
        have within : t.nodes.any (fun n => (route ++ [below]).isPrefixOf n.1) = true :=
          List.any_eq_true.mpr ⟨n, stored, List.isPrefixOf_iff_prefix.mpr ⟨more, by rw [← same]; simp⟩⟩
        unfold node?
        split
        · rfl
        · rw [within, Bool.or_true]
          rfl
      next => cases first

theorem listedRead {t : FileTree} {root id name : String} {names : List String} (dir : IsName id) (file : IsName name)
    (listed : t.list (join root id) = .ok names) (among : name ∈ names) :
    t.readText (join (join root id) name) ≠ .error .notFound := by
  obtain ⟨route, located, entered, there⟩ := listedThere listed
  have below : t.locate (join (join root id) name) = .ok (route ++ [name]) := by
    rw [locateJoined dir] at located
    rw [locateJoined file, reachJoined file, located]
    exact walkDown file entered
  obtain ⟨node, found⟩ := Option.isSome_iff_exists.mp (there name among)
  rw [readText, read, below]
  simp only [bind, Except.bind, found]
  cases node with
  | directory => simp
  | file content =>
    simp only [pure, Except.pure]
    split <;> simp

end FileTree

/-! Versions that entries are named for. -/

namespace Version

def fileName (v : Version) : String := v.text ++ ".json"

def Named (names : List String) (v : Version) : Prop := v.Sound ∧ v.fileName ∈ names

structure Highest (names : List String) (v : Version) : Prop where
  named : v.Named names
  above : ∀ u : Version, u.Named names → u.rank ≤ v.rank

theorem namedIff {names : List String} {v : Version} :
    v ∈ names.filterMap (fun name => (FileTree.jsonStem? name).bind parse?) ↔ v.Named names := by
  rw [List.mem_filterMap]
  constructor
  · rintro ⟨name, among, read⟩
    obtain ⟨stem, found, parsed⟩ := Option.bind_eq_some_iff.mp read
    obtain ⟨sound, rfl⟩ := parsedIff.mp parsed
    rw [FileTree.jsonOfStem found] at among
    exact ⟨sound, among⟩
  · rintro ⟨sound, among⟩
    have parsed := parsedIff.mpr ⟨sound, rfl⟩
    have filled : v.text ≠ "" := fun none => by
      rw [none, show parse? "" = Option.none by decide] at parsed
      cases parsed
    exact ⟨v.fileName, among, Option.bind_eq_some_iff.mpr ⟨v.text, FileTree.stemOfJson filled, parsed⟩⟩

theorem Highest.unique {names : List String} {v w : Version} (first : v.Highest names)
    (second : w.Highest names) : v = w :=
  rankInjective (le_antisymm (second.above v first.named) (first.above w second.named))

end Version

namespace NexonSource

theorem latestHighest {names : List String} {v : Version} : latestOf names = some v ↔ v.Highest names := by
  rw [latestOf, Version.latestSome, Version.namedIff]
  constructor
  · rintro ⟨named, above⟩
    exact ⟨named, fun u other => above u (Version.namedIff.mpr other)⟩
  · rintro ⟨named, above⟩
    exact ⟨named, fun u other => above u (Version.namedIff.mp other)⟩

theorem latestUnnamed {names : List String} : latestOf names = none ↔ ∀ v : Version, ¬ v.Named names := by
  rw [latestOf, Version.latestNone, List.eq_nil_iff_forall_not_mem]
  exact forall_congr' fun v => not_congr Version.namedIff

/-! What is fetched. -/

def Entries (files : FileTree) (dir : String) (names : List String) : Prop :=
  files.list dir = .ok names ∨ files.list dir = .error .notFound ∧ names = []

def fetchListed (files : FileTree) (dir : String) (names : List String) : SourceReply :=
  match latestOf names with
  | none => .absent
  | some v => readVersion files dir v.text

structure SameVersions (files files' : FileTree) (dir : String) (names names' : List String) : Prop where
  named : ∀ v : Version, v.Named names' ↔ v.Named names
  texts : ∀ v : Version, v.Named names →
    files'.readText (FileTree.join dir v.fileName) = files.readText (FileTree.join dir v.fileName)

theorem sameLatest {names names' : List String} (same : ∀ v : Version, v.Named names' ↔ v.Named names) :
    latestOf names' = latestOf names := by
  cases latest : latestOf names with
  | none =>
    have unnamed := latestUnnamed.mp latest
    exact latestUnnamed.mpr fun v named => unnamed v ((same v).mp named)
  | some v =>
    have highest := latestHighest.mp latest
    exact latestHighest.mpr ⟨(same v).mpr highest.named, fun u named => highest.above u ((same u).mp named)⟩

theorem SameVersions.fetchListed {files files' : FileTree} {dir : String} {names names' : List String}
    (same : SameVersions files files' dir names names') :
    fetchListed files' dir names' = NexonSource.fetchListed files dir names := by
  unfold NexonSource.fetchListed
  rw [sameLatest same.named]
  cases latest : latestOf names with
  | none => rfl
  | some v =>
    have text := same.texts v (latestHighest.mp latest).named
    rw [Version.fileName] at text
    simp only [readVersion, text]

section

variable {files : FileTree} {root id : String} {names : List String} (segment : isSegment id = true)
  (entries : Entries files (FileTree.join root id) names)
include segment entries

theorem fetchEntries : fetchFrom files root id none = fetchListed files (FileTree.join root id) names := by
  rw [fetchFrom, if_neg (by simp [segment])]
  rcases entries with listed | ⟨missing, rfl⟩
  · simp only [latestIn, listed, fetchListed]
    cases latestOf names <;> rfl
  · simp only [latestIn, missing]
    rfl

theorem namedPresent {v : Version} (named : v.Named names) :
    readVersion files (FileTree.join root id) v.text ≠ .absent := by
  have listed : files.list (FileTree.join root id) = .ok names := by
    rcases entries with listed | ⟨-, rfl⟩
    · exact listed
    · cases named.2
  have there := FileTree.listedRead (segmentName segment) (versionName named.1.textPlain) listed named.2
  simp only [readVersion]
  split
  next missing => exact absurd missing there
  next => simp
  next => split <;> simp

end

theorem highestFetched {files : FileTree} {root id : String} {names : List String}
    (entries : Entries files (FileTree.join root id) names) :
    (isSegment id = false → fetchFrom files root id none = .absent) ∧
    (isSegment id = true →
      (fetchFrom files root id none = .absent ↔ ∀ v : Version, ¬ v.Named names) ∧
      (∀ v : Version, v.Named names → ∃ w : Version, w.Highest names ∧ (∀ u : Version, u.Highest names → u = w) ∧
        fetchFrom files root id none = readVersion files (FileTree.join root id) w.text) ∧
      (∀ listed : List String, listed.Perm names →
        fetchListed files (FileTree.join root id) listed = fetchFrom files root id none) ∧
      ∀ (files' : FileTree) (names' : List String), Entries files' (FileTree.join root id) names' →
        SameVersions files files' (FileTree.join root id) names names' →
        fetchFrom files' root id none = fetchFrom files root id none) := by
  refine ⟨fun other => ?_, fun segment => ⟨?_, fun v named => ?_, fun listed perm => ?_, ?_⟩⟩
  · rw [fetchFrom, if_pos (by simp [other])]
  · rw [fetchEntries segment entries, ← latestUnnamed, fetchListed]
    constructor
    · intro absent
      cases latest : latestOf names with
      | none => rfl
      | some v =>
        rw [latest] at absent
        exact absurd absent (namedPresent segment entries (latestHighest.mp latest).named)
    · intro none
      rw [none]
  · rw [fetchEntries segment entries, fetchListed]
    cases latest : latestOf names with
    | none => exact absurd named (latestUnnamed.mp latest v)
    | some w =>
      have highest := latestHighest.mp latest
      exact ⟨w, highest, fun u other => other.unique highest, rfl⟩
  · have named : ∀ v : Version, v.Named listed ↔ v.Named names := fun v => and_congr_right' perm.mem_iff
    rw [fetchEntries segment entries]
    exact SameVersions.fetchListed ⟨named, fun _ _ => rfl⟩
  · intro files' names' entries' same
    rw [fetchEntries segment entries, fetchEntries segment entries', same.fetchListed]

def preReleases : FileTree where
  nodes := [(["nexons", "n", "1.0.0-9.json"], .file []), (["nexons", "n", "1.0.0-10.json"], .file []),
    (["nexons", "n", "1.0.0.md"], .file [])]

theorem tenAboveNine : Entries preReleases (FileTree.join "nexons" "n") ["1.0.0-10.json", "1.0.0-9.json", "1.0.0.md"] ∧
    fetchFrom preReleases "nexons" "n" none = readVersion preReleases (FileTree.join "nexons" "n") "1.0.0-10" := by
  have entries : Entries preReleases (FileTree.join "nexons" "n") ["1.0.0-10.json", "1.0.0-9.json", "1.0.0.md"] :=
    .inl (by decide +kernel)
  have tenth : Version.Highest ["1.0.0-10.json", "1.0.0-9.json", "1.0.0.md"] ⟨1, 0, 0, ["10"], []⟩ :=
    latestHighest.mp (by decide +kernel)
  obtain ⟨-, found⟩ := highestFetched entries
  obtain ⟨-, reads, -⟩ := found (by decide)
  obtain ⟨w, highest, -, read⟩ := reads _ tenth.named
  rw [highest.unique tenth] at read
  exact ⟨entries, read⟩

theorem unsafeNameUnread : ¬ ∀ (files : FileTree) (root id : String) (names : List String),
    Entries files (FileTree.join root id) names →
      (fetchFrom files root id none = .absent ↔ ∀ v : Version, ¬ v.Named names) := by
  intro always
  have entries : Entries ⟨[(["nexons", "a b", "1.0.0.json"], .file [])], []⟩ (FileTree.join "nexons" "a b")
      ["1.0.0.json"] := .inl (by decide +kernel)
  have first : Version.Named ["1.0.0.json"] ⟨1, 0, 0, [], []⟩ :=
    Version.namedIff.mp (by decide +kernel)
  exact (always _ _ _ _ entries).mp rfl _ first

end NexonSource

end Conduit
