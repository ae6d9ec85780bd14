import Conduit.Bundle.Contents
import Conduit.Proofs.JsonText
import Conduit.Proofs.PackedBytes
import Conduit.Proofs.TapeArchives

/-! The files of a bundle are read as they were written, each artifact up to the depth that a reader allows. -/
namespace Conduit

/-! Settings as a module. -/

theorem Settings.bodyRendered (cs : List Char) :
    body? (opening.toList ++ (cs ++ closing.toList)) = some cs := by
  have front : opening.toList.isPrefixOf (opening.toList ++ (cs ++ closing.toList)) = true := by simp
  have after : (opening.toList ++ (cs ++ closing.toList)).drop opening.length = cs ++ closing.toList :=
    List.drop_left' rfl
  have trimmed : Text.trimEnd (cs ++ closing.toList) = cs ++ [';'] := by
    have shape : (cs ++ closing.toList).reverse = '\n' :: ';' :: cs.reverse := by simp [closing]
    rw [Text.trimEnd, shape, List.dropWhile_cons_of_pos rfl, List.dropWhile_cons_of_neg (by decide)]
    simp
  simp only [body?, front, if_true, after, trimmed, List.getLast?_concat, List.dropLast_concat]

theorem Settings.parseRender {v : Json} (readable : v.Readable) :
    parse (Text.utf8 (render v)) = .ok v := by
  have text : (render v).toList = opening.toList ++ (v.pretty.toList ++ closing.toList) := by
    simp [render]
  simp only [parse, Text.ofUtf8Utf8, parseText, text, bodyRendered, String.ofList_toList,
    Json.parsePretty readable]
  rfl

theorem Json.parseBytesPretty {v : Json} (readable : v.Readable) :
    parseBytes (Text.utf8 v.pretty) = .ok v := by
  simp only [parseBytes, Text.ofUtf8Utf8, parsePretty readable]

namespace Bundle

/-! Files. -/

def entriesOf (files : Table String) : List Tar.Entry := files.map fun f => ⟨Text.utf8 f.1, Text.utf8 f.2⟩

theorem fileFound {files : Table String} (ordered : Table.Ordered files) (name : String) :
    file? (entriesOf files) name = (files.get? name).map Text.utf8 := by
  have same (f : String × String) : (Text.utf8 f.1 = Text.utf8 name) = (f.1 = name) :=
    propext ⟨Text.utf8_injective, fun equal => congrArg Text.utf8 equal⟩
  rw [← Table.findLast ordered, file?, entriesOf, ← List.map_reverse, List.find?_map, Option.map_map, Option.map_map]
  simp only [Function.comp_def, same]

theorem artifactFilesSorted (a : Artifacts) :
    artifactFiles a =
      [(Artifacts.credentialsFile, a.credentialsMap.pretty), (Artifacts.flowsFile, a.flows.pretty),
       (Artifacts.manifestFile, a.manifest.pretty), (Artifacts.settingsFile, Settings.render a.settings)] := by
  simp only [artifactFiles, Table.ofList, Table.insert, Artifacts.credentialsFile, Artifacts.flowsFile,
    Artifacts.manifestFile, Artifacts.settingsFile, List.foldl_cons, List.foldl_nil, String.reduceLT, String.reduceEq,
    if_true, if_false]

theorem filesOrdered (o : BundleOptions) (a : Artifacts) (hashes : ArtifactHashes) (root : String) :
    Table.Ordered (files o a hashes root) := by
  unfold files
  split
  · exact Table.insertOrdered _ _ (Table.ofListOrdered _)
  · exact Table.ofListOrdered _

def fileNames : List String :=
  [metadataFile, Artifacts.credentialsFile, Artifacts.flowsFile, Artifacts.manifestFile, Artifacts.settingsFile]

theorem filesNamed {o : BundleOptions} {a : Artifacts} {hashes : ArtifactHashes} {root : String} {f : String × String}
    (member : f ∈ files o a hashes root) : f.1 ∈ fileNames := by
  have artifact (member : f ∈ artifactFiles a) : f.1 ∈ fileNames := by
    rw [artifactFilesSorted] at member
    simp only [List.mem_cons, List.not_mem_nil, or_false] at member
    rcases member with rfl | rfl | rfl | rfl <;> simp [fileNames]
  unfold files at member
  split at member
  · rcases Table.memInsert member with rfl | member
    · simp [fileNames]
    · exact artifact member
  · exact artifact member

theorem fileNamesPlain : ∀ name ∈ fileNames, Tar.Named (Text.utf8 name) := by
  have short : ∀ name ∈ fileNames, (Text.utf8 name).length ≤ 100 := by decide
  have plain : fileNames.all (fun name => (Text.utf8 name).all (· ≠ 0)) = true := by decide
  refine fun name member => ⟨short name member, fun b inside => ?_⟩
  exact of_decide_eq_true (List.all_eq_true.mp (List.all_eq_true.mp plain name member) b inside)

theorem fileNamesLetters : ∀ name ∈ fileNames, ∃ b ∈ (Text.utf8 name).head?, b ≠ 0x1F := by decide

/-! The archive. -/

theorem archiveRead {o : BundleOptions} {a : Artifacts} {hashes : ArtifactHashes} {root : String}
    (small : (archive (files o a hashes root)).length < 2 ^ 64) :
    Tar.read (archive (files o a hashes root)) = .ok (entriesOf (files o a hashes root)) := by
  refine Tar.readWrite fun e member => ?_
  obtain ⟨f, file, rfl⟩ := List.mem_map.mp member
  have named := fileNamesPlain f.1 (filesNamed file)
  exact ⟨named, Nat.le_trans (Tar.entryWithin member named) (Nat.le_of_lt small)⟩

theorem archiveNotPacked {o : BundleOptions} {a : Artifacts} {hashes : ArtifactHashes} {root : String} :
    Gzip.isPacked (archive (files o a hashes root)) = false := by
  cases same : files o a hashes root with
  | nil => rfl
  | cons f rest =>
    obtain ⟨b, first, letter⟩ := fileNamesLetters f.1 (filesNamed (same ▸ List.mem_cons_self))
    obtain ⟨others, name⟩ : ∃ others, Text.utf8 f.1 = b :: others := List.head?_eq_some_iff.mp first
    simp only [archive, List.map_cons, Tar.write, List.flatMap_cons, Tar.writeEntry, Tar.header, Tar.headerFront, name,
      List.cons_append, Gzip.isPacked, Gzip.magic, List.isPrefixOf, beq_eq_false_iff_ne.mpr letter.symm,
      Bool.false_and]

theorem unpackPacked {limit : Nat} {bytes : Bytes} (plain : Gzip.isPacked bytes = false) (fits : bytes.length ≤ limit)
    (compression : Compression) : unpack limit (packed compression bytes) = .ok bytes := by
  cases compression with
  | gzip => simp only [unpack, packed, Gzip.packIsPacked, Gzip.unpackPack fits, if_true]
  | none =>
    simp only [unpack, packed, plain, Bool.false_eq_true, if_false]
    exact if_neg (Nat.not_lt.mpr fits)

theorem packedInjective {compression : Compression} {x y : Bytes}
    (same : packed compression x = packed compression y) : x = y := by
  cases compression with
  | none => exact same
  | gzip =>
    have first := Gzip.unpackPack (Nat.le_max_left x.length y.length)
    have second := Gzip.unpackPack (Nat.le_max_right x.length y.length)
    rw [show Gzip.pack x = Gzip.pack y from same, second] at first
    exact (Except.ok.inj first).symm

theorem readFiles {o : BundleOptions} {a : Artifacts} {hashes : ArtifactHashes} {root : String} {limit : Nat}
    (within : (archive (files o a hashes root)).length ≤ limit) (small : limit < 2 ^ 64) :
    read limit (packed o.compression (archive (files o a hashes root)))
      = contentsOf (entriesOf (files o a hashes root)) := by
  have entries := archiveRead (Nat.lt_of_le_of_lt within small)
  simp only [read, unpackPacked archiveNotPacked within, entries, Outcome.mapErrorPassed, bind, Except.bind]

/-! The contents. -/

theorem embeddedWithin (o : BundleOptions) (a : Artifacts) (hashes : ArtifactHashes) (root : String) :
    (embedded o a hashes root).Within 3 := by
  have content (c : ContentHash) : c.toJson.Within 1 := by
    refine Json.withinPairs ?_
    simp only [List.forall_mem_cons, List.not_mem_nil, false_imp_iff, implies_true, and_true]
    exact ⟨Json.withinStr 0 _, Json.withinStr 0 _, Json.withinNat 0 _⟩
  have digests : hashes.toJson.Within 2 := by
    refine Json.withinPairs fun p member => ?_
    obtain ⟨c, -, same⟩ := List.mem_map.mp (List.of_mem_zip member).2
    rw [← same]
    exact content c
  have listed : (Json.arr ((listing (artifactFiles a)).map BundleFile.toJson)).Within 2 := by
    refine Json.withinArr fun v member => ?_
    obtain ⟨f, -, rfl⟩ := List.mem_map.mp member
    refine Json.withinPairs ?_
    simp only [List.forall_mem_cons, List.not_mem_nil, false_imp_iff, implies_true, and_true]
    exact ⟨Json.withinStr 0 _, Json.withinNat 0 _⟩
  refine @Json.withinPairs 2 _ ?_
  simp only [List.forall_mem_cons, List.not_mem_nil, false_imp_iff, implies_true, and_true]
  exact ⟨Json.withinStr 2 _, Json.withinStr 2 _, Json.withinStr 2 _, Json.withinStr 2 _, Json.withinStr 2 _, listed,
    digests, Json.withinStr 2 _⟩

theorem embeddedReadable (o : BundleOptions) (a : Artifacts) (hashes : ArtifactHashes) (root : String) :
    (embedded o a hashes root).Readable := Json.withinMore (embeddedWithin o a hashes root) (by decide)

section

variable {o : BundleOptions} {a : Artifacts} {hashes : ArtifactHashes} {root : String}

theorem artifactText {name : String} (artifact : name ≠ metadataFile) :
    (files o a hashes root).get? name = (artifactFiles a).get? name := by
  unfold files
  split
  · rw [Table.getInsert, if_neg artifact]
  · rfl

theorem metadataText :
    (files o a hashes root).get? metadataFile
      = if o.includeMetadata then some (embedded o a hashes root).pretty else none := by
  unfold files
  split
  · rw [Table.getInsert, if_pos rfl]
  · simp [artifactFilesSorted, Table.get?, metadataFile, Artifacts.credentialsFile, Artifacts.flowsFile,
      Artifacts.manifestFile, Artifacts.settingsFile]

theorem jsonRead {name : String} {v : Json} (text : (files o a hashes root).get? name = some v.pretty)
    (readable : v.Readable) : readJson (entriesOf (files o a hashes root)) name = .ok v := by
  simp only [readJson, fileFound (filesOrdered ..), text, Option.map_some, Json.parseBytesPretty readable]
  rfl

theorem settingsRead (settings : a.settings.Readable) :
    readSettings (entriesOf (files o a hashes root)) = .ok a.settings := by
  have text : (files o a hashes root).get? Artifacts.settingsFile = some (Settings.render a.settings) := by
    rw [artifactText (by decide), artifactFilesSorted]
    rfl
  simp only [readSettings, fileFound (filesOrdered ..), text, Option.map_some, Settings.parseRender settings]
  rfl

theorem flowsText : (files o a hashes root).get? Artifacts.flowsFile = some a.flows.pretty := by
  rw [artifactText (by decide), artifactFilesSorted]
  rfl

theorem contentsRead (flows : a.flows.Readable) (settings : a.settings.Readable) (manifest : a.manifest.Readable)
    (credentials : a.credentialsMap.Readable) (described : (embedded o a hashes root).Readable) :
    contentsOf (entriesOf (files o a hashes root))
      = .ok ⟨a, if o.includeMetadata then some (embedded o a hashes root) else none⟩ := by
  have readFlows : readJson (entriesOf (files o a hashes root)) Artifacts.flowsFile = .ok a.flows :=
    jsonRead flowsText flows
  have readManifest : readJson (entriesOf (files o a hashes root)) Artifacts.manifestFile = .ok a.manifest :=
    jsonRead (by rw [artifactText (by decide), artifactFilesSorted]; rfl) manifest
  have readCredentials : readJson (entriesOf (files o a hashes root)) Artifacts.credentialsFile = .ok a.credentialsMap :=
    jsonRead (by rw [artifactText (by decide), artifactFilesSorted]; rfl) credentials
  simp only [contentsOf, settingsRead settings, readFlows, readManifest, readCredentials, fileFound (filesOrdered ..),
    metadataText, bind, Except.bind]
  cases included : o.includeMetadata with
  | false => rfl
  | true =>
    have readEmbedded : readJson (entriesOf (files o a hashes root)) metadataFile = .ok (embedded o a hashes root) :=
      jsonRead (by rw [metadataText, if_pos included]) described
    simp only [if_true, Option.map_some, readEmbedded]
    rfl

theorem contentsRefused (ordered : a.flows.Ordered) (deep : 127 < a.flows.depth) (settings : a.settings.Readable) :
    ∃ reason, contentsOf (entriesOf (files o a hashes root)) = .error (.malformed Artifacts.flowsFile (.json reason)) := by
  obtain ⟨reason, refused⟩ := Json.parseDeep ordered deep
  have readFlows : readJson (entriesOf (files o a hashes root)) Artifacts.flowsFile
      = .error (.malformed Artifacts.flowsFile (.json reason)) := by
    simp only [readJson, fileFound (filesOrdered ..), flowsText, Option.map_some, Json.parseBytes, Text.ofUtf8Utf8, refused]
    rfl
  exact ⟨reason, by simp only [contentsOf, settingsRead settings, readFlows, bind, Except.bind]⟩

end

end Bundle

end Conduit
