import Conduit.Proofs.BundleContents
import Conduit.Proofs.MerkleClimbs
import Mathlib.Data.List.Induction
import Mathlib.Data.Nat.Digits.Defs

/-! How large a bundle gets, and that there always is one. The line breaks of a text take no more than its levels
and its own size allow; an archive adds to each of its files less than two blocks; and what it says about itself
has the digests, which are of one size, and three texts of its own. -/
namespace Conduit

namespace Text

theorem byteCountNewline (indent : Nat) : byteCount (Json.newline indent) = 2 * indent + 1 := by
  have blank : ' '.utf8Size = 1 := rfl
  have lineEnd : '\n'.utf8Size = 1 := rfl
  simp [byteCount, Json.newline, blank, lineEnd]
  omega

end Text

namespace Json
open Text (byteCount byteCountCons byteCountAppend byteCountNewline)

theorem marksSize : '['.utf8Size = 1 ∧ ']'.utf8Size = 1 ∧ '\x7b'.utf8Size = 1 ∧ '\x7d'.utf8Size = 1
    ∧ ','.utf8Size = 1 ∧ ':'.utf8Size = 1 ∧ ' '.utf8Size = 1 ∧ byteCount [] = 0 := by decide

mutual
theorem spreadWithin {room indent : Nat} (j : Nat) : (v : Json) → 2 * (indent + v.depth) + 2 ≤ room →
    byteCount (spread .pretty indent v) ≤ room * byteCount (spread .compact j v)
  | .arr [], fits => by
    simp only [spread]
    exact Nat.le_mul_of_pos_left _ (by omega)
  | .arr (v :: rest), fits => by
    simp only [depth, depthItems] at fits
    have first := @spreadWithin room (indent + 1) (j + 1) v (by omega)
    have others := @itemsWithin room (indent + 1) (j + 1) rest (by omega)
    simp only [Spacing.pretty, Spacing.compact] at first others
    simp only [spread, Spacing.pretty, Spacing.compact, List.nil_append, byteCountCons, byteCountAppend,
      byteCountNewline, marksSize, Nat.mul_add]
    omega
  | .obj [], fits => by
    simp only [spread]
    exact Nat.le_mul_of_pos_left _ (by omega)
  | .obj ((k, v) :: rest), fits => by
    simp only [depth, depthFields] at fits
    have name : byteCount (quote k) ≤ room * byteCount (quote k) := Nat.le_mul_of_pos_left _ (by omega)
    have first := @spreadWithin room (indent + 1) (j + 1) v (by omega)
    have others := @fieldsWithin room (indent + 1) (j + 1) rest (by omega)
    simp only [Spacing.pretty, Spacing.compact] at first others
    simp only [spread, Spacing.pretty, Spacing.compact, List.nil_append, byteCountCons, byteCountAppend,
      byteCountNewline, marksSize, Nat.mul_add]
    omega
  | .null, fits => by
    simp only [spread]
    exact Nat.le_mul_of_pos_left _ (by omega)
  | .bool true, fits => by
    simp only [spread]
    exact Nat.le_mul_of_pos_left _ (by omega)
  | .bool false, fits => by
    simp only [spread]
    exact Nat.le_mul_of_pos_left _ (by omega)
  | .num n, fits => by
    simp only [spread]
    exact Nat.le_mul_of_pos_left _ (by omega)
  | .str text, fits => by
    simp only [spread]
    exact Nat.le_mul_of_pos_left _ (by omega)
theorem itemsWithin {room indent : Nat} (j : Nat) : (vs : List Json) → 2 * (indent + depthItems vs) + 2 ≤ room →
    byteCount (spreadItems .pretty indent vs) ≤ room * byteCount (spreadItems .compact j vs)
  | [], _ => Nat.zero_le _
  | v :: rest, fits => by
    simp only [depthItems] at fits
    have first := @spreadWithin room indent j v (by omega)
    have others := @itemsWithin room indent j rest (by omega)
    simp only [Spacing.pretty, Spacing.compact] at first others
    simp only [spreadItems, Spacing.pretty, Spacing.compact, List.nil_append, byteCountCons, byteCountAppend,
      byteCountNewline, marksSize, Nat.mul_add]
    omega
theorem fieldsWithin {room indent : Nat} (j : Nat) : (fs : List (String × Json)) →
    2 * (indent + depthFields fs) + 2 ≤ room →
    byteCount (spreadFields .pretty indent fs) ≤ room * byteCount (spreadFields .compact j fs)
  | [], _ => Nat.zero_le _
  | (k, v) :: rest, fits => by
    simp only [depthFields] at fits
    have name : byteCount (quote k) ≤ room * byteCount (quote k) := Nat.le_mul_of_pos_left _ (by omega)
    have first := @spreadWithin room indent j v (by omega)
    have others := @fieldsWithin room indent j rest (by omega)
    simp only [Spacing.pretty, Spacing.compact] at first others
    simp only [spreadFields, Spacing.pretty, Spacing.compact, List.nil_append, byteCountCons, byteCountAppend,
      byteCountNewline, marksSize, Nat.mul_add]
    omega
end

def room (v : Json) : Nat := (2 * v.depth + 2) * byteCount v.compactChars

theorem prettyWithin (v : Json) : (Text.utf8 v.pretty).length ≤ v.room := by
  rw [pretty, Text.byteCountUtf8, room, ← spreadPretty, ← spreadCompact 0]
  exact spreadWithin 0 v (by omega)

/-! The compact form, field by field. -/

def fieldSize (p : String × Json) : Nat := byteCount (quote p.1) + byteCount p.2.compactChars + 2

theorem compactFieldsSize (fields : Fields) : byteCount (compactFields fields) ≤ (fields.map fieldSize).sum := by
  induction fields with
  | nil => exact Nat.le_refl _
  | cons p rest ih =>
    rw [List.map_cons, List.sum_cons, fieldSize]
    cases rest with
    | nil =>
      simp only [compactFields, byteCountCons, byteCountAppend, marksSize]
      omega
    | cons q rest =>
      simp only [compactFields, byteCountCons, byteCountAppend, marksSize] at ih ⊢
      omega

theorem compactItemsSize (items : List Json) :
    byteCount (compactItems items) ≤ (items.map fun v => byteCount v.compactChars + 1).sum := by
  induction items with
  | nil => exact Nat.le_refl _
  | cons v rest ih =>
    rw [List.map_cons, List.sum_cons]
    cases rest with
    | nil =>
      simp only [compactItems]
      omega
    | cons w rest =>
      simp only [compactItems, byteCountCons, byteCountAppend, marksSize] at ih ⊢
      omega

theorem insertSize (p : String × Json) (fields : Fields) :
    ((Table.insert p.1 p.2 fields).map fieldSize).sum ≤ (fields.map fieldSize).sum + fieldSize p := by
  induction fields with
  | nil => simp [Table.insert]
  | cons q rest ih =>
    obtain ⟨k, v⟩ := p
    obtain ⟨j, w⟩ := q
    unfold Table.insert
    split_ifs <;> simp only [List.map_cons, List.sum_cons] at ih ⊢ <;> omega

theorem pairsSize (pairs : List (String × Json)) :
    byteCount (ofPairs pairs).compactChars ≤ (pairs.map fieldSize).sum + 2 := by
  have fields : ((Table.ofList pairs).map fieldSize).sum ≤ (pairs.map fieldSize).sum := by
    induction pairs using List.reverseRecOn with
    | nil => exact Nat.le_refl _
    | append_singleton pairs p ih =>
      have last := insertSize p (Table.ofList pairs)
      rw [Table.ofList] at ih last ⊢
      rw [List.foldl_append, List.map_append, List.sum_append, List.foldl_cons, List.foldl_nil, List.map_singleton,
        List.sum_singleton]
      exact Nat.le_trans last (Nat.add_le_add_right ih _)
  have text := compactFieldsSize (Table.ofList pairs)
  simp only [ofPairs, compactChars, byteCountCons, byteCountAppend, marksSize]
  omega

theorem digitsSize {cs : List Char} (digits : ∀ c ∈ cs, c.toNat < 128) : byteCount cs = cs.length := by
  rw [← Text.byteCountUtf8, Text.utf8Ascii digits, Text.asciiBytes, List.length_map]

theorem natSize (n : Nat) : byteCount (nat n).compactChars ≤ 20 := by
  have digits : ∀ c ∈ Nat.toDigits 10 (UInt64.ofNat n).toNat, c.toNat < 128 := fun c member => by
    have digit := toDigitsDigits _ c member
    simp only [isDigit, Bool.and_eq_true, decide_eq_true_eq] at digit
    exact Nat.lt_of_le_of_lt digit.2 (by decide)
  rw [nat, Number.ofNat, compactChars, numberText, digitsSize digits]
  exact Nat.toDigits_length 10 _ 20 (by decide) (Nat.lt_trans (UInt64.toNat_lt _) (by decide))

theorem digitPlain : ∀ n < 16, escape (Nat.digitChar n) = [Nat.digitChar n] := by decide

theorem hexSize (bytes : Bytes) : byteCount (quote (Text.Hex.encode bytes)) = 2 * bytes.length + 2 := by
  have digits {c : Char} (member : c ∈ bytes.flatMap Text.Hex.pairText) : c.toNat < 128 ∧ escape c = [c] := by
    obtain ⟨n, small, rfl⟩ := Text.Hex.encodeDigits member
    exact ⟨(Text.Hex.digitLow n small).1, digitPlain n small⟩
  have plain : (bytes.flatMap Text.Hex.pairText).flatMap escape = bytes.flatMap Text.Hex.pairText := by
    rw [List.flatMap_congr fun c member => (digits member).2, List.flatMap_singleton']
  have pairs : (bytes.flatMap Text.Hex.pairText).length = 2 * bytes.length := by
    have pair (b : UInt8) : (Text.Hex.pairText b).length = 2 := rfl
    simp [List.length_flatMap, pair, Nat.mul_comm]
  have mark : '"'.utf8Size = 1 := rfl
  rw [quote, quoteChars, Text.Hex.encode, String.toList_ofList, plain, byteCountAppend, byteCountCons,
    digitsSize fun c member => (digits member).1, pairs]
  simp only [byteCount, mark, List.map_cons, List.map_nil, List.sum_cons, List.sum_nil]
  omega

end Json

namespace Merkle

theorem topSized (level : List Bytes) (sized : Sized level) : ∀ h ∈ top level, h.length = 32 := by
  induction level using levels.induct with
  | case1 level one =>
    rw [top, levels, if_pos one]
    exact fun h first => sized h (List.mem_of_mem_head? first)
  | case2 level more ih =>
    rw [topAbove more]
    exact ih (parentsSized level)

theorem rootSized {leaves : List String} {tree : Tree} (grown : ofLeaves leaves = .ok tree) :
    tree.rootBytes.length ≤ 32 := by
  have reached := rootReached grown
  obtain ⟨-, contents, -, rfl⟩ := grownFrom grown
  exact Nat.le_of_eq (topSized _ (leavesSized contents) _ reached)

end Merkle

namespace Tar

theorem paddingWithin (length : Nat) : paddingOf length < blockSize := Nat.mod_lt _ (by decide)

theorem writeWithin {entries : List Entry} (named : ∀ e ∈ entries, Named e.name) :
    (write entries).length ≤ (entries.map fun e => e.data.length).sum + 2 * blockSize * (entries.length + 1) := by
  rw [write, List.length_append, zerosLength]
  induction entries with
  | nil => simp
  | cons e rest ih =>
    obtain ⟨first, others⟩ := List.forall_mem_cons.mp named
    have size : (writeEntry e).length ≤ e.data.length + 2 * blockSize := by
      have padding := paddingWithin e.data.length
      rw [writeEntry, List.length_append, List.length_append, headerLength first, zerosLength]
      omega
    have after := ih others
    rw [List.flatMap_cons, List.length_append, List.map_cons, List.sum_cons, List.length_cons, Nat.mul_add _ (_ + 1)]
    omega

end Tar

def Artifacts.room (a : Artifacts) : Nat :=
  a.flows.room + a.settings.room + a.manifest.room + a.credentialsMap.room + 6 * 1024

namespace Bundle

section
open Text (byteCount byteCountCons byteCountAppend)
open Json (fieldSize quote pairsSize natSize)

theorem digestSize (v : Json) : byteCount (ContentHash.ofContent v).toJson.compactChars ≤ 125 := by
  have size := natSize (ContentHash.ofContent v).size
  have digest := Json.hexSize (Sha256.hash (Text.utf8 (canonical v)))
  rw [Sha256.hashLength] at digest
  have names : byteCount (quote "algorithm") = 11 ∧ byteCount (quote "sha256") = 8 ∧ byteCount (quote "hash") = 6
    ∧ byteCount (quote "size") = 6 := by decide
  refine Nat.le_trans (pairsSize _) ?_
  simp only [List.map_cons, List.map_nil, List.sum_cons, List.sum_nil, fieldSize, Json.compactChars,
    ContentHash.ofContent, ContentHash.ofBytes, ContentHash.algorithmName, Sha256.hex, digest, names] at size ⊢
  omega

theorem digestsSize (a : Artifacts) : byteCount a.hashes.toJson.compactChars ≤ 560 := by
  have flows := digestSize a.flows
  have settings := digestSize a.settings
  have manifest := digestSize (manifestContent a.manifest)
  have credentials := digestSize a.credentialsMap
  have names : byteCount (quote "flowsJson") = 11 ∧ byteCount (quote "settings") = 10 ∧ byteCount (quote "manifest") = 10
    ∧ byteCount (quote "credentialsMap") = 16 := by decide
  refine Nat.le_trans (pairsSize _) ?_
  simp only [ArtifactHashes.names, ArtifactHashes.toList, Artifacts.hashes, List.map_cons, List.map_nil,
    List.zip_cons_cons, List.zip_nil_right, List.sum_cons, List.sum_nil, fieldSize, names]
  omega

theorem listedSize (a : Artifacts) :
    byteCount (Json.arr ((listing (artifactFiles a)).map BundleFile.toJson)).compactChars ≤ 250 := by
  have file (f : BundleFile) : byteCount f.toJson.compactChars ≤ byteCount (quote f.name) + 40 := by
    have size := natSize f.size
    have names : byteCount (quote "name") = 6 ∧ byteCount (quote "size") = 6 := by decide
    refine Nat.le_trans (pairsSize _) ?_
    simp only [List.map_cons, List.map_nil, List.sum_cons, List.sum_nil, fieldSize, Json.compactChars, names]
    omega
  have names : byteCount (quote Artifacts.credentialsFile) = 22 ∧ byteCount (quote Artifacts.flowsFile) = 12
    ∧ byteCount (quote Artifacts.manifestFile) = 15 ∧ byteCount (quote Artifacts.settingsFile) = 13 := by decide
  have items := Json.compactItemsSize ((listing (artifactFiles a)).map BundleFile.toJson)
  rw [artifactFilesSorted] at items ⊢
  simp only [listing, List.map_cons, List.map_nil, List.sum_cons, List.sum_nil] at items ⊢
  have credentials := file ⟨Artifacts.credentialsFile, a.credentialsMap.pretty.utf8ByteSize⟩
  have flows := file ⟨Artifacts.flowsFile, a.flows.pretty.utf8ByteSize⟩
  have manifest := file ⟨Artifacts.manifestFile, a.manifest.pretty.utf8ByteSize⟩
  have settings := file ⟨Artifacts.settingsFile, (Settings.render a.settings).utf8ByteSize⟩
  simp only [Json.compactChars, byteCountCons, byteCountAppend, Json.marksSize, names] at *
  omega

theorem embeddedSize (o : BundleOptions) (a : Artifacts) {tree : Merkle.Tree} (grown : a.hashes.tree = .ok tree) :
    byteCount (embedded o a a.hashes tree.root).compactChars
      ≤ byteCount (quote o.buildId) + byteCount (quote a.channelId) + byteCount (quote o.createdAt.text) + 1100 := by
  have listed := listedSize a
  have digests := digestsSize a
  have root := Json.hexSize tree.rootBytes
  have short := Merkle.rootSized grown
  have names : byteCount (quote "formatVersion") = 15 ∧ byteCount (quote "buildId") = 9
    ∧ byteCount (quote "channelId") = 11 ∧ byteCount (quote "engineVersion") = 15 ∧ byteCount (quote "createdAt") = 11
    ∧ byteCount (quote "files") = 7 ∧ byteCount (quote "artifacts") = 11 ∧ byteCount (quote "merkleRoot") = 12
    ∧ byteCount (quote formatVersion) = 3 ∧ byteCount (quote engineVersion) = 7 := by decide
  rw [embedded]
  refine Nat.le_trans (pairsSize _) ?_
  simp only [List.map_cons, List.map_nil, List.sum_cons, List.sum_nil, fieldSize, names, Merkle.Tree.root]
  simp only [Json.compactChars, byteCountCons, byteCountAppend, Json.marksSize, names] at *
  omega

end

theorem filesSorted (o : BundleOptions) (a : Artifacts) (hashes : ArtifactHashes) (root : String) :
    files o a hashes root
      = (if o.includeMetadata then [(metadataFile, (embedded o a hashes root).pretty)] else []) ++ artifactFiles a := by
  have first : metadataFile < Artifacts.credentialsFile := by decide
  unfold files
  split
  · rw [artifactFilesSorted, Table.insert, if_pos first, List.singleton_append]
  · rw [List.nil_append]

def describedRoom (o : BundleOptions) (a : Artifacts) : Nat :=
  8 * (Text.byteCount (Json.quote o.buildId) + Text.byteCount (Json.quote a.channelId)
    + Text.byteCount (Json.quote o.createdAt.text) + 1100)

theorem describedWithin (o : BundleOptions) (a : Artifacts) {tree : Merkle.Tree} (grown : a.hashes.tree = .ok tree) :
    (Text.utf8 (embedded o a a.hashes tree.root).pretty).length ≤ describedRoom o a := by
  have shallow := (embeddedWithin o a a.hashes tree.root).2
  refine Nat.le_trans (Json.prettyWithin _) (Nat.mul_le_mul ?_ (embeddedSize o a grown))
  omega

def archiveRoom (o : BundleOptions) (a : Artifacts) : Nat :=
  a.room + if o.includeMetadata then describedRoom o a + 1024 else 0

theorem archiveWithin (o : BundleOptions) (a : Artifacts) {tree : Merkle.Tree} (grown : a.hashes.tree = .ok tree) :
    (archive (files o a a.hashes tree.root)).length ≤ archiveRoom o a := by
  have named : ∀ e ∈ entriesOf (files o a a.hashes tree.root), Tar.Named e.name := by
    intro e member
    obtain ⟨f, file, rfl⟩ := List.mem_map.mp member
    exact fileNamesPlain f.1 (filesNamed file)
  have settings : (Text.utf8 (Settings.render a.settings)).length ≤ a.settings.room + 19 := by
    have opening : (Text.utf8 Settings.opening).length = 17 := by decide
    have closing : (Text.utf8 Settings.closing).length = 2 := by decide
    have text := a.settings.prettyWithin
    rw [Settings.render, Text.utf8Append, Text.utf8Append, List.length_append, List.length_append, opening, closing]
    omega
  have flows := a.flows.prettyWithin
  have manifest := a.manifest.prettyWithin
  have credentials := a.credentialsMap.prettyWithin
  have described := describedWithin o a grown
  refine Nat.le_trans (Tar.writeWithin named) ?_
  rw [filesSorted, artifactFilesSorted, archiveRoom, Artifacts.room]
  cases o.includeMetadata
  all_goals
    simp only [Bool.false_eq_true, if_true, if_false, List.nil_append, List.singleton_append, List.map_cons,
      List.map_nil, List.sum_cons, List.sum_nil, List.length_cons, List.length_nil, Tar.blockSize]
    omega

theorem ofArtifactsSome (a : Artifacts) (o : BundleOptions) : ∃ b, ofArtifacts a o = .ok b := by
  have digests : ∀ leaf ∈ a.hashes.leaves, ∃ bytes, Text.Hex.decode leaf = .ok bytes := by
    have digest (v : Json) : ∃ bytes, Text.Hex.decode (ContentHash.ofContent v).hash = .ok bytes :=
      ⟨_, Text.Hex.decodeEncode _⟩
    simp only [ArtifactHashes.leaves, ArtifactHashes.toList, Artifacts.hashes, List.map_cons, List.map_nil,
      List.forall_mem_cons]
    exact ⟨digest _, digest _, digest _, digest _, List.forall_mem_nil _⟩
  obtain ⟨tree, grown⟩ := Merkle.treeSome (List.cons_ne_nil _ _) digests
  exact ⟨_, Outcome.bindOk.mpr ⟨tree, grown, rfl⟩⟩

end Bundle
end Conduit
