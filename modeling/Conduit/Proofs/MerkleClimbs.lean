import Conduit.Digest.Merkle
import Conduit.Proofs.Outcomes
import Conduit.Proofs.TextBytes

/-! The proof that a tree gives for a leaf leads to its root. -/
namespace Conduit

/-! Digests as text. -/

namespace Text.Hex

theorem digitRead : ∀ n < 16, digit? (UInt8.ofNat (Nat.digitChar n).toNat) = some (UInt8.ofNat n) := by decide

theorem digitLow : ∀ n < 16, (Nat.digitChar n).toNat < 128 ∧ (Nat.digitChar n).toLower = Nat.digitChar n := by decide

theorem pairDigits {b : UInt8} {c : Char} (member : c ∈ pairText b) : ∃ n < 16, c = Nat.digitChar n := by
  have bound := b.toNat_lt
  rcases List.mem_cons.mp member with high | low
  · exact ⟨_, by omega, high⟩
  · exact ⟨_, Nat.mod_lt _ (by decide), List.mem_singleton.mp low⟩

theorem encodeDigits {bytes : Bytes} {c : Char} (member : c ∈ bytes.flatMap pairText) :
    ∃ n < 16, c = Nat.digitChar n := by
  obtain ⟨b, -, here⟩ := List.mem_flatMap.mp member
  exact pairDigits here

theorem pairsRead (bytes : Bytes) (index : Nat) :
    decodePairs index (Text.asciiBytes (bytes.flatMap pairText)) = .ok bytes := by
  induction bytes generalizing index with
  | nil => rfl
  | cons b bytes ih =>
    have bound := b.toNat_lt
    have high := digitRead (b.toNat / 16) (by omega)
    have low := digitRead (b.toNat % 16) (Nat.mod_lt _ (by decide))
    have byte : UInt8.ofNat (b.toNat / 16) * 16 + UInt8.ofNat (b.toNat % 16) = b := by
      apply UInt8.toNat_inj.mp
      simp only [UInt8.toNat_add, UInt8.toNat_mul, UInt8.toNat_ofNat', UInt8.reduceToNat]
      omega
    have split : Text.asciiBytes ((b :: bytes).flatMap pairText)
        = UInt8.ofNat (Nat.digitChar (b.toNat / 16)).toNat :: UInt8.ofNat (Nat.digitChar (b.toNat % 16)).toNat
          :: Text.asciiBytes (bytes.flatMap pairText) := rfl
    rw [split, decodePairs, high, low]
    simp only [ih, byte, bind, Except.bind, pure, Except.pure]

theorem decodeEncode (bytes : Bytes) : decode (encode bytes) = .ok bytes := by
  have written : Text.utf8 (encode bytes) = Text.asciiBytes (bytes.flatMap pairText) := by
    refine Text.utf8Ascii fun c member => ?_
    obtain ⟨n, small, rfl⟩ := encodeDigits member
    exact (digitLow n small).1
  have even : (Text.asciiBytes (bytes.flatMap pairText)).length % 2 ≠ 1 := by
    have pair (b : UInt8) : (pairText b).length = 2 := rfl
    rw [Text.asciiBytes, List.length_map, List.length_flatMap]
    simp only [pair, List.map_const', List.sum_replicate_nat]
    omega
  simp only [decode, written, if_neg even, pairsRead]

theorem encodeInjective {xs ys : Bytes} (same : encode xs = encode ys) : xs = ys := by
  have read := decodeEncode xs
  rw [same, decodeEncode] at read
  exact (Except.ok.inj read).symm

end Text.Hex

theorem Sha256.hashLength (message : Bytes) : (hash message).length = 32 := by
  have word (n count : Nat) : (bigEndian n count).length = count := by
    induction count with
    | zero => rfl
    | succ count ih => rw [bigEndian, List.length_cons, ih]
  simp only [hash, State.bytes, List.flatMap_cons, List.flatMap_nil, List.length_append, word, List.length_nil]

namespace Merkle

open Text.Hex in
theorem lowerEncode (bytes : Bytes) : lowerAscii (encode bytes) = encode bytes := by
  rw [lowerAscii, encode, String.toList_ofList, List.map_congr_left (g := id), List.map_id]
  intro c member
  obtain ⟨n, small, rfl⟩ := encodeDigits member
  exact (digitLow n small).2

theorem digestRead {bytes : Bytes} (size : bytes.length = 32) : decodeDigest (Text.Hex.encode bytes) = some bytes := by
  simp only [decodeDigest, Text.Hex.decodeEncode, size, if_true]

/-! Levels. -/

def Sized (level : List Bytes) : Prop := ∀ h ∈ level, h.length = 32

theorem parentsSized (level : List Bytes) : Sized (parents level) := by
  fun_induction parents level with
  | case1 => simp [Sized]
  | case2 a => simp [Sized, hashPair, Sha256.hashLength]
  | case3 a b rest ih =>
    intro h member
    rcases List.mem_cons.mp member with rfl | above
    · exact Sha256.hashLength _
    · exact ih h above

theorem parentAt (level : List Bytes) {index : Nat} {left : Bytes} (found : level[2 * index]? = some left) :
    (parents level)[index]? = some (hashPair left (level[2 * index + 1]?.getD left)) := by
  fun_induction parents level generalizing index with
  | case1 => simp at found
  | case2 a =>
    obtain rfl : index = 0 := by
      have := (List.getElem?_eq_some_iff.mp found).1
      simp only [List.length_singleton] at this
      omega
    obtain rfl : a = left := by simpa using found
    rfl
  | case3 a b rest ih =>
    cases index with
    | zero =>
      obtain rfl : a = left := by simpa using found
      rfl
    | succ index =>
      have here : rest[2 * index]? = some left := by simpa [Nat.mul_add] using found
      have above := ih here
      simpa [Nat.mul_add] using above

theorem levelsSome (level : List Bytes) : levels level ≠ [] := by
  rw [levels]
  split <;> simp

theorem levelsAbove {level : List Bytes} (more : ¬ level.length ≤ 1) :
    levels level = level :: levels (parents level) := by
  rw [levels, if_neg more]

def top (level : List Bytes) : Option Bytes := (levels level).getLast?.bind List.head?

theorem topAbove {level : List Bytes} (more : ¬ level.length ≤ 1) : top level = top (parents level) := by
  obtain ⟨next, above, rest⟩ := List.exists_cons_of_ne_nil (levelsSome (parents level))
  rw [top, top, levelsAbove more, rest, List.getLast?_cons_cons]

theorem topSome (level : List Bytes) (filled : level ≠ []) : ∃ root, top level = some root := by
  induction level using levels.induct with
  | case1 level one =>
    obtain ⟨h, rest, rfl⟩ := List.exists_cons_of_ne_nil filled
    exact ⟨h, by rw [top, levels, if_pos one]; rfl⟩
  | case2 level more ih =>
    rw [topAbove more]
    refine ih fun none => ?_
    have count := length_parents level
    rw [none, List.length_nil] at count
    omega

def partner (level : List Bytes) (place : Nat) (inside : place < level.length) : Bytes :=
  if place % 2 = 0 then level[place + 1]?.getD level[place] else level[place - 1]

def partnerStep (level : List Bytes) (place : Nat) (inside : place < level.length) : Step :=
  ⟨Text.Hex.encode (partner level place inside), if place % 2 = 0 then .right else .left⟩

theorem siblingsAbove {level : List Bytes} {above : List (List Bytes)} (more : above ≠ []) {index : Nat}
    (inside : index < level.length) :
    siblings index (level :: above) = partnerStep level index inside :: siblings (index / 2) above := by
  have own : level[index]? = some level[index] := List.getElem?_eq_getElem inside
  have before : level[index - 1]? = some level[index - 1] := List.getElem?_eq_getElem _
  rw [siblings, partnerStep, partner, own]
  · split
    · cases level[index + 1]? <;> rfl
    · rw [before]
      rfl
  · exact more

section

variable {level : List Bytes} {index : Nat} (inside : index < level.length)
include inside

theorem partnerSized (sized : Sized level) : (partner level index inside).length = 32 := by
  rw [partner]
  split
  · cases other : level[index + 1]? with
    | none => exact sized _ (List.getElem_mem _)
    | some hash => exact sized hash (List.mem_of_getElem? other)
  · exact sized _ (List.getElem_mem _)

theorem partnerAbove : (parents level)[index / 2]? = some (if index % 2 = 0
    then hashPair level[index] (partner level index inside) else hashPair (partner level index inside) level[index]) := by
  by_cases even : index % 2 = 0
  · have place : 2 * (index / 2) = index := by omega
    have parent := parentAt level (by rw [place]; exact List.getElem?_eq_getElem inside)
    rw [place] at parent
    rw [parent, if_pos even, partner, if_pos even]
  · have before : index - 1 < level.length := Nat.lt_of_le_of_lt (Nat.sub_le _ _) inside
    have place : 2 * (index / 2) = index - 1 := by omega
    have next : 2 * (index / 2) + 1 = index := by omega
    have parent := parentAt level (by rw [place]; exact List.getElem?_eq_getElem before)
    rw [next, List.getElem?_eq_getElem inside] at parent
    rw [parent, if_neg even, partner, if_neg even]
    rfl

theorem climbPartner (sized : Sized level) (more : ¬ level.length ≤ 1) :
    ∃ parent, (parents level)[index / 2]? = some parent
    ∧ climb level[index] (siblings index (levels level)) = climb parent (siblings (index / 2) (levels (parents level))) := by
  refine ⟨_, partnerAbove inside, ?_⟩
  have sibling := digestRead (partnerSized inside sized)
  rw [levelsAbove more, siblingsAbove (levelsSome _) inside, partnerStep, climb, sibling]
  by_cases even : index % 2 = 0
  · rw [if_pos even, if_pos even]
    rfl
  · rw [if_neg even, if_neg even]
    rfl

end

theorem climbSiblings (level : List Bytes) (sized : Sized level) {index : Nat} {hash : Bytes}
    (found : level[index]? = some hash) : climb hash (siblings index (levels level)) = top level := by
  induction level using levels.induct generalizing index hash with
  | case1 level one =>
    have only : levels level = [level] := by rw [levels, if_pos one]
    have bound := (List.getElem?_eq_some_iff.mp found).1
    obtain rfl : index = 0 := by omega
    rw [top, only]
    simpa [siblings, climb, List.head?_eq_getElem?] using found.symm
  | case2 level more ih =>
    obtain ⟨inside, rfl⟩ := List.getElem?_eq_some_iff.mp found
    obtain ⟨parent, above, same⟩ := climbPartner inside sized more
    rw [topAbove more, same, ih (parentsSized level) above]

/-! Trees. -/

theorem hashedFrom {index : Nat} {leaves : List String} {base : List Bytes}
    (hashed : hashLeaves index leaves = .ok base) :
    ∃ contents : List Bytes, leaves.map Text.Hex.decode = contents.map .ok ∧ base = contents.map hashLeaf := by
  induction leaves generalizing index base with
  | nil =>
    cases hashed
    exact ⟨[], rfl, rfl⟩
  | cons leaf leaves ih =>
    rw [hashLeaves] at hashed
    split at hashed
    · cases hashed
    next bytes decoded =>
      obtain ⟨others, rest, same⟩ := Outcome.bindOk.mp hashed
      cases same
      obtain ⟨contents, read, rfl⟩ := ih rest
      exact ⟨bytes :: contents, by rw [List.map_cons, decoded, read]; rfl, rfl⟩

theorem grownFrom {leaves : List String} {tree : Tree} (grown : ofLeaves leaves = .ok tree) :
    leaves ≠ [] ∧ ∃ contents : List Bytes, leaves.map Text.Hex.decode = contents.map .ok
      ∧ tree = ⟨leaves, contents.map hashLeaf⟩ := by
  rw [ofLeaves] at grown
  split at grown
  · cases grown
  next filled =>
    obtain ⟨base, hashed, same⟩ := Outcome.bindOk.mp grown
    cases same
    obtain ⟨contents, read, rfl⟩ := hashedFrom hashed
    exact ⟨by simpa using filled, contents, read, rfl⟩

theorem leavesSized (contents : List Bytes) : Sized (contents.map hashLeaf) :=
  List.forall_mem_map.mpr fun _ _ => Sha256.hashLength _

theorem hashLeavesSome {leaves : List String} (digits : ∀ leaf ∈ leaves, ∃ bytes, Text.Hex.decode leaf = .ok bytes)
    (index : Nat) : ∃ base, hashLeaves index leaves = .ok base := by
  induction leaves generalizing index with
  | nil => exact ⟨[], rfl⟩
  | cons leaf rest ih =>
    obtain ⟨⟨bytes, decoded⟩, others⟩ := List.forall_mem_cons.mp digits
    obtain ⟨base, hashed⟩ := ih others (index + 1)
    rw [hashLeaves, decoded]
    exact ⟨_, Outcome.bindOk.mpr ⟨base, hashed, rfl⟩⟩

theorem treeSome {leaves : List String} (filled : leaves ≠ [])
    (digits : ∀ leaf ∈ leaves, ∃ bytes, Text.Hex.decode leaf = .ok bytes) : ∃ tree, ofLeaves leaves = .ok tree := by
  obtain ⟨base, hashed⟩ := hashLeavesSome digits 0
  rw [ofLeaves, if_neg (by simpa using filled)]
  exact ⟨_, Outcome.bindOk.mpr ⟨base, hashed, rfl⟩⟩

theorem rootReached {leaves : List String} {tree : Tree} (grown : ofLeaves leaves = .ok tree) :
    top tree.base = some tree.rootBytes := by
  obtain ⟨filled, contents, read, rfl⟩ := grownFrom grown
  have some : contents.map hashLeaf ≠ [] := by
    rintro none
    rw [List.map_eq_nil_iff.mp none] at read
    exact filled (List.map_eq_nil_iff.mp read)
  obtain ⟨root, reached⟩ := topSome _ some
  rw [reached, Tree.rootBytes, ← top, reached]
  rfl

theorem climbAccepted {leaf : String} {bytes : Bytes} {proof : Proof} {tree : Tree}
    (decoded : Text.Hex.decode leaf = .ok bytes) (climbed : climb (hashLeaf bytes) proof.steps = some tree.rootBytes) :
    verify leaf proof tree.root = true := by
  simp only [verify, decoded, climbed, Tree.root, lowerEncode, decide_true]

theorem leafRead {leaves : List String} {contents : List Bytes} (read : leaves.map Text.Hex.decode = contents.map .ok)
    {index : Nat} {leaf : String} (found : leaves[index]? = some leaf) :
    ∃ bytes, Text.Hex.decode leaf = .ok bytes ∧ contents[index]? = some bytes := by
  have same : (contents.map (Except.ok (ε := Text.Hex.DecodeError)))[index]? = some (Text.Hex.decode leaf) := by
    rw [← read, List.getElem?_map, found]
    rfl
  rw [List.getElem?_map] at same
  obtain ⟨bytes, here, decoded⟩ := Option.map_eq_some_iff.mp same
  exact ⟨bytes, decoded.symm, here⟩

theorem proofAccepted {leaves : List String} {tree : Tree} (made : ofLeaves leaves = .ok tree) {index : Nat}
    {proof : Proof} (given : tree.proof? index = some proof) : verify proof.leaf proof tree.root = true := by
  have reached := rootReached made
  obtain ⟨-, contents, read, rfl⟩ := grownFrom made
  obtain ⟨leaf, found, same⟩ := Option.bind_eq_some_iff.mp given
  cases same
  obtain ⟨bytes, decoded, here⟩ := leafRead read found
  have base : (contents.map hashLeaf)[index]? = some (hashLeaf bytes) := by rw [List.getElem?_map, here]; rfl
  exact climbAccepted decoded ((climbSiblings _ (leavesSized contents) base).trans reached)

end Merkle

end Conduit
