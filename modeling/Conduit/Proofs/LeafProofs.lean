import Conduit.Proofs.MerkleClimbs

/-! The proofs that a tree gives. There is one for every leaf and for nothing else; each of its steps is read off a
level of the tree, at a place that this level has, and the check accepts it for the leaf and the root. -/
namespace Conduit.Merkle

/-! The place of a leaf on every level. -/

theorem placeAbove (index k : Nat) : index / 2 / 2 ^ k = index / 2 ^ (k + 1) := by
  rw [Nat.div_div_eq_div_mul, Nat.pow_succ']

theorem placeInside {base : List Bytes} {index : Nat} (inside : index < base.length) {k : Nat} {level : List Bytes}
    (here : (levels base)[k]? = some level) : index / 2 ^ k < level.length := by
  induction base using levels.induct generalizing index k with
  | case1 base one =>
    rw [levels, if_pos one] at here
    obtain ⟨first, rfl⟩ := List.getElem?_eq_some_iff.mp here
    obtain rfl : k = 0 := by simpa using first
    simpa using inside
  | case2 base more ih =>
    rw [levelsAbove more] at here
    cases k with
    | zero =>
      obtain rfl : base = level := by simpa using here
      simpa using inside
    | succ k =>
      rw [← placeAbove]
      exact ih (by rw [length_parents]; omega) (by simpa using here)

/-! Steps. -/

theorem siblingsCount {rows : List (List Bytes)} (filled : rows ≠ []) (index : Nat) :
    (siblings index rows).length + 1 = rows.length := by
  induction index, rows using siblings.induct with
  | case1 => exact absurd rfl filled
  | case2 => rfl
  | case3 index level above more ih =>
    rw [siblings, List.length_cons, ih more, List.length_cons]
    exact more

theorem siblingAt {rows : List (List Bytes)} {index k : Nat} {level : List Bytes} (here : rows[k]? = some level)
    (below : k + 1 < rows.length) (inside : index / 2 ^ k < level.length) :
    (siblings index rows)[k]? = some (partnerStep level (index / 2 ^ k) inside) := by
  induction index, rows using siblings.induct generalizing k with
  | case1 => cases here
  | case2 index only =>
    rw [List.length_singleton] at below
    omega
  | case3 index first above more ih =>
    cases k with
    | zero =>
      obtain rfl : first = level := by simpa using here
      have place : index / 2 ^ 0 = index := by simp
      simp only [place] at inside ⊢
      rw [siblingsAbove more inside, List.getElem?_cons_zero]
    | succ k =>
      simp only [← placeAbove] at inside ⊢
      rw [siblings, List.getElem?_cons_succ]
      · exact ih (by simpa using here) (by simpa using below) inside
      · exact more

/-! Proofs. -/

structure Proof.ReadOff (proof : Proof) (t : Tree) : Prop where
  steps : proof.steps.length + 1 = (levels t.base).length
  inside : ∀ {k level}, (levels t.base)[k]? = some level → proof.leafIndex / 2 ^ k < level.length
  step : ∀ {k level} (here : (levels t.base)[k]? = some level), k < proof.steps.length →
    proof.steps[k]? = some (partnerStep level (proof.leafIndex / 2 ^ k) (inside here))

theorem baseCount {leaves : List String} {tree : Tree} (grown : ofLeaves leaves = .ok tree) :
    tree.leaves = leaves ∧ tree.base.length = leaves.length := by
  obtain ⟨-, contents, read, rfl⟩ := grownFrom grown
  have count := congrArg List.length read
  rw [List.length_map, List.length_map] at count
  exact ⟨rfl, by rw [List.length_map, count]⟩

theorem proofReadOff {leaves : List String} {tree : Tree} (grown : ofLeaves leaves = .ok tree) {index : Nat}
    {leaf : String}
    (found : leaves[index]? = some leaf) : (Proof.mk index leaf (siblings index (levels tree.base))).ReadOff tree := by
  have within : index < tree.base.length := (baseCount grown).2 ▸ (List.getElem?_eq_some_iff.mp found).1
  have count := siblingsCount (levelsSome tree.base) index
  refine ⟨count, placeInside within, fun here below => siblingAt here ?_ _⟩
  exact count ▸ Nat.succ_lt_succ below

theorem everyLeafProven {leaves : List String} (filled : leaves ≠ [])
    (digits : ∀ leaf ∈ leaves, ∃ bytes, Text.Hex.decode leaf = .ok bytes) :
    ∃ tree, ofLeaves leaves = .ok tree
      ∧ (∀ index leaf, leaves[index]? = some leaf → ∃ proof, tree.proof? index = some proof ∧ proof.leafIndex = index
        ∧ proof.leaf = leaf ∧ proof.ReadOff tree ∧ verify leaf proof tree.root = true)
      ∧ ∀ index, leaves.length ≤ index → tree.proof? index = none := by
  obtain ⟨tree, grown⟩ := treeSome filled digits
  have same := (baseCount grown).1
  refine ⟨tree, grown, fun index leaf found => ?_, fun index past => ?_⟩
  · have given : tree.proof? index = some ⟨index, leaf, siblings index (levels tree.base)⟩ := by
      rw [Tree.proof?, same, found]
      rfl
    exact ⟨_, given, rfl, rfl, proofReadOff grown found, proofAccepted grown given⟩
  · rw [Tree.proof?, same, List.getElem?_eq_none past]
    rfl

def fiveLeaves : List String := ["0a", "0B", "", "0c", "0a"]

theorem fiveLeavesProven :
    fiveLeaves ≠ [] ∧ (∀ leaf ∈ fiveLeaves, ∃ bytes, Text.Hex.decode leaf = .ok bytes)
      ∧ ∃ tree, ofLeaves fiveLeaves = .ok tree
        ∧ (∀ index leaf, fiveLeaves[index]? = some leaf → ∃ proof, tree.proof? index = some proof
          ∧ proof.leafIndex = index ∧ proof.leaf = leaf ∧ proof.ReadOff tree ∧ verify leaf proof tree.root = true)
        ∧ ∀ index, fiveLeaves.length ≤ index → tree.proof? index = none := by
  have digits : ∀ leaf ∈ fiveLeaves, ∃ bytes, Text.Hex.decode leaf = .ok bytes := by
    simp only [fiveLeaves, List.forall_mem_cons]
    exact ⟨⟨[10], rfl⟩, ⟨[11], rfl⟩, ⟨[], rfl⟩, ⟨[12], rfl⟩, ⟨[10], rfl⟩, List.forall_mem_nil _⟩
  exact ⟨by decide, digits, everyLeafProven (by decide) digits⟩

end Conduit.Merkle
