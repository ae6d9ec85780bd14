import Conduit.Proofs.MerkleClimbs

/-! What a root commits to: every leaf of its tree in its place, and any leaf that some proof leads from up to it. Else
two messages with one digest can be named, one hashed for the tree, the other for the other tree or on the climb.
Nothing is assumed of the hash function. -/
namespace Conduit

namespace Sha256

def CollisionBetween (xs ys : List Bytes) : Prop := ∃ x ∈ xs, ∃ y ∈ ys, Collision x y

theorem CollisionBetween.among {xs ys xs' ys' : List Bytes} (collision : CollisionBetween xs ys) (left : xs ⊆ xs')
    (right : ys ⊆ ys') : CollisionBetween xs' ys' := by
  obtain ⟨x, first, y, second, apart⟩ := collision
  exact ⟨x, left first, y, right second, apart⟩

theorem hashesInjective {xs ys : List Bytes} (same : xs.map hash = ys.map hash) : xs = ys ∨ CollisionBetween xs ys := by
  induction xs generalizing ys with
  | nil => exact .inl (List.map_eq_nil_iff.mp same.symm).symm
  | cons x xs ih =>
    cases ys with
    | nil => cases same
    | cons y ys =>
      obtain ⟨here, later⟩ := List.cons_eq_cons.mp same
      by_cases first : x = y
      · rcases ih later with rfl | collision
        · exact .inl (by rw [first])
        · exact .inr (collision.among (List.subset_cons_self _ _) (List.subset_cons_self _ _))
      · exact .inr ⟨x, List.mem_cons_self, y, List.mem_cons_self, first, here⟩

end Sha256

namespace Merkle

open Sha256 (CollisionBetween)

/-! The messages that are hashed. -/

def leafMessage (leaf : Bytes) : Bytes := 0 :: leaf

def pairMessage (left right : Bytes) : Bytes := 1 :: left ++ right

def pairMessages : List Bytes → List Bytes
  | [] => []
  | [a] => [pairMessage a a]
  | a :: b :: rest => pairMessage a b :: pairMessages rest

def messagesAbove (level : List Bytes) : List Bytes := (levels level).dropLast.flatMap pairMessages

def Tree.messages (t : Tree) : List Bytes :=
  t.leaves.filterMap (fun leaf => (Text.Hex.decode leaf).toOption.map leafMessage) ++ messagesAbove t.base

def Step.message (step : Step) (hash sibling : Bytes) : Bytes :=
  match step.side with
  | .right => pairMessage hash sibling
  | .left => pairMessage sibling hash

def climbMessages (hash : Bytes) : List Step → List Bytes
  | [] => []
  | step :: rest =>
    match decodeDigest step.hash with
    | none => []
    | some sibling => step.message hash sibling :: climbMessages (Sha256.hash (step.message hash sibling)) rest

def Proof.messages (proof : Proof) (leaf : String) : List Bytes :=
  match Text.Hex.decode leaf with
  | .error _ => []
  | .ok bytes => leafMessage bytes :: climbMessages (hashLeaf bytes) proof.steps

theorem leafNotPair (leaf left right : Bytes) : leafMessage leaf ≠ pairMessage left right := by
  simp [leafMessage, pairMessage]

theorem pairMessageInjective {a b c d : Bytes} (size : a.length = c.length) (same : pairMessage a b = pairMessage c d) :
    a = c ∧ b = d := List.append_inj (List.cons.inj same).2 size

theorem leafNotStep (leaf : Bytes) (step : Step) (hash sibling : Bytes) :
    leafMessage leaf ≠ step.message hash sibling := by
  rw [Step.message]
  cases step.side with
  | left => exact leafNotPair _ _ _
  | right => exact leafNotPair _ _ _

theorem stepHalf {step : Step} {hash sibling left right : Bytes} (size : hash.length = left.length)
    (other : sibling.length = left.length) (same : step.message hash sibling = pairMessage left right) :
    hash = left ∨ hash = right := by
  rw [Step.message] at same
  cases side : step.side with
  | left =>
    rw [side] at same
    exact .inr (pairMessageInjective other same).2
  | right =>
    rw [side] at same
    exact .inl (pairMessageInjective size same).1

theorem parentsHashed (level : List Bytes) : parents level = (pairMessages level).map Sha256.hash := by
  fun_induction parents level with
  | case1 => rfl
  | case2 a => rfl
  | case3 a b rest ih => rw [pairMessages, List.map_cons, ← ih]; rfl

theorem pairMessageOf {level : List Bytes} {message : Bytes} (member : message ∈ pairMessages level) :
    ∃ left ∈ level, ∃ right ∈ level, message = pairMessage left right := by
  fun_induction pairMessages level with
  | case1 => cases member
  | case2 a => exact ⟨a, List.mem_cons_self, a, List.mem_cons_self, List.mem_singleton.mp member⟩
  | case3 a b rest ih =>
    rcases List.mem_cons.mp member with rfl | above
    · exact ⟨a, List.mem_cons_self, b, List.mem_cons_of_mem _ List.mem_cons_self, rfl⟩
    · obtain ⟨left, first, right, second, same⟩ := ih above
      exact ⟨left, List.mem_cons_of_mem _ (List.mem_cons_of_mem _ first), right,
        List.mem_cons_of_mem _ (List.mem_cons_of_mem _ second), same⟩

theorem pairMessagesInjective {xs ys : List Bytes} (sized : Sized xs) (other : Sized ys) (count : xs.length = ys.length)
    (same : pairMessages xs = pairMessages ys) : xs = ys := by
  fun_induction pairMessages xs generalizing ys with
  | case1 => exact (List.eq_nil_of_length_eq_zero count.symm).symm
  | case2 a =>
    obtain ⟨c, rfl⟩ := List.length_eq_one_iff.mp count.symm
    have size : a.length = c.length := (sized a List.mem_cons_self).trans (other c List.mem_cons_self).symm
    rw [(pairMessageInjective size (List.cons.inj same).1).1]
  | case3 a b rest ih =>
    match ys, count with
    | c :: d :: ys, count =>
      obtain ⟨here, later⟩ := List.cons.inj same
      obtain ⟨first, -, above⟩ : a.length = 32 ∧ b.length = 32 ∧ Sized rest := by simpa [Sized] using sized
      obtain ⟨second, -, beside⟩ : c.length = 32 ∧ d.length = 32 ∧ Sized ys := by simpa [Sized] using other
      obtain ⟨rfl, rfl⟩ := pairMessageInjective (first.trans second.symm) here
      rw [ih above beside (by simpa using count) later]

/-! Trees. -/

theorem messagesNext {level : List Bytes} (more : ¬ level.length ≤ 1) :
    messagesAbove level = pairMessages level ++ messagesAbove (parents level) := by
  rw [messagesAbove, levelsAbove more, List.dropLast_cons_of_ne_nil (levelsSome _), List.flatMap_cons, messagesAbove]

section

variable {leaves : List String} {contents : List Bytes} (read : leaves.map Text.Hex.decode = contents.map .ok)
include read

theorem leafOfContent {bytes : Bytes} (member : bytes ∈ contents) :
    ∃ leaf ∈ leaves, Text.Hex.decode leaf = .ok bytes := by
  have decoded : Except.ok bytes ∈ leaves.map Text.Hex.decode := read ▸ List.mem_map_of_mem member
  exact List.mem_map.mp decoded

theorem leafMessageAmong {bytes : Bytes} (member : bytes ∈ contents) :
    leafMessage bytes ∈ (Tree.mk leaves (contents.map hashLeaf)).messages := by
  obtain ⟨leaf, among, decoded⟩ := leafOfContent read member
  exact List.mem_append_left _ (List.mem_filterMap.mpr ⟨leaf, among, by rw [decoded]; rfl⟩)

end

/-! From the root down. -/

def Stands (base : List Bytes) (hash : Bytes) : Prop := ∃ level ∈ levels base, hash ∈ level

theorem levelSource {base level : List Bytes} (member : level ∈ levels base) :
    level = base ∨ ∃ below ∈ (levels base).dropLast, level = parents below := by
  induction base using levels.induct with
  | case1 base one =>
    rw [levels, if_pos one] at member
    exact .inl (List.mem_singleton.mp member)
  | case2 base more ih =>
    rw [levelsAbove more] at member ⊢
    rw [List.dropLast_cons_of_ne_nil (levelsSome _)]
    rcases List.mem_cons.mp member with rfl | above
    · exact .inl rfl
    · rcases ih above with rfl | ⟨below, under, same⟩
      · exact .inr ⟨base, List.mem_cons_self, rfl⟩
      · exact .inr ⟨below, List.mem_cons_of_mem _ under, same⟩

theorem levelSized {base level : List Bytes} (sized : Sized base) (member : level ∈ levels base) : Sized level := by
  rcases levelSource member with rfl | ⟨below, -, rfl⟩
  · exact sized
  · exact parentsSized below

theorem standsSource {base : List Bytes} {hash : Bytes} (stands : Stands base hash) :
    hash ∈ base ∨ ∃ left right, Stands base left ∧ Stands base right
      ∧ pairMessage left right ∈ messagesAbove base ∧ hash = hashPair left right := by
  obtain ⟨level, member, here⟩ := stands
  rcases levelSource member with rfl | ⟨below, under, rfl⟩
  · exact .inl here
  · rw [parentsHashed] at here
    obtain ⟨message, hashed, rfl⟩ := List.mem_map.mp here
    obtain ⟨left, first, right, second, rfl⟩ := pairMessageOf hashed
    have level := (List.dropLast_sublist _).subset under
    exact .inr ⟨left, right, ⟨below, level, first⟩, ⟨below, level, second⟩,
      List.mem_flatMap.mpr ⟨below, under, hashed⟩, rfl⟩

theorem standsSized {base : List Bytes} (sized : Sized base) {hash : Bytes} (stands : Stands base hash) :
    hash.length = 32 := by
  obtain ⟨level, member, here⟩ := stands
  exact levelSized sized member hash here

theorem topStands {base : List Bytes} {root : Bytes} (reached : top base = some root) : Stands base root := by
  obtain ⟨level, last, first⟩ := Option.bind_eq_some_iff.mp reached
  exact ⟨level, List.mem_of_getLast? last, List.mem_of_mem_head? first⟩

theorem digestSized {text : String} {bytes : Bytes} (decoded : decodeDigest text = some bytes) : bytes.length = 32 := by
  unfold decodeDigest at decoded
  split at decoded
  · split at decoded
    next size => rwa [← Option.some.inj decoded]
    · cases decoded
  · cases decoded

theorem climbStep {hash top : Bytes} {step : Step} {rest : List Step} (climbed : climb hash (step :: rest) = some top) :
    ∃ sibling, decodeDigest step.hash = some sibling ∧ sibling.length = 32
      ∧ climb (Sha256.hash (step.message hash sibling)) rest = some top
      ∧ climbMessages hash (step :: rest)
        = step.message hash sibling :: climbMessages (Sha256.hash (step.message hash sibling)) rest := by
  obtain ⟨sibling, decoded, above⟩ := Option.bind_eq_some_iff.mp climbed
  refine ⟨sibling, decoded, digestSized decoded, ?_, by rw [climbMessages, decoded]⟩
  rw [← above, Step.message]
  cases step.side <;> rfl

section

variable {leaves : List String} {contents : List Bytes} (read : leaves.map Text.Hex.decode = contents.map .ok)
include read

theorem messageSource {message : Bytes} (stands : Stands (contents.map hashLeaf) (Sha256.hash message)) :
    (∃ bytes ∈ contents, message = leafMessage bytes)
      ∨ (∃ left right, Stands (contents.map hashLeaf) left ∧ Stands (contents.map hashLeaf) right
        ∧ message = pairMessage left right)
      ∨ ∃ other ∈ (Tree.mk leaves (contents.map hashLeaf)).messages, Sha256.Collision message other := by
  rcases standsSource stands with below | ⟨left, right, first, second, hashed, same⟩
  · obtain ⟨bytes, member, same⟩ := List.mem_map.mp below
    by_cases equal : message = leafMessage bytes
    · exact .inl ⟨bytes, member, equal⟩
    · exact .inr (.inr ⟨leafMessage bytes, leafMessageAmong read member, equal, same.symm⟩)
  · by_cases equal : message = pairMessage left right
    · exact .inr (.inl ⟨left, right, first, second, equal⟩)
    · exact .inr (.inr ⟨pairMessage left right, List.mem_append_right _ hashed, equal, same⟩)

theorem climbedFrom {steps : List Step} {hash top : Bytes} (size : hash.length = 32)
    (climbed : climb hash steps = some top) (stands : Stands (contents.map hashLeaf) top) :
    Stands (contents.map hashLeaf) hash
      ∨ CollisionBetween (climbMessages hash steps) (Tree.mk leaves (contents.map hashLeaf)).messages := by
  induction steps generalizing hash with
  | nil =>
    obtain rfl : hash = top := Option.some.inj climbed
    exact .inl stands
  | cons step rest ih =>
    obtain ⟨sibling, -, other, above, messages⟩ := climbStep climbed
    rw [messages]
    -- the rest of the climb is over the tree, so this step hashes what the tree hashed there
    rcases ih (Sha256.hashLength _) above with here | collision
    · rcases messageSource read here with ⟨bytes, -, same⟩ | ⟨left, right, first, second, same⟩ | ⟨message, among, apart⟩
      · exact absurd same.symm (leafNotStep _ _ _ _)
      · have half := standsSized (leavesSized contents) first
        rcases stepHalf (size.trans half.symm) (other.trans half.symm) same with rfl | rfl
        · exact .inl first
        · exact .inl second
      · exact .inr ⟨_, List.mem_cons_self, message, among, apart⟩
    · exact .inr (collision.among (List.subset_cons_self _ _) (List.Subset.refl _))

end

theorem verifiedClimb {leaf root : String} {proof : Proof} (accepted : verify leaf proof root = true) :
    ∃ bytes top, Text.Hex.decode leaf = .ok bytes ∧ climb (hashLeaf bytes) proof.steps = some top
      ∧ Text.Hex.encode top = lowerAscii root := by
  unfold verify at accepted
  split at accepted
  · cases accepted
  next bytes decoded =>
    split at accepted
    · cases accepted
    next top climbed => exact ⟨bytes, top, decoded, climbed, of_decide_eq_true accepted⟩

theorem provenAmongLeaves {leaves : List String} {tree : Tree} (grown : ofLeaves leaves = .ok tree) {leaf : String}
    {proof : Proof} (accepted : verify leaf proof tree.root = true) :
    (∃ bytes, Text.Hex.decode leaf = .ok bytes ∧ ∃ other ∈ leaves, Text.Hex.decode other = .ok bytes)
      ∨ CollisionBetween (proof.messages leaf) tree.messages := by
  obtain ⟨bytes, top, decoded, climbed, ends⟩ := verifiedClimb accepted
  obtain rfl : top = tree.rootBytes := by
    rw [Tree.root, lowerEncode] at ends
    exact Text.Hex.encodeInjective ends
  have root := topStands (rootReached grown)
  obtain ⟨-, contents, read, rfl⟩ := grownFrom grown
  have messages : proof.messages leaf = leafMessage bytes :: climbMessages (hashLeaf bytes) proof.steps := by
    rw [Proof.messages, decoded]
  rw [messages]
  rcases climbedFrom read (Sha256.hashLength _) climbed root with stands | collision
  · rcases messageSource read stands with ⟨other, member, same⟩ | ⟨left, right, -, -, same⟩ | ⟨message, among, apart⟩
    · obtain rfl : bytes = other := (List.cons.inj same).2
      exact .inl ⟨bytes, decoded, leafOfContent read member⟩
    · exact absurd same (leafNotPair _ _ _)
    · exact .inr ⟨_, List.mem_cons_self, message, among, apart⟩
  · exact .inr (collision.among (List.subset_cons_self _ _) (List.Subset.refl _))

def threeLeaves : Tree := ⟨["0a", "0b", "0c"], [hashLeaf [10], hashLeaf [11], hashLeaf [12]]⟩

theorem threeGrown : ofLeaves ["0a", "0b", "0c"] = .ok threeLeaves := rfl

def relabelled : Proof :=
  ⟨7, "zz", [⟨Text.Hex.encode (hashLeaf [12]), .right⟩,
    ⟨Text.Hex.encode (hashPair (hashLeaf [10]) (hashLeaf [11])), .left⟩]⟩

theorem relabelledAccepted : verify "0C" relabelled threeLeaves.root = true := by
  have decoded : Text.Hex.decode "0C" = .ok [12] := rfl
  have leaf : decodeDigest (Text.Hex.encode (hashLeaf [12])) = some (hashLeaf [12]) := digestRead (Sha256.hashLength _)
  have pair : decodeDigest (Text.Hex.encode (hashPair (hashLeaf [10]) (hashLeaf [11])))
      = some (hashPair (hashLeaf [10]) (hashLeaf [11])) := digestRead (Sha256.hashLength _)
  have root : threeLeaves.rootBytes
      = hashPair (hashPair (hashLeaf [10]) (hashLeaf [11])) (hashPair (hashLeaf [12]) (hashLeaf [12])) := by
    simp [Tree.rootBytes, threeLeaves, levels, parents]
  refine climbAccepted decoded ?_
  rw [relabelled, climb, leaf, root, Option.bind_eq_bind, Option.bind_some, climb, pair]
  rfl

theorem relabelledAmongLeaves :
    ofLeaves ["0a", "0b", "0c"] = .ok threeLeaves ∧ verify "0C" relabelled threeLeaves.root = true
      ∧ ((∃ bytes, Text.Hex.decode "0C" = .ok bytes
          ∧ ∃ other ∈ ["0a", "0b", "0c"], Text.Hex.decode other = .ok bytes)
        ∨ CollisionBetween (relabelled.messages "0C") threeLeaves.messages) :=
  ⟨threeGrown, relabelledAccepted, provenAmongLeaves threeGrown relabelledAccepted⟩

/-! Two trees side by side. -/

theorem onlyTop {level : List Bytes} (one : level.length ≤ 1) : level = (top level).toList := by
  rw [top, levels, if_pos one]
  cases level with
  | nil => rfl
  | cons hash rest =>
    obtain rfl : rest = [] := List.eq_nil_of_length_eq_zero (by simpa using one)
    rfl

theorem topInjective {xs ys : List Bytes} (sized : Sized xs) (other : Sized ys) (count : xs.length = ys.length)
    (same : top xs = top ys) : xs = ys ∨ CollisionBetween (messagesAbove xs) (messagesAbove ys) := by
  induction xs using levels.induct generalizing ys with
  | case1 xs one =>
    have other : ys.length ≤ 1 := count ▸ one
    left
    rw [onlyTop one, same, ← onlyTop other]
  | case2 xs more ih =>
    have others : ¬ ys.length ≤ 1 := count ▸ more
    rw [topAbove more, topAbove others] at same
    rw [messagesNext more, messagesNext others]
    have half : (parents xs).length = (parents ys).length := by rw [length_parents, length_parents, count]
    rcases ih (parentsSized xs) (parentsSized ys) half same with above | collision
    · rw [parentsHashed, parentsHashed] at above
      rcases Sha256.hashesInjective above with pairs | collision
      · exact .inl (pairMessagesInjective sized other count pairs)
      · exact .inr (collision.among (List.subset_append_left _ _) (List.subset_append_left _ _))
    · exact .inr (collision.among (List.subset_append_right _ _) (List.subset_append_right _ _))

theorem rootCommits {xs ys : List String} {tree other : Tree} (grown : ofLeaves xs = .ok tree)
    (beside : ofLeaves ys = .ok other) (count : xs.length = ys.length) (same : tree.root = other.root) :
    xs.map Text.Hex.decode = ys.map Text.Hex.decode ∨ CollisionBetween tree.messages other.messages := by
  have roots : top tree.base = top other.base := by
    rw [rootReached grown, rootReached beside, Text.Hex.encodeInjective same]
  obtain ⟨-, contents, read, rfl⟩ := grownFrom grown
  obtain ⟨-, contents', read', rfl⟩ := grownFrom beside
  have lengths : contents.length = contents'.length := by
    have first := congrArg List.length read
    have second := congrArg List.length read'
    simp only [List.length_map] at first second
    omega
  rcases topInjective (leavesSized contents) (leavesSized contents') (by simpa using lengths) roots with base | collision
  · have messages : (contents.map leafMessage).map Sha256.hash = (contents'.map leafMessage).map Sha256.hash := by
      rw [List.map_map, List.map_map]
      exact base
    rcases Sha256.hashesInjective messages with leaves | collision
    · left
      have inner : Function.Injective leafMessage := fun _ _ equal => (List.cons.inj equal).2
      rw [read, read', List.map_injective_iff.mpr inner leaves]
    · refine .inr (collision.among ?_ ?_)
      · exact List.forall_mem_map.mpr fun _ member => leafMessageAmong read member
      · exact List.forall_mem_map.mpr fun _ member => leafMessageAmong read' member
  · exact .inr (collision.among (List.subset_append_right _ _) (List.subset_append_right _ _))

def recased : Tree := { threeLeaves with leaves := ["0A", "0B", "0C"] }

theorem recasedGrown : ofLeaves ["0A", "0B", "0C"] = .ok recased := rfl

theorem recasedCommits :
    ofLeaves ["0a", "0b", "0c"] = .ok threeLeaves ∧ ofLeaves ["0A", "0B", "0C"] = .ok recased
      ∧ ["0a", "0b", "0c"].length = ["0A", "0B", "0C"].length ∧ threeLeaves.root = recased.root
      ∧ (["0a", "0b", "0c"].map Text.Hex.decode = ["0A", "0B", "0C"].map Text.Hex.decode
        ∨ CollisionBetween threeLeaves.messages recased.messages) :=
  ⟨threeGrown, recasedGrown, rfl, rfl, rootCommits threeGrown recasedGrown rfl rfl⟩

end Merkle

end Conduit
