import Conduit.Proofs.StageOutcomes
import Conduit.Proofs.ValidDocuments
import Mathlib.Data.List.Flatten
import Mathlib.Data.Set.Function

/-! What the ids of nodes are derived from. The id of a stage and the id that a node has in its nexon make the name
of a node; the mark between them is in no stage's id, so two nodes of a flow never have one name. That no two of these
names give one id is all that is ever asked of the digest. -/
namespace Conduit

def nodeName (stage node : String) : String := stage ++ ":" ++ node

theorem nodeNameChars (stage node : String) : (nodeName stage node).toList = stage.toList ++ ':' :: node.toList := by
  simp [nodeName]

theorem identifierUnmarked {id : String} (identifier : isIdentifier id = true) : ':' ∉ id.toList := by
  intro member
  unfold isIdentifier at identifier
  split at identifier
  next c rest same =>
    simp only [Bool.and_eq_true, List.all_eq_true] at identifier
    rw [same] at member
    rcases List.mem_cons.mp member with rfl | later
    · exact absurd identifier.1.1 (by decide)
    · exact absurd (identifier.2 _ later) (by decide)
  next => cases identifier

theorem nodeNameStage {stage other node node' : String} (identifier : isIdentifier stage = true)
    (identifier' : isIdentifier other = true) (same : nodeName stage node = nodeName other node') : stage = other := by
  have before {id rest : List Char} (unmarked : ':' ∉ id) : (id ++ ':' :: rest).takeWhile (· ≠ ':') = id := by
    have other : ∀ c ∈ id, decide (c ≠ ':') = true := fun c member =>
      decide_eq_true fun (mark : c = ':') => unmarked (mark ▸ member)
    rw [List.takeWhile_append_of_pos other]
    simp
  have chars := congrArg (fun name : String => name.toList.takeWhile (· ≠ ':')) same
  simp only [nodeNameChars, before (identifierUnmarked identifier), before (identifierUnmarked identifier')] at chars
  exact String.toList_inj.mp chars

theorem nodeNameInjective (stage : String) : Function.Injective (nodeName stage) := by
  intro node node' same
  have chars := congrArg String.toList same
  rw [nodeNameChars, nodeNameChars] at chars
  exact String.toList_inj.mp (List.cons_eq_cons.mp (List.append_cancel_left chars)).2

/-! Nodes of a nexon. -/

theorem nodesDistinct {nodes : List NodeTemplate} {seen : List String} {index : Nat}
    (sound : nodeFaults seen index nodes = []) : (nodes.map (·.id)).Nodup ∧ ∀ n ∈ nodes, n.id ∉ seen := by
  induction nodes generalizing seen index with
  | nil => exact ⟨List.nodup_nil, List.forall_mem_nil _⟩
  | cons n rest ih =>
    simp only [nodeFaults, List.append_eq_nil_iff] at sound
    obtain ⟨⟨here, -⟩, later⟩ := sound
    obtain ⟨distinct, fresh⟩ := ih later
    have new : n.id ∉ seen := by
      split at here
      · cases here
      · split at here
        · cases here
        next unseen => simpa using unseen
    refine ⟨List.nodup_cons.mpr ⟨fun member => ?_, distinct⟩, List.forall_mem_cons.mpr ⟨new, fun m among seenThere => ?_⟩⟩
    · obtain ⟨m, among, same⟩ := List.mem_map.mp member
      exact fresh m among (same ▸ List.mem_cons_self)
    · exact fresh m among (List.mem_cons_of_mem _ seenThere)

/-! Names of the nodes of a flow. -/

def Stage.nodeNames (s : Stage) (found : Except TemplateError Nexon) : List String :=
  ("fallback" :: (found.toOption.map fun n => n.nodes.map (·.id)).getD []).map (nodeName s.id)

def Channel.nodeNames (c : Channel) (found : List (Except TemplateError Nexon)) : List String :=
  (c.stages.zip found).flatMap fun p => p.1.nodeNames p.2

def Channel.Apart (c : Channel) (found : List (Except TemplateError Nexon)) : Prop :=
  Set.InjOn (deriveId "node") {name | name ∈ c.nodeNames found}

namespace Channel

theorem outcomeNames [Regex] (context : RenderContext) (index : Nat) (s : Stage) {found : Except TemplateError Nexon}
    (sound : ∀ n, found = .ok n → n.content.Sound) :
    ∃ names : List String, names.Nodup ∧ (∀ name ∈ names, name ∈ s.nodeNames found ∧ ∃ node, name = nodeName s.id node)
      ∧ (outcome context index s found).rendered.nodes.map (·.id) = names.map (deriveId "node") := by
  have listed {ids : List String} (distinct : ids.Nodup)
      (known : ∀ id ∈ ids, nodeName s.id id ∈ s.nodeNames found) :
      (ids.map (nodeName s.id)).Nodup
        ∧ ∀ name ∈ ids.map (nodeName s.id), name ∈ s.nodeNames found ∧ ∃ node, name = nodeName s.id node := by
    refine ⟨distinct.map (nodeNameInjective s.id), fun name member => ?_⟩
    obtain ⟨id, among, rfl⟩ := List.mem_map.mp member
    exact ⟨known id among, id, rfl⟩
  simp only [outcome]
  split
  next rendered made =>
    cases found with
    | error reason => cases made
    | ok n =>
      obtain ⟨distinct, known⟩ := listed (nodesDistinct (sound n rfl).ids).1 fun id member =>
        List.mem_map_of_mem (List.mem_cons_of_mem _ member)
      refine ⟨_, distinct, known, ?_⟩
      rw [Stage.renderIds made, List.map_map, List.map_map]
      rfl
  next reason _ =>
    obtain ⟨distinct, known⟩ := listed (List.nodup_singleton "fallback") (List.forall_mem_singleton.mpr
      (List.mem_map_of_mem List.mem_cons_self))
    exact ⟨_, distinct, known, rfl⟩

section

variable [Regex] {pairs : List (Stage × Except TemplateError Nexon)}
  (sound : ∀ p ∈ pairs, ∀ n, p.2 = .ok n → n.content.Sound)
  (identifiers : ∀ p ∈ pairs, isIdentifier p.1.id = true) (distinct : (pairs.map (·.1.id)).Nodup)
include sound identifiers distinct

theorem outcomesNames (context : RenderContext) (index : Nat) :
    ∃ names : List String, names.Nodup
      ∧ (∀ name ∈ names, ∃ p ∈ pairs, name ∈ p.1.nodeNames p.2 ∧ ∃ node, name = nodeName p.1.id node)
      ∧ (outcomes context index pairs).flatMap (·.rendered.nodes.map (·.id)) = names.map (deriveId "node") := by
  induction pairs generalizing index with
  | nil => exact ⟨[], List.nodup_nil, List.forall_mem_nil _, rfl⟩
  | cons p rest ih =>
    obtain ⟨firstSound, restSound⟩ := List.forall_mem_cons.mp sound
    obtain ⟨first, others⟩ := List.forall_mem_cons.mp identifiers
    obtain ⟨fresh, distinct⟩ := List.nodup_cons.mp distinct
    obtain ⟨here, hereDistinct, hereNamed, hereIds⟩ := outcomeNames context index p.1 firstSound
    obtain ⟨later, laterDistinct, laterNamed, laterIds⟩ := ih restSound others distinct (index + 1)
    refine ⟨here ++ later, List.nodup_append.mpr ⟨hereDistinct, laterDistinct, ?_⟩, ?_, ?_⟩
    · rintro name member _ among rfl
      obtain ⟨-, node, same⟩ := hereNamed name member
      obtain ⟨q, inside, -, node', same'⟩ := laterNamed name among
      have stage := nodeNameStage first (others q inside) (same.symm.trans same')
      exact fresh (List.mem_map.mpr ⟨q, inside, stage.symm⟩)
    · intro name member
      rcases List.mem_append.mp member with member | member
      · exact ⟨p, List.mem_cons_self, hereNamed name member⟩
      · obtain ⟨q, inside, known⟩ := laterNamed name member
        exact ⟨q, List.mem_cons_of_mem _ inside, known⟩
    · rw [outcomes, List.flatMap_cons, List.map_append, hereIds, laterIds]

theorem outcomesIdsDistinct (apart : Set.InjOn (deriveId "node") {name | name ∈ pairs.flatMap fun p => p.1.nodeNames p.2})
    (context : RenderContext) (index : Nat) :
    ((outcomes context index pairs).flatMap (·.rendered.nodes.map (·.id))).Nodup := by
  obtain ⟨names, different, known, ids⟩ := outcomesNames sound identifiers distinct context index
  have listed {name : String} (member : name ∈ names) : name ∈ pairs.flatMap fun p => p.1.nodeNames p.2 := by
    obtain ⟨p, among, here, -⟩ := known name member
    exact List.mem_flatMap.mpr ⟨p, among, here⟩
  rw [ids]
  exact different.map_on fun name member name' member' same => apart (listed member) (listed member') same

end

theorem stageIdsDistinct [Regex] {document : Json} {c : Channel} (valid : (validateChannel document).channel = some c)
    (o : GenerationOptions) {found : List (Except TemplateError Nexon)} (all : found.length = c.stages.length)
    (sound : ∀ n, .ok n ∈ found → n.content.Sound) (apart : c.Apart found) :
    ((c.stageOutcomes o found).flatMap (·.rendered.nodes.map (·.id))).Nodup := by
  refine outcomesIdsDistinct (fun p member n same => ?_) (fun p member => ?_) ?_ apart _ 0
  · exact sound n (same ▸ (List.of_mem_zip member).2)
  · exact stageIdentifiers valid p.1 (List.of_mem_zip member).1
  · have stages : (c.stages.zip found).map (·.1) = c.stages := List.map_fst_zip (Nat.le_of_eq all.symm)
    have ids : (c.stages.zip found).map (·.1.id) = c.stageIds := by rw [stageIds, ← stages, List.map_map, stages]; rfl
    rw [ids]
    exact (validFrom valid).stages

/-! Two stages, `a` of a nexon `m` and `b` of a nexon `n`, each leading to the other. -/

attribute [local instance] Pattern.engine

def pairDocument : Json :=
  let stage (id nexon : String) : Json :=
    .ofPairs [("id", .str id), ("nexonId", .str nexon), ("nexonVersion", .str "1.0.0")]
  let edge (id source target : String) : Json :=
    .ofPairs [("id", .str id), ("from", .ofPairs [("stageId", .str source)]), ("to", .ofPairs [("stageId", .str target)])]
  .ofPairs
    [("channelId", .str "c"), ("title", .str "t"), ("stages", .arr [stage "a" "m", stage "b" "n"]),
     ("edges", .arr [edge "e" "a" "b", edge "f" "b" "a"])]

def nexonsOfOne (types : List (String × String)) : FileTree where
  nodes := types.map fun t => (["nexons", t.1, "1.0.0.json"], .file (Text.utf8 (Json.compact (.ofPairs
    [("manifest", .ofPairs [("id", .str t.1), ("version", .str "1.0.0"), ("title", .str "N"),
        ("capabilities", .ofPairs []), ("parameters", .ofPairs [])]),
     ("template", .arr [.ofPairs [("id", .str "x"), ("type", .str t.2)]])]))))

def pairNames : List String := ["a:fallback", "a:x", "b:fallback", "b:x"]

theorem pairApart : Set.InjOn (deriveId "node") {name | name ∈ pairNames} := by
  have distinct : (pairNames.map (deriveId "node")).Nodup := by decide +kernel
  exact fun name member name' member' same => List.inj_on_of_nodup_map distinct member member' same

def pairSources (types : List (String × String)) : List NexonSource := [.directory (nexonsOfOne types) "nexons"]

theorem pairChannel {types : List (String × String)} {clock : Clock} {check : Channel → Bool}
    (checked : (validateChannel pairDocument).channel.any fun c =>
      (c.nodeNames (findNexons (pairSources types) clock (.ofTtl 1) c.stages).1).all pairNames.contains && check c) :
    ∃ c, (validateChannel pairDocument).channel = some c
      ∧ c.Apart (findNexons (pairSources types) clock (.ofTtl 1) c.stages).1 ∧ check c := by
  obtain ⟨c, valid, both⟩ := (Option.any_eq_true _ _).mp checked
  obtain ⟨names, holds⟩ := Bool.and_eq_true_iff.mp both
  refine ⟨c, valid, pairApart.mono fun name member => ?_, holds⟩
  simpa using List.all_eq_true.mp names name member

def bothNexons : List (String × String) := [("m", "debug"), ("n", "debug")]

theorem pairRendered : ∃ c, (validateChannel pairDocument).channel = some c
    ∧ c.Apart (findNexons (pairSources bothNexons) (.still 0) (.ofTtl 1) c.stages).1 := by
  obtain ⟨c, valid, apart, -⟩ := @pairChannel bothNexons (.still 0) (fun _ => true) (by decide +kernel)
  exact ⟨c, valid, apart⟩

end Channel

end Conduit
