import Mathlib.Data.List.Chain
import Mathlib.Data.List.Nodup
import Mathlib.Data.List.Perm.Basic
import Mathlib.Logic.Relation
import Conduit.Proofs.SearchMoves

/-! The cycles that the search finds. Each is one, no two have the same stages, and without the edges that close them
no cycle is left that could be reached: an edge to a stage on the path closes a reported cycle, and every other edge
leads to a stage that is done with sooner. -/
namespace Conduit.StageGraph

open Relation (ReflTransGen TransGen)
open scoped List

variable {g : StageGraph}

structure IsCycle (g : StageGraph) (cycle : List String) : Prop where
  long : 2 ≤ cycle.length
  closed : cycle.getLast? = cycle.head?
  distinct : cycle.dropLast.Nodup
  linked : cycle.IsChain g.Edge

def closing (cycle : List String) : Option (String × String) := do
  return (← cycle.dropLast.getLast?, ← cycle.head?)

def Search.closings (s : Search) : List (String × String) := (s.cycles.map close).filterMap closing

def Reached (g : StageGraph) (node : String) : Prop := ∃ stage ∈ g.order, ReflTransGen g.Edge stage node

/-! Cycles as they are met. -/

theorem sameMembersIff {a b : List String} : sameMembers a b ↔ ∀ x, x ∈ a ↔ x ∈ b := by
  simp only [sameMembers, Bool.and_eq_true, List.all_eq_true, List.contains_iff_mem]
  exact ⟨fun both x => ⟨both.1 x, both.2 x⟩, fun same => ⟨fun x => (same x).mp, fun x => (same x).mpr⟩⟩

theorem equalOfMembers {found a b : List String} (distinct : found.Nodup) (left : a.reverse <+ found)
    (right : b.reverse <+ found) (same : sameMembers a b) : a = b := by
  have members (x : String) : x ∈ a.reverse ↔ x ∈ b.reverse := by
    rw [List.mem_reverse, List.mem_reverse, sameMembersIff.mp same x]
  have perm := (List.perm_ext_iff_of_nodup (distinct.sublist left) (distinct.sublist right)).mpr members
  exact List.reverse_injective ((distinct.perm_iff_eq_of_sublist left right).mp perm)

theorem splitAt {path : List String} {child : String} (on : child ∈ path) :
    ∃ after, path = path.takeWhile (· ≠ child) ++ child :: after := by
  induction path with
  | nil => cases on
  | cons node path ih =>
    by_cases here : node = child
    · exact ⟨path, by simp [here]⟩
    · obtain ⟨after, split⟩ := ih ((List.mem_cons.mp on).resolve_left (Ne.symm here))
      exact ⟨after, by simpa [List.takeWhile_cons, here] using split⟩

theorem pathFromSource {child node : String} {frames : List Frame} {rest : List String}
    (top : frames.map Frame.node = node :: rest) (on : child ∈ frames.map Frame.node) :
    ∃ before after, frames.map Frame.node = before ++ child :: after
      ∧ pathFrom child frames = child :: before.reverse ∧ (before ++ [child]).head? = some node := by
  obtain ⟨after, split⟩ := splitAt on
  refine ⟨_, after, split, by simp [pathFrom], ?_⟩
  rw [split] at top
  cases before : (frames.map Frame.node).takeWhile (· ≠ child) with
  | nil =>
    rw [before] at top
    exact congrArg some (List.cons.inj top).1
  | cons first others =>
    rw [before] at top
    exact congrArg some (List.cons.inj top).1

section

variable {child node : String} {before after : List String}
  (top : (before ++ [child]).head? = some node)
include top

theorem closingMet : closing (close (child :: before.reverse)) = some (node, child) := by
  have last : (child :: before.reverse).getLast? = some node := by
    rw [← top, ← List.getLast?_reverse]
    simp
  simp only [closing, close, List.head?_cons, Option.toList_some, List.dropLast_concat, last]
  rfl

theorem cycleMet (distinct : (before ++ child :: after).Nodup)
    (linked : (before ++ child :: after).IsChain fun later earlier => g.Edge earlier later) (edge : g.Edge node child) :
    g.IsCycle (close (child :: before.reverse)) := by
  have part : before ++ [child] <+: before ++ child :: after := ⟨after, by simp⟩
  have path := linked.prefix part
  have written : close (child :: before.reverse) = (before ++ [child]).reverse ++ [child] := by simp [close]
  refine ⟨by simp [close], ?_, ?_, ?_⟩
  · rw [written, List.getLast?_concat, ← written]
    rfl
  · rw [written, List.dropLast_concat, List.nodup_reverse]
    exact distinct.sublist part.sublist
  · rw [written]
    refine List.IsChain.append (List.isChain_reverse.mpr path) (List.isChain_singleton _) ?_
    intro last atEnd first atStart
    rw [List.getLast?_reverse, top] at atEnd
    obtain rfl : node = last := by simpa using atEnd
    obtain rfl : child = first := by simpa using atStart
    exact edge

end

/-! The search as it goes. -/

/-- Every child that was looked at stands above its stage on the path, or is settled. -/
def Looked (g : StageGraph) (settled : String → String → Prop) : List String → List Frame → Prop
  | _, [] => True
  | above, ⟨node, pending⟩ :: below =>
    (∃ seen, g.children node = seen ++ pending ∧ ∀ child ∈ seen, child ∈ above ∨ settled node child)
      ∧ Looked g settled (node :: above) below

/-- Every stage leads to stages that were done with before, but by closing edges. -/
def Finished (g : StageGraph) (closings : List (String × String)) : List String → Prop
  | [] => True
  | node :: earlier =>
    (∀ child ∈ g.children node, child ∈ earlier ∨ (node, child) ∈ closings) ∧ Finished g closings earlier

def Search.Settled (s : Search) (node child : String) : Prop := child ∈ s.visited ∨ (node, child) ∈ s.closings

theorem lookedMore {settled settled' : String → String → Prop} {above above' : List String} {frames : List Frame}
    (looked : Looked g settled above frames) (more : ∀ node child, settled node child → settled' node child)
    (moved : ∀ child ∈ above, child ∈ above' ∨ ∀ node, settled' node child) : Looked g settled' above' frames := by
  induction frames generalizing above above' with
  | nil => trivial
  | cons frame below ih =>
    obtain ⟨⟨seen, split, each⟩, under⟩ := looked
    refine ⟨⟨seen, split, fun child member => ?_⟩, ih under fun child member => ?_⟩
    · rcases each child member with up | done
      · exact (moved child up).imp_right fun all => all _
      · exact .inr (more _ _ done)
    · rcases List.mem_cons.mp member with rfl | up
      · exact .inl List.mem_cons_self
      · exact (moved child up).imp_left (List.mem_cons_of_mem _)

theorem lookedNext {settled settled' : String → String → Prop} {above : List String} {node child : String}
    {pending : List String} {below : List Frame} (looked : Looked g settled [] (⟨node, child :: pending⟩ :: below))
    (more : ∀ node child, settled node child → settled' node child) (next : child ∈ above ∨ settled' node child) :
    Looked g settled' above (⟨node, pending⟩ :: below) := by
  obtain ⟨⟨seen, split, each⟩, under⟩ := looked
  refine ⟨⟨seen ++ [child], by simp [split], fun other member => ?_⟩, lookedMore under more fun other member => ?_⟩
  · rcases List.mem_append.mp member with before | last
    · exact (each other before).elim (fun none => by cases none) fun done => .inr (more _ _ done)
    · obtain rfl := List.mem_singleton.mp last
      exact next
  · obtain rfl := List.mem_singleton.mp member
    exact .inl List.mem_cons_self

theorem pendingEdge {settled : String → String → Prop} {above : List String} {node child : String}
    {pending : List String}
    {below : List Frame} (looked : Looked g settled above (⟨node, child :: pending⟩ :: below)) : g.Edge node child := by
  obtain ⟨⟨seen, split, -⟩, -⟩ := looked
  exact memChildren.mp (by simp [split])

theorem finishedMore {closings closings' : List (String × String)} {visited : List String}
    (finished : Finished g closings visited) (more : closings ⊆ closings') : Finished g closings' visited := by
  induction visited with
  | nil => trivial
  | cons node earlier ih => exact ⟨fun child member => (finished.1 child member).imp_right fun c => more c, ih finished.2⟩

/-- What is known of a search: the stages in the order they were found, the last first, and how its parts hang together
with that order. -/
structure Walked (g : StageGraph) (s : Search) (found : List String) : Prop where
  distinct : found.Nodup
  entered : found.Perm s.entered
  path : s.path <+ found
  linked : s.path.IsChain fun later earlier => g.Edge earlier later
  reached : ∀ node ∈ found, g.Reached node
  looked : g.Looked s.Settled [] s.frames
  finished : g.Finished s.closings s.visited
  cycles : ∀ members ∈ s.cycles, members.reverse <+ found ∧ g.IsCycle (close members)
  apart : s.cycles.Pairwise fun newer older => ¬ sameMembers older newer

theorem memClosings {s : Search} {edge : String × String} :
    edge ∈ s.closings ↔ ∃ members ∈ s.cycles, closing (close members) = some edge := by
  simp [Search.closings]

section

variable {node child : String} {pending : List String} {below : List Frame} {visited : List String}
  {cycles : List (List String)} {found : List String}

theorem leaveWalked (walked : Walked g ⟨⟨node, []⟩ :: below, visited, cycles⟩ found) :
    Walked g ⟨below, node :: visited, cycles⟩ found := by
  obtain ⟨⟨seen, split, each⟩, under⟩ := walked.looked
  refine ⟨walked.distinct, walked.entered.trans List.perm_middle.symm, (List.sublist_cons_self _ _).trans walked.path,
    walked.linked.tail, walked.reached, lookedMore under ?_ ?_, ⟨?_, walked.finished⟩, walked.cycles, walked.apart⟩
  · exact fun _ _ settled => settled.imp_left (List.mem_cons_of_mem _)
  · intro child above
    obtain rfl := List.mem_singleton.mp above
    exact .inr fun _ => .inl List.mem_cons_self
  · intro child member
    rw [split, List.append_nil] at member
    exact (each child member).resolve_left List.not_mem_nil

theorem settledWalked (walked : Walked g ⟨⟨node, child :: pending⟩ :: below, visited, cycles⟩ found)
    (settled : Search.Settled ⟨⟨node, child :: pending⟩ :: below, visited, cycles⟩ node child) :
    Walked g ⟨⟨node, pending⟩ :: below, visited, cycles⟩ found :=
  ⟨walked.distinct, walked.entered, walked.path, walked.linked, walked.reached,
    lookedNext walked.looked (fun _ _ done => done) (.inr settled), walked.finished, walked.cycles, walked.apart⟩

theorem reportedWalked {s : Search} (walked : Walked g s found) {members : List String}
    (order : members.reverse <+ found)
    (cycle : g.IsCycle (close members)) (new : ∀ older ∈ s.cycles, ¬ sameMembers older members) :
    Walked g { s with cycles := members :: s.cycles } found := by
  have more : s.closings ⊆ Search.closings { s with cycles := members :: s.cycles } := by
    intro edge member
    obtain ⟨older, among, closes⟩ := memClosings.mp member
    exact memClosings.mpr ⟨older, List.mem_cons_of_mem _ among, closes⟩
  exact ⟨walked.distinct, walked.entered, walked.path, walked.linked, walked.reached,
    lookedMore walked.looked (fun _ _ done => done.imp_right fun closes => more closes) (fun _ none => by cases none),
    finishedMore walked.finished more, List.forall_mem_cons.mpr ⟨⟨order, cycle⟩, walked.cycles⟩,
    List.pairwise_cons.mpr ⟨new, walked.apart⟩⟩

theorem enterWalked (walked : Walked g ⟨⟨node, child :: pending⟩ :: below, visited, cycles⟩ found)
    (off : child ∉ (⟨node, pending⟩ :: below : List Frame).map Frame.node) (fresh : child ∉ visited) :
    Walked g ⟨⟨child, g.children child⟩ :: ⟨node, pending⟩ :: below, visited, cycles⟩ (child :: found) := by
  have edge := pendingEdge walked.looked
  have new : child ∉ found := by
    intro member
    exact (List.mem_append.mp (walked.entered.subset member)).elim off fresh
  have parent : node ∈ found := walked.path.subset List.mem_cons_self
  refine ⟨List.nodup_cons.mpr ⟨new, walked.distinct⟩, walked.entered.cons child, walked.path.cons_cons child,
    walked.linked.cons_cons edge, List.forall_mem_cons.mpr ⟨?_, walked.reached⟩, ⟨⟨[], rfl, fun _ none => by cases none⟩, ?_⟩,
    walked.finished, fun members member => ⟨?_, (walked.cycles members member).2⟩, walked.apart⟩
  · obtain ⟨stage, listed, path⟩ := walked.reached node parent
    exact ⟨stage, listed, path.tail edge⟩
  · exact lookedNext walked.looked (fun _ _ done => done) (.inl List.mem_cons_self)
  · exact (walked.cycles members member).1.trans (List.sublist_cons_self _ _)

theorem metWalked (walked : Walked g ⟨⟨node, child :: pending⟩ :: below, visited, cycles⟩ found)
    (on : child ∈ (⟨node, pending⟩ :: below : List Frame).map Frame.node) :
    (pathFrom child (⟨node, pending⟩ :: below)).reverse <+ found
      ∧ g.IsCycle (close (pathFrom child (⟨node, pending⟩ :: below)))
      ∧ closing (close (pathFrom child (⟨node, pending⟩ :: below))) = some (node, child) := by
  obtain ⟨before, after, split, written, top⟩ := pathFromSource rfl on
  have whole : (Search.path ⟨⟨node, child :: pending⟩ :: below, visited, cycles⟩) = before ++ child :: after := split
  have path := walked.path
  have linked := walked.linked
  rw [whole] at path linked
  rw [written]
  refine ⟨?_, cycleMet top (walked.distinct.sublist path) linked (pendingEdge walked.looked), closingMet top⟩
  have part : before ++ [child] <+: before ++ child :: after := ⟨after, by simp⟩
  simpa using part.sublist.trans path

end

theorem moveWalked {s s' : Search} (move : Move g s s') (walked : ∃ found, Walked g s found) :
    ∃ found, Walked g s' found := by
  obtain ⟨found, walked⟩ := walked
  cases move with
  | leave => exact ⟨found, leaveWalked walked⟩
  | known on among same =>
    -- the members found before are these very members, in the same order, so the edge closes that cycle
    obtain ⟨order, -, closes⟩ := metWalked walked on
    obtain rfl := equalOfMembers walked.distinct (walked.cycles _ among).1 order same
    exact ⟨found, settledWalked walked (.inr (memClosings.mpr ⟨_, among, closes⟩))⟩
  | report on new =>
    obtain ⟨order, cycle, closes⟩ := metWalked walked on
    have reported := reportedWalked walked order cycle new
    exact ⟨found, settledWalked reported (.inr (memClosings.mpr ⟨_, List.mem_cons_self, closes⟩))⟩
  | pass done => exact ⟨found, settledWalked walked (.inl done)⟩
  | enter off fresh => exact ⟨_, enterWalked walked off fresh⟩

theorem begunWalked {s : Search} {start : String} (listed : start ∈ g.order) (fresh : start ∉ s.visited)
    (ended : s.frames = []) (walked : ∃ found, Walked g s found) : ∃ found, Walked g (g.begun s start) found := by
  obtain ⟨found, walked⟩ := walked
  have entered := walked.entered
  rw [Search.entered, Search.path, ended, List.map_nil, List.nil_append] at entered
  exact ⟨start :: found, List.nodup_cons.mpr ⟨fun member => fresh (entered.subset member), walked.distinct⟩,
    entered.cons start, (List.nil_sublist found).cons_cons start, List.isChain_singleton start,
    List.forall_mem_cons.mpr ⟨⟨start, listed, .refl⟩, walked.reached⟩, ⟨⟨[], rfl, fun _ none => by cases none⟩, trivial⟩,
    walked.finished, fun members member => ⟨(walked.cycles members member).1.trans (List.sublist_cons_self _ _),
      (walked.cycles members member).2⟩, walked.apart⟩

theorem emptyWalked : Walked g {} [] :=
  ⟨List.nodup_nil, .nil, .slnil, .nil, List.forall_mem_nil _, trivial, trivial, List.forall_mem_nil _, .nil⟩

theorem searchedWalked {starts : List String} (listed : starts ⊆ g.order) :
    (starts.foldl g.searchFrom {}).frames = [] ∧ ∃ found, Walked g (starts.foldl g.searchFrom {}) found :=
  searchedKeeps begunWalked moveWalked listed rfl ⟨[], emptyWalked⟩

/-! When it is over. -/

def Onward (g : StageGraph) (closings : List (String × String)) (source target : String) : Prop :=
  g.Edge source target ∧ (source, target) ∉ closings

theorem onwardFinished {closings : List (String × String)} {visited : List String}
    (finished : Finished g closings visited)
    {source target : String} (member : source ∈ visited) (onward : g.Onward closings source target) : target ∈ visited := by
  induction visited with
  | nil => cases member
  | cons node earlier ih =>
    rcases List.mem_cons.mp member with rfl | before
    · have settled := finished.1 target (memChildren.mpr onward.1)
      exact List.mem_cons_of_mem _ (settled.resolve_right onward.2)
    · exact List.mem_cons_of_mem _ (ih finished.2 before)

theorem onwardsFinished {closings : List (String × String)} {visited : List String}
    (finished : Finished g closings visited)
    {source target : String} (member : source ∈ visited) (path : ReflTransGen (g.Onward closings) source target) :
    target ∈ visited := by
  induction path with
  | refl => exact member
  | tail _ onward ih => exact onwardFinished finished ih onward

theorem noOnwardCycle {closings : List (String × String)} {visited : List String}
    (finished : Finished g closings visited)
    (distinct : visited.Nodup) {node : String} (member : node ∈ visited) : ¬ TransGen (g.Onward closings) node node := by
  induction visited with
  | nil => cases member
  | cons last earlier ih =>
    obtain ⟨fresh, others⟩ := List.nodup_cons.mp distinct
    rcases List.mem_cons.mp member with rfl | before
    · intro cycle
      -- the next stage was done with sooner, and from there no path comes back
      obtain ⟨next, onward, back⟩ := TransGen.head'_iff.mp cycle
      have settled := finished.1 next (memChildren.mpr onward.1)
      exact fresh (onwardsFinished finished.2 (settled.resolve_right onward.2) back)
    · exact ih finished.2 others before

theorem cycleTurns {cycle : List String} (whole : g.IsCycle cycle) :
    ∃ node ∈ cycle.dropLast, TransGen g.Edge node node := by
  match cycle, whole with
  | node :: next :: rest, whole =>
    have last : node ∈ (next :: rest).getLast? := whole.closed
    have paths : (node :: next :: rest).IsChain (TransGen g.Edge) := whole.linked.imp fun _ _ edge => .single edge
    exact ⟨node, List.mem_cons_self,
      List.rel_of_pairwise_cons (List.isChain_iff_pairwise.mp paths) (List.mem_of_getLast? last)⟩
  | [node], whole => exact absurd whole.long (by simp)
  | [], whole => exact absurd whole.long (by simp)

def closings (g : StageGraph) : List (String × String) := g.cycles.filterMap closing

def opened (g : StageGraph) : StageGraph := { g with edges := g.edges.filter (· ∉ g.closings) }

theorem memCycles {cycle : List String} : cycle ∈ g.cycles ↔ ∃ members ∈ g.search.cycles, close members = cycle := by
  simp [cycles]

theorem openedEdge {source target : String} :
    g.opened.Edge source target ↔ g.Onward g.search.closings source target := by
  have same : (source, target) ∈ g.closings ↔ (source, target) ∈ g.search.closings := by
    simp [closings, cycles, Search.closings]
  simp only [Edge, opened, Onward, List.mem_filter, decide_eq_true_eq, same]

theorem memClose {members : List String} {x : String} : x ∈ close members ↔ x ∈ members := by
  cases members with
  | nil => rfl
  | cons first rest => simp [close, or_comm]

theorem closingMember {cycle : List String} {source target : String} (closes : closing cycle = some (source, target)) :
    target ∈ cycle := by
  obtain ⟨last, -, rest⟩ := Option.bind_eq_some_iff.mp closes
  obtain ⟨first, atStart, same⟩ := Option.bind_eq_some_iff.mp rest
  obtain rfl : first = target := (Prod.mk.inj (Option.some.inj same)).2
  exact List.mem_of_mem_head? atStart

section

variable {found : List String} (walked : Walked g g.search found)
include walked

theorem visitedFound : found.Perm g.search.visited := by
  have entered := walked.entered
  rwa [Search.entered, Search.path, search, (searchedWalked (List.Subset.refl g.order)).1] at entered

theorem reachedVisited {node : String} (reached : g.Reached node) : node ∈ g.search.visited := by
  obtain ⟨stage, listed, path⟩ := reached
  induction path with
  | refl => exact (List.append_subset.mp (searchedVisits rfl g.order)).1 listed
  | @tail source target _ edge ih =>
    by_cases closes : (source, target) ∈ g.search.closings
    · obtain ⟨members, among, same⟩ := memClosings.mp closes
      have member : target ∈ members.reverse := List.mem_reverse.mpr (memClose.mp (closingMember same))
      exact (visitedFound walked).subset ((walked.cycles members among).1.subset member)
    · exact onwardFinished walked.finished ih ⟨edge, closes⟩

theorem reportedApart : g.cycles.Pairwise fun cycle other => ¬ ∀ x, x ∈ cycle ↔ x ∈ other := by
  rw [cycles, List.pairwise_map, List.pairwise_reverse]
  refine walked.apart.imp fun {newer older} apart same => apart (sameMembersIff.mpr fun x => ?_)
  rw [← memClose, same x, memClose]

theorem noOpenedCycle {node : String} (reached : g.Reached node) : ¬ TransGen g.opened.Edge node node := by
  have distinct := (visitedFound walked).nodup_iff.mp walked.distinct
  have open' := noOnwardCycle walked.finished distinct (reachedVisited walked reached)
  exact fun cycle => open' (TransGen.mono (fun _ _ edge => openedEdge.mp edge) _ _ cycle)

theorem reportedReached {cycle : List String} (reported : cycle ∈ g.cycles) :
    ∃ node, g.Reached node ∧ TransGen g.Edge node node := by
  obtain ⟨members, among, rfl⟩ := memCycles.mp reported
  obtain ⟨order, whole⟩ := walked.cycles members among
  obtain ⟨node, member, turns⟩ := cycleTurns whole
  have inside : node ∈ members.reverse := List.mem_reverse.mpr (memClose.mp ((List.dropLast_sublist _).subset member))
  exact ⟨node, walked.reached node (order.subset inside), turns⟩

end

theorem cyclesFound (g : StageGraph) :
    (∀ (s : Search) (start : String), start ∉ s.visited → g.Ends (g.begun s start) (g.searchFrom s start))
      ∧ (∀ cycle ∈ g.cycles, g.IsCycle cycle)
      ∧ g.cycles.Pairwise (fun cycle other => ¬ ∀ x, x ∈ cycle ↔ x ∈ other)
      ∧ (∀ node, g.Reached node → ¬ TransGen g.opened.Edge node node)
      ∧ (g.cycles = [] ↔ ∀ node, g.Reached node → ¬ TransGen g.Edge node node) := by
  obtain ⟨-, found, walked⟩ := searchedWalked (List.Subset.refl g.order)
  refine ⟨fun _ _ fresh => walkEnds fresh, fun cycle reported => ?_, reportedApart walked,
    fun _ reached => noOpenedCycle walked reached, fun none node reached cycle => ?_, fun open' => ?_⟩
  · obtain ⟨members, among, rfl⟩ := memCycles.mp reported
    exact (walked.cycles members among).2
  · have every : g.opened.edges = g.edges := by simp [opened, closings, none]
    have kept (source target : String) (edge : g.Edge source target) : g.opened.Edge source target := by
      rwa [Edge, every]
    exact noOpenedCycle walked reached (TransGen.mono kept _ _ cycle)
  · refine List.eq_nil_iff_forall_not_mem.mpr fun cycle reported => ?_
    obtain ⟨node, reached, turns⟩ := reportedReached walked reported
    exact open' node reached turns

example : cycles ⟨["a", "b", "c"], [("a", "b"), ("b", "a"), ("b", "a"), ("b", "c"), ("c", "c"), ("d", "d")]⟩
    = [["a", "b", "a"], ["c", "c"]] := by decide

end Conduit.StageGraph
