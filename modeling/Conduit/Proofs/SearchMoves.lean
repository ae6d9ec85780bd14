import Mathlib.Data.List.Count
import Mathlib.Logic.Function.Iterate
import Mathlib.Tactic.Common
import Conduit.Channel.Validation

/-! The moves of the search for cycles. A walk looks at every edge once and leaves every stage once, so it ends within
the steps it is given, with the stage it began at among those it is done with. -/
namespace Conduit.StageGraph

variable {g : StageGraph}

def Edge (g : StageGraph) (source target : String) : Prop := (source, target) ∈ g.edges

theorem memChildren {node child : String} : child ∈ g.children node ↔ g.Edge node child := by
  simp [children, Edge]

def Search.path (s : Search) : List String := s.frames.map Frame.node

def Search.entered (s : Search) : List String := s.path ++ s.visited

inductive Move (g : StageGraph) : Search → Search → Prop where
  | leave {node below visited cycles} :
      Move g ⟨⟨node, []⟩ :: below, visited, cycles⟩ ⟨below, node :: visited, cycles⟩
  | known {node child pending below visited cycles members}
      (on : child ∈ (⟨node, pending⟩ :: below).map Frame.node) (found : members ∈ cycles)
      (same : sameMembers members (pathFrom child (⟨node, pending⟩ :: below))) :
      Move g ⟨⟨node, child :: pending⟩ :: below, visited, cycles⟩ ⟨⟨node, pending⟩ :: below, visited, cycles⟩
  | report {node child pending below visited cycles}
      (on : child ∈ (⟨node, pending⟩ :: below).map Frame.node)
      (new : ∀ members ∈ cycles, ¬ sameMembers members (pathFrom child (⟨node, pending⟩ :: below))) :
      Move g ⟨⟨node, child :: pending⟩ :: below, visited, cycles⟩
        ⟨⟨node, pending⟩ :: below, visited, pathFrom child (⟨node, pending⟩ :: below) :: cycles⟩
  | pass {node child pending below visited cycles} (done : child ∈ visited) :
      Move g ⟨⟨node, child :: pending⟩ :: below, visited, cycles⟩ ⟨⟨node, pending⟩ :: below, visited, cycles⟩
  | enter {node child pending below visited cycles} (off : child ∉ (⟨node, pending⟩ :: below).map Frame.node)
      (fresh : child ∉ visited) :
      Move g ⟨⟨node, child :: pending⟩ :: below, visited, cycles⟩
        ⟨⟨child, g.children child⟩ :: ⟨node, pending⟩ :: below, visited, cycles⟩

theorem stepMove {s : Search} (going : s.frames ≠ []) : Move g s (g.step s) := by
  match s, going with
  | ⟨⟨node, []⟩ :: below, visited, cycles⟩, _ => exact .leave
  | ⟨⟨node, child :: pending⟩ :: below, visited, cycles⟩, _ =>
    simp only [step, onPath, List.contains_iff_mem, List.any_eq_true]
    split
    next on =>
      split
      next known =>
        obtain ⟨members, found, same⟩ := known
        exact .known on found same
      next new => exact .report on fun members found same => new ⟨members, found, same⟩
    next off =>
      split
      next done => exact .pass done
      next fresh => exact .enter off fresh

theorem runKeeps {P : Search → Prop} (keeps : ∀ {s s'}, Move g s s' → P s → P s') {s : Search} (holds : P s)
    (fuel : Nat) : P (g.run s fuel) := by
  induction fuel generalizing s with
  | zero => exact holds
  | succ fuel ih =>
    rw [run]
    split
    · exact holds
    next going => exact ih (keeps (stepMove fun none => going (by rw [none]; rfl)) holds)

/-! Walks end. -/

def unseen (g : StageGraph) (entered : List String) : Nat := g.edges.countP fun e => decide (e.1 ∉ entered)

/-- Every edge to look at is worth two steps, as it may lead to a stage that has to be left again. -/
def work (g : StageGraph) (s : Search) : Nat :=
  2 * (s.frames.flatMap Frame.pending).length + 2 * g.unseen s.entered + s.frames.length

theorem unseenSame {xs ys : List String} (same : ∀ x, x ∈ xs ↔ x ∈ ys) : g.unseen xs = g.unseen ys := by
  simp only [unseen, same]

theorem unseenEntered {entered : List String} {node : String} (fresh : node ∉ entered) :
    (g.children node).length + g.unseen (node :: entered) = g.unseen entered := by
  rw [children, List.length_map, unseen, unseen]
  induction g.edges with
  | nil => rfl
  | cons e edges ih =>
    by_cases here : e.1 = node
    · simp only [List.filter_cons, List.countP_cons, here, fresh, List.mem_cons, decide_true, if_true, true_or,
        not_true_eq_false, not_false_eq_true, decide_false, List.length_cons] at ih ⊢
      simp only [Bool.false_eq_true, if_false]
      omega
    · simp only [List.filter_cons, List.countP_cons, here, List.mem_cons, decide_false, Bool.false_eq_true, if_false,
        false_or] at ih ⊢
      omega

section

variable {node child : String} {pending : List String} {below : List Frame} {visited : List String}
  {cycles cycles' : List (List String)}

theorem leftLess : g.work ⟨below, node :: visited, cycles'⟩ < g.work ⟨⟨node, []⟩ :: below, visited, cycles⟩ := by
  have same : g.unseen (below.map Frame.node ++ node :: visited) = g.unseen (node :: (below.map Frame.node ++ visited)) :=
    unseenSame fun x => List.perm_middle.mem_iff
  simp only [work, Search.entered, Search.path, List.map_cons, List.cons_append, List.flatMap_cons, List.nil_append,
    List.length_cons, same]
  omega

theorem lookedLess : g.work ⟨⟨node, pending⟩ :: below, visited, cycles'⟩
    < g.work ⟨⟨node, child :: pending⟩ :: below, visited, cycles⟩ := by
  simp only [work, Search.entered, Search.path, List.map_cons, List.flatMap_cons, List.length_append, List.length_cons]
  omega

theorem enteredLess (off : child ∉ (⟨node, pending⟩ :: below : List Frame).map Frame.node) (fresh : child ∉ visited) :
    g.work ⟨⟨child, g.children child⟩ :: ⟨node, pending⟩ :: below, visited, cycles'⟩
      < g.work ⟨⟨node, child :: pending⟩ :: below, visited, cycles⟩ := by
  have split := g.unseenEntered (List.not_mem_append off fresh)
  simp only [work, Search.entered, Search.path, List.map_cons, List.cons_append, List.flatMap_cons, List.length_append,
    List.length_cons] at split ⊢
  omega

end

theorem moveLess {s s' : Search} (move : Move g s s') : g.work s' < g.work s := by
  cases move with
  | leave => exact leftLess
  | known on found same => exact lookedLess
  | report on new => exact lookedLess
  | pass done => exact lookedLess
  | enter off fresh => exact enteredLess off fresh

def Ends (g : StageGraph) (s s' : Search) : Prop :=
  s'.frames = [] ∧ ∃ steps, s' = g.step^[steps] s ∧ ∀ earlier < steps, (g.step^[earlier] s).frames ≠ []

theorem endsHere {s : Search} (ended : s.frames = []) : g.Ends s s :=
  ⟨ended, 0, rfl, fun _ none => absurd none (Nat.not_lt_zero _)⟩

theorem endsLater {s s' : Search} (going : s.frames ≠ []) (ends : g.Ends (g.step s) s') : g.Ends s s' := by
  obtain ⟨ended, steps, same, before⟩ := ends
  refine ⟨ended, steps + 1, by rw [same, Function.iterate_succ_apply], fun earlier less => ?_⟩
  cases earlier with
  | zero => exact going
  | succ earlier => exact before earlier (Nat.lt_of_succ_lt_succ less)

theorem runEnds {s : Search} {fuel : Nat} (enough : g.work s ≤ fuel) : g.Ends s (g.run s fuel) := by
  induction fuel generalizing s with
  | zero => exact endsHere (List.eq_nil_of_length_eq_zero (by rw [work] at enough; omega))
  | succ fuel ih =>
    rw [run]
    split
    next done => exact endsHere (List.isEmpty_iff.mp done)
    next more =>
      have going : s.frames ≠ [] := fun none => more (by rw [none]; rfl)
      have less := moveLess (@stepMove g s going)
      exact endsLater going (ih (by omega))

def begun (g : StageGraph) (s : Search) (start : String) : Search :=
  { s with frames := [⟨start, g.children start⟩] }

section

variable {s : Search} {start : String} (fresh : start ∉ s.visited)
include fresh

theorem searchFromFresh : g.searchFrom s start = g.run (g.begun s start) g.searchFuel := by
  rw [searchFrom, if_neg (by simpa using fresh)]
  rfl

theorem begunWork : g.work (g.begun s start) ≤ g.searchFuel := by
  have split := g.unseenEntered fresh
  have bound : g.unseen s.visited ≤ g.edges.length := List.countP_le_length
  simp only [work, begun, Search.entered, Search.path, searchFuel, List.map_cons, List.map_nil, List.flatMap_cons, List.flatMap_nil,
    List.length_append, List.length_cons, List.length_nil, List.cons_append, List.nil_append]
  omega

end

theorem walkEnds {s : Search} {start : String} (fresh : start ∉ s.visited) :
    g.Ends (g.begun s start) (g.searchFrom s start) := by
  rw [searchFromFresh fresh]
  exact runEnds (begunWork fresh)

theorem searchFromDone {s : Search} {start : String} (done : start ∈ s.visited) : g.searchFrom s start = s := by
  rw [searchFrom, if_pos (by simpa using done)]

theorem searchFromEnds {s : Search} (ended : s.frames = []) (start : String) : (g.searchFrom s start).frames = [] := by
  by_cases done : start ∈ s.visited
  · rw [searchFromDone done]
    exact ended
  · exact (walkEnds done).1

/-! What a walk keeps, walks one after another keep; and each leaves its start among the stages done with. -/

theorem moveEntered {s s' : Search} (move : Move g s s') : s.entered ⊆ s'.entered := by
  cases move with
  | leave => exact List.perm_middle.symm.subset
  | known on found same => exact List.Subset.refl _
  | report on new => exact List.Subset.refl _
  | pass done => exact List.Subset.refl _
  | enter off fresh => exact List.subset_cons_self _ _

theorem searchFromVisits {s : Search} (ended : s.frames = []) (start : String) :
    start :: s.visited ⊆ (g.searchFrom s start).visited := by
  by_cases done : start ∈ s.visited
  · rw [searchFromDone done]
    exact List.cons_subset.mpr ⟨done, List.Subset.refl _⟩
  · have entered : (g.begun s start).entered ⊆ (g.searchFrom s start).entered := by
      rw [searchFromFresh done]
      exact runKeeps (P := fun s' => (g.begun s start).entered ⊆ s'.entered)
        (fun move within => List.Subset.trans within (moveEntered move)) (List.Subset.refl _) _
    rwa [Search.entered, Search.entered, Search.path, Search.path, searchFromEnds ended] at entered

theorem searchedVisits {s : Search} (ended : s.frames = []) (starts : List String) :
    starts ++ s.visited ⊆ (starts.foldl g.searchFrom s).visited := by
  induction starts generalizing s with
  | nil => exact List.Subset.refl _
  | cons start rest ih =>
    obtain ⟨first, before⟩ := List.cons_subset.mp (searchFromVisits (g := g) ended start)
    obtain ⟨later, kept⟩ := List.append_subset.mp (ih (searchFromEnds ended start))
    exact List.append_subset.mpr ⟨List.cons_subset.mpr ⟨kept first, later⟩, List.Subset.trans before kept⟩

theorem searchedKeeps {P : Search → Prop}
    (begins : ∀ {s start}, start ∈ g.order → start ∉ s.visited → s.frames = [] → P s → P (g.begun s start))
    (keeps : ∀ {s s'}, Move g s s' → P s → P s') {starts : List String} (listed : starts ⊆ g.order) {s : Search}
    (ended : s.frames = []) (holds : P s) :
    (starts.foldl g.searchFrom s).frames = [] ∧ P (starts.foldl g.searchFrom s) := by
  induction starts generalizing s with
  | nil => exact ⟨ended, holds⟩
  | cons start rest ih =>
    obtain ⟨first, others⟩ := List.cons_subset.mp listed
    refine ih others (searchFromEnds ended start) ?_
    by_cases done : start ∈ s.visited
    · rw [searchFromDone done]
      exact holds
    · rw [searchFromFresh done]
      exact runKeeps keeps (begins first done ended holds) _

end Conduit.StageGraph
