import Conduit.Files

/-! Where paths lead that have a name joined to them, and what a tree keeps of itself outside one directory when only
that directory changes. -/
namespace Conduit

namespace FileTree

/-! Paths. -/

structure IsName (name : String) : Prop where
  slash : '/' ∉ name.toList
  filled : name ≠ ""
  here : name ≠ "."
  above : name ≠ ".."

theorem splitSome (cs : List Char) : ∃ part parts, splitSlash cs = part :: parts := by
  induction cs with
  | nil => exact ⟨[], [], rfl⟩
  | cons c rest ih =>
    obtain ⟨part, parts, same⟩ := ih
    rw [splitSlash, same]
    split
    · exact ⟨_, _, rfl⟩
    · exact ⟨_, _, rfl⟩

theorem splitJoined (a b : List Char) : splitSlash (a ++ '/' :: b) = splitSlash a ++ splitSlash b := by
  induction a with
  | nil => rfl
  | cons c rest ih =>
    rw [List.cons_append, splitSlash, splitSlash, ih]
    split
    · rfl
    · obtain ⟨part, parts, same⟩ := splitSome rest
      rw [same]
      rfl

theorem splitPlain {cs : List Char} (plain : '/' ∉ cs) : splitSlash cs = [cs] := by
  induction cs with
  | nil => rfl
  | cons c rest ih =>
    rw [List.mem_cons, not_or] at plain
    rw [splitSlash, if_neg (Ne.symm plain.1), ih plain.2]

section

variable {name : String} (one : IsName name)
include one

theorem IsName.relative : isAbsolute name = false := by
  refine decide_eq_false fun absolute => one.slash ?_
  exact List.mem_of_mem_head? absolute

theorem joinedChars (dir : String) :
    (join dir name).toList = name.toList ∧ dir = ""
      ∨ ∃ front, (join dir name).toList = front ++ '/' :: name.toList
        ∧ (dir.toList = front ∧ front ≠ [] ∨ dir.toList = front ++ ['/']) := by
  unfold join
  rw [one.relative, Bool.false_or]
  split
  next empty => exact .inl ⟨rfl, by simpa using empty⟩
  next filled =>
    right
    split
    next ends =>
      obtain ⟨front, same⟩ := List.getLast?_eq_some_iff.mp ends
      exact ⟨front, by rw [String.toList_append, same, List.append_assoc]; rfl, .inr same⟩
    next =>
      have some : dir.toList ≠ [] := fun none => filled (decide_eq_true (String.toList_eq_nil_iff.mp none))
      exact ⟨dir.toList, by rw [String.toList_append, String.toList_append, List.append_assoc]; rfl, .inl ⟨rfl, some⟩⟩

theorem joinedLast (dir : String) : (splitSlash (join dir name).toList).getLast? = some name.toList := by
  rcases joinedChars one dir with ⟨same, -⟩ | ⟨front, same, -⟩
  · rw [same, splitPlain one.slash]
    rfl
  · rw [same, splitJoined, splitPlain one.slash, List.getLast?_concat]

theorem joinedParts (dir : String) : parts (join dir name) = parts dir ++ [name] := by
  have kept : ([name.toList].map String.ofList).filter (fun s => s ≠ "" && s ≠ ".") = [name] := by
    simp [one.filled, one.here]
  unfold parts
  rcases joinedChars one dir with ⟨same, rfl⟩ | ⟨front, same, ⟨before, -⟩ | before⟩
  · rw [same, splitPlain one.slash, kept]
    rfl
  · rw [same, before, splitJoined, splitPlain one.slash, List.map_append, List.filter_append, kept]
  · rw [same, before, splitJoined, splitJoined, splitPlain one.slash, List.map_append, List.filter_append, kept,
      List.map_append, List.filter_append]
    simp [splitSlash]

theorem joinedStart (t : FileTree) (dir : String) : t.start (join dir name) = t.start dir := by
  have same : isAbsolute (join dir name) = isAbsolute dir := by
    rcases joinedChars one dir with ⟨same, rfl⟩ | ⟨front, same, before⟩
    · rw [isAbsolute, same, ← isAbsolute, one.relative]
      rfl
    · rw [isAbsolute, isAbsolute, same]
      rcases before with ⟨before, some⟩ | before
      · obtain ⟨first, rest, same⟩ := List.exists_cons_of_ne_nil some
        rw [before, same]
        rfl
      · rw [before]
        cases front <;> rfl
  rw [start, start, same]

theorem joinedFile (dir : String) : endsInDirectory (join dir name) = false := by
  have filled : name.toList ≠ [] := fun none => one.filled (String.toList_eq_nil_iff.mp none)
  have here : name.toList ≠ ['.'] := fun dot => one.here (String.toList_inj.mp dot)
  simp only [endsInDirectory, joinedLast one, filled, here, decide_false, Bool.or_self]

theorem joinedFilled (dir : String) : join dir name ≠ "" := by
  intro none
  have last := joinedLast one dir
  rw [none] at last
  exact one.filled (String.toList_eq_nil_iff.mp (Option.some.inj last).symm)

/-! Walks. -/

def reach (t : FileTree) (path : String) : Except FileError Route := t.walk (t.start path) (parts path)

omit one in
theorem walkOn (t : FileTree) (here : Route) (names more : List String) :
    t.walk here (names ++ more) = t.walk here names >>= fun there => t.walk there more := by
  induction names generalizing here with
  | nil => rfl
  | cons first rest ih =>
    rw [List.cons_append, walk, walk]
    split
    · rfl
    · rfl
    · exact ih _

theorem walkDown {t : FileTree} {here : Route} (entered : t.node? here = some .directory) :
    t.walk here [name] = .ok (here ++ [name]) := by
  rw [walk, entered, if_neg one.above]
  rfl

theorem reachJoined (t : FileTree) (dir : String) :
    t.reach (join dir name) = t.reach dir >>= fun there => t.walk there [name] := by
  rw [reach, joinedStart one, joinedParts one, walkOn]
  rfl

theorem locateJoined (t : FileTree) (dir : String) : t.locate (join dir name) = t.reach (join dir name) := by
  rw [locate, if_neg (joinedFilled one dir), joinedFile one, reach]
  cases t.walk (t.start (join dir name)) (parts (join dir name)) <;> rfl

end

/-! Trees that differ below one route. -/

structure SameOutside (route : Route) (t t' : FileTree) : Prop where
  current : t.current = t'.current
  nodes : t.nodes.filter (fun n => !route.isPrefixOf n.1) = t'.nodes.filter (fun n => !route.isPrefixOf n.1)

def Apart (r route : Route) : Prop := ¬ r <+: route ∧ ¬ route <+: r

theorem keptOutside {r route : Route} (apart : Apart r route) {n : Route × FileNode} (under : r <+: n.1) :
    route.isPrefixOf n.1 = false := by
  refine Bool.eq_false_iff.mpr fun within => ?_
  rcases List.prefix_or_prefix_of_prefix under (List.isPrefixOf_iff_prefix.mp within) with one | other
  · exact apart.1 one
  · exact apart.2 other

theorem lookupOutside {r route : Route} (apart : Apart r route) (nodes : List (Route × FileNode)) :
    nodes.lookup r = (nodes.filter fun n => !route.isPrefixOf n.1).lookup r := by
  induction nodes with
  | nil => rfl
  | cons n rest ih =>
    obtain ⟨key, node⟩ := n
    by_cases same : r = key
    · subst same
      rw [List.filter_cons_of_pos (by rw [keptOutside apart (List.prefix_refl _)]; rfl), List.lookup_cons_self,
        List.lookup_cons_self]
    · have other : (r == key) = false := by simpa using same
      have skipped (rest : List (Route × FileNode)) : List.lookup r ((key, node) :: rest) = List.lookup r rest := by
        rw [List.lookup_cons, other]
      rw [skipped, List.filter_cons]
      split
      · rw [skipped, ih]
      · exact ih

theorem anyOutside {r route : Route} (apart : Apart r route) (nodes : List (Route × FileNode)) :
    (nodes.any fun n => r.isPrefixOf n.1)
      = (nodes.filter fun n => !route.isPrefixOf n.1).any fun n => r.isPrefixOf n.1 := by
  rw [List.any_filter]
  congr 1
  funext n
  cases under : r.isPrefixOf n.1 with
  | false => rw [Bool.and_false]
  | true => rw [keptOutside apart (List.isPrefixOf_iff_prefix.mp under)]; rfl

variable {route : Route} {t t' : FileTree}

theorem SameOutside.node (same : SameOutside route t t') {r : Route} (apart : Apart r route) :
    t.node? r = t'.node? r := by
  rw [node?, node?, lookupOutside apart, lookupOutside apart t'.nodes, anyOutside apart, anyOutside apart t'.nodes,
    same.nodes, same.current]

theorem SameOutside.below (same : SameOutside route t t') {r : Route} (apart : Apart r route) :
    (t.nodes.filterMap fun n => if r.isPrefixOf n.1 then (n.1.drop r.length).head? else none)
      = t'.nodes.filterMap fun n => if r.isPrefixOf n.1 then (n.1.drop r.length).head? else none := by
  have kept (nodes : List (Route × FileNode)) :
      (nodes.filterMap fun n => if r.isPrefixOf n.1 then (n.1.drop r.length).head? else none)
        = (nodes.filter fun n => !route.isPrefixOf n.1).filterMap fun n =>
            if r.isPrefixOf n.1 then (n.1.drop r.length).head? else none := by
    rw [List.filterMap_filter]
    congr 1
    funext n
    split
    next under => rw [keptOutside apart (List.isPrefixOf_iff_prefix.mp under)]; rfl
    next => exact (ite_self _).symm
  rw [kept, kept t'.nodes, same.nodes]

/-! What both have of a directory beside the one that changes. -/

section

variable {base : Route} {root changed id : String} (same : SameOutside (base ++ [changed]) t t')
  (first : t.reach root = .ok base ∧ t.node? base = some .directory)
  (second : t'.reach root = .ok base ∧ t'.node? base = some .directory) (one : IsName id) (other : id ≠ changed)
include same first second one other

omit same first second one in
theorem apartBeside (more : Route) : Apart (base ++ id :: more) (base ++ [changed]) := by
  constructor
  · intro inside
    exact other (List.cons_prefix_cons.mp ((List.prefix_append_right_inj base).mp inside)).1
  · intro inside
    exact other (List.cons_prefix_cons.mp ((List.prefix_append_right_inj base).mp inside)).1.symm

theorem listBeside : t.list (join root id) = t'.list (join root id) := by
  have apart := @apartBeside base changed id other []
  simp only [list, locateJoined one, reachJoined one, first.1, second.1, bind, Except.bind, walkDown one first.2,
    walkDown one second.2, same.node apart, same.below apart]

theorem textBeside {name : String} (file : IsName name) :
    t.readText (join (join root id) name) = t'.readText (join (join root id) name) := by
  have onward : ∀ t : FileTree, t.reach root = .ok base ∧ t.node? base = some .directory →
      t.locate (join (join root id) name) = t.walk (base ++ [id]) [name] := by
    intro t entered
    rw [locateJoined file, reachJoined file, reachJoined one, entered.1]
    exact congrArg (· >>= fun there => t.walk there [name]) (walkDown one entered.2)
  have beside := same.node (@apartBeside base changed id other [])
  have below' := same.node (@apartBeside base changed id other [name])
  simp only [readText, read, onward t first, onward t' second, walk, beside, if_neg file.above, List.append_assoc,
    List.cons_append, List.nil_append, bind, Except.bind]
  cases t'.node? (base ++ [id]) with
  | none => rfl
  | some node =>
    cases node with
    | file content => rfl
    | directory => simp only [below']

end

end FileTree

end Conduit
