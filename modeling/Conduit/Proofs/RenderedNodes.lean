import Conduit.Flow.Generation
import Conduit.Proofs.Outcomes

/-! What a node of the flow has of the node of the nexon that it was made from. -/
namespace Conduit

structure FlowNode.MadeFrom (n : FlowNode) (flow : String) (s : Stage) (known : List String) (t : NodeTemplate) :
    Prop where
  id : n.id = nodeId s.id t.id
  type : n.type = t.type
  flow : n.flow = flow
  wires : ∀ port ∈ n.wires, ∀ target ∈ port, ∃ node ∈ known, target = nodeId s.id node

section

variable {context : RenderContext} {s : Stage} {origin : Position} {known : List String}

theorem NodeTemplate.renderMade [Regex] {index : Nat} {t : NodeTemplate} {n : FlowNode} {notes : List String}
    (rendered : t.render context s origin known index = .ok (n, notes)) : n.MadeFrom context.flow s known t := by
  simp only [render] at rendered
  split at rendered
  next =>
    have same := (Prod.mk.inj (Except.ok.inj rendered)).1
    subst same
    refine ⟨rfl, rfl, rfl, fun port member target leads => ?_⟩
    obtain ⟨given, -, rfl⟩ := List.mem_map.mp member
    obtain ⟨node, kept, rfl⟩ := List.mem_map.mp leads
    obtain ⟨-, among⟩ := List.mem_filter.mp kept
    exact ⟨node, by simpa using among, rfl⟩
  next => cases rendered

theorem NodeTemplate.renderAllEach [Regex] {index : Nat} {templates : List NodeTemplate} {nodes : List FlowNode}
    {notes : List String} (rendered : renderAll context s origin known index templates = .ok (nodes, notes)) :
    List.Forall₂ (fun t n => ∃ index notes, t.render context s origin known index = .ok (n, notes))
      templates nodes := by
  induction templates generalizing index nodes notes with
  | nil =>
    cases rendered
    exact .nil
  | cons t rest ih =>
    obtain ⟨⟨node, first⟩, here, rendered⟩ := Outcome.bindOk.mp rendered
    obtain ⟨⟨others, more⟩, later, same⟩ := Outcome.bindOk.mp rendered
    cases same
    exact .cons ⟨index, first, here⟩ (ih later)

theorem FlowNode.MadeFrom.padded {n : FlowNode} {flow : String} {t : NodeTemplate} (made : n.MadeFrom flow s known t)
    (ports : Nat) : ({ n with wires := FlowNode.padded ports n.wires } : FlowNode).MadeFrom flow s known t := by
  refine ⟨made.id, made.type, made.flow, fun port member target leads => ?_⟩
  rcases List.mem_append.mp member with before | new
  · exact made.wires port before target leads
  · rw [List.eq_of_mem_replicate new] at leads
    cases leads

theorem withOutletPortsEach {R : NodeTemplate → FlowNode → Prop}
    (ported : ∀ t n ports, R t n → R t { n with wires := FlowNode.padded ports n.wires }) (outlets : List String)
    {templates : List NodeTemplate} {nodes : List FlowNode} (each : List.Forall₂ R templates nodes) :
    List.Forall₂ R templates (withOutletPorts outlets nodes) := by
  induction each with
  | nil => exact .nil
  | cons here later ih =>
    cases later with
    | nil => exact .cons (ported _ _ _ here) .nil
    | cons next rest => exact .cons here ih

def Stage.scope (s : Stage) (c : RenderContext) : Substitution.Context := { c.values with stage := s.scopeValue }

def Stage.nodeScope (s : Stage) (c : RenderContext) (params : Json) : RenderContext :=
  { c with values := { s.scope c with params } }

structure Stage.RenderSource [Regex] (s : Stage) (context : RenderContext) (origin : Position) (n : Nexon)
    (r : RenderedStage) (params : Json) (nodes : List FlowNode) : Prop where
  compatible : n.compatible context.target = .ok ()
  parameters : ∃ notes, s.parameters (n.manifest.parameters.getD []) (s.scope context) = .ok (params, notes)
  filled : ∃ notes,
    NodeTemplate.renderAll (s.nodeScope context params) s origin (n.nodes.map (·.id)) 0 n.nodes = .ok (nodes, notes)
  nodes : r.nodes = withOutletPorts n.manifest.outlets nodes
  outlets : r.outlets = n.manifest.outlets

theorem Stage.renderSource [Regex] {n : Nexon} {r : RenderedStage} (rendered : s.render context origin n = .ok r) :
    ∃ params nodes, s.RenderSource context origin n r params nodes := by
  obtain ⟨⟨⟩, compatible, rendered⟩ := Outcome.bindOk.mp rendered
  obtain ⟨⟨params, notes⟩, parameters, rendered⟩ := Outcome.bindOk.mp rendered
  obtain ⟨⟨nodes, more⟩, filled, same⟩ := Outcome.bindOk.mp rendered
  cases same
  exact ⟨params, nodes, compatible, ⟨notes, parameters⟩, ⟨more, filled⟩, rfl, rfl⟩

theorem NodeTemplate.renderAllUnfilled [Regex] {index : Nat} {templates : List NodeTemplate} {e : StageError}
    (refused : renderAll context s origin known index templates = .error e) :
    ∃ node errors, e = .unfilled node errors := by
  induction templates generalizing index with
  | nil => cases refused
  | cons t rest ih =>
    rcases Outcome.bindError.mp refused with here | ⟨⟨node, notes⟩, -, later⟩
    · simp only [render] at here
      split at here
      · cases here
      · cases here
        exact ⟨_, _, rfl⟩
    · rcases Outcome.bindError.mp later with later | ⟨_, -, passed⟩
      · exact ih later
      · cases passed

theorem Nexon.incompatible {n : Nexon} {target : Target} {e : StageError} (refused : n.compatible target = .error e) :
    (∃ nexon target, e = .otherTarget nexon target) ∨ ∃ nexon required, e = .otherEngine nexon required := by
  unfold compatible at refused
  split at refused
  · cases refused
  · split at refused
    · cases refused
      exact .inl ⟨_, _, rfl⟩
    · split at refused
      · cases refused
      · split at refused
        · cases refused
          exact .inr ⟨_, _, rfl⟩
        · cases refused

variable [Regex]

theorem Stage.renderRefused {n : Nexon} {errors : List Substitution.Error} :
    s.render context origin n = .error (.parameters errors) ↔
      n.compatible context.target = .ok ()
        ∧ s.parameters (n.manifest.parameters.getD []) (s.scope context) = .error (.parameters errors) := by
  constructor
  · intro refused
    rcases Outcome.bindError.mp refused with early | ⟨⟨⟩, compatible, refused⟩
    · rcases Nexon.incompatible early with ⟨_, _, other⟩ | ⟨_, _, other⟩ <;> cases other
    · rcases Outcome.bindError.mp refused with here | ⟨⟨params, notes⟩, -, late⟩
      · exact ⟨compatible, here⟩
      · rcases Outcome.bindError.mp late with late | ⟨_, -, passed⟩
        · obtain ⟨_, _, other⟩ := NodeTemplate.renderAllUnfilled late
          cases other
        · cases passed
  · rintro ⟨compatible, refused⟩
    exact Outcome.bindError.mpr (.inr ⟨(), compatible, Outcome.bindError.mpr (.inl refused)⟩)

theorem Stage.renderMade {n : Nexon} {r : RenderedStage} (rendered : s.render context origin n = .ok r) :
    List.Forall₂ (fun t node => node.MadeFrom context.flow s (n.nodes.map (·.id)) t) n.nodes r.nodes := by
  obtain ⟨params, nodes, source⟩ := renderSource rendered
  obtain ⟨more, filled⟩ := source.filled
  have made := (NodeTemplate.renderAllEach filled).imp fun t n ⟨_, _, made⟩ => NodeTemplate.renderMade made
  rw [source.nodes]
  exact withOutletPortsEach (fun t n ports made => made.padded ports) _ made

theorem Stage.renderMapped {β : Type} {f : NodeTemplate → β} {g : FlowNode → β} {n : Nexon}
    (kept : ∀ t node, node.MadeFrom context.flow s (n.nodes.map (·.id)) t → g node = f t) {r : RenderedStage}
    (rendered : s.render context origin n = .ok r) : r.nodes.map g = n.nodes.map f := by
  have matched : List.Forall₂ (· = ·) (r.nodes.map g) (n.nodes.map f) := by
    rw [List.forall₂_map_left_iff, List.forall₂_map_right_iff]
    exact ((renderMade rendered).imp kept).flip
  rwa [List.forall₂_eq_eq_eq] at matched

theorem Stage.renderIds {n : Nexon} {r : RenderedStage} (rendered : s.render context origin n = .ok r) :
    r.nodes.map (·.id) = n.nodes.map fun t => nodeId s.id t.id :=
  renderMapped (fun _ _ made => made.id) rendered

theorem Stage.renderTypes {n : Nexon} {r : RenderedStage} (rendered : s.render context origin n = .ok r) :
    r.nodes.map (·.type) = n.nodes.map (·.type) :=
  renderMapped (fun _ _ made => made.type) rendered

end

/-! Placeholders. -/

theorem Placeholder.notTab (nexonId : String) : nodeType nexonId ≠ "tab" := by
  have known : "tab" ∉ typesByPrefix.map (·.2) := by decide
  intro tab
  rw [nodeType] at tab
  cases found : typesByPrefix.find? fun t => t.1.toList.isPrefixOf nexonId.toList with
  | none =>
    rw [found] at tab
    exact absurd tab (by decide)
  | some t =>
    rw [found] at tab
    exact known (tab ▸ List.mem_map_of_mem (List.mem_of_find?_eq_some found))

end Conduit
