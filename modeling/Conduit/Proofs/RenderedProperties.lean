import Conduit.Pattern
import Conduit.Proofs.CheckedParameters
import Conduit.Proofs.ClosedFlows

/-! Rendering goes property by property. What a value comes to does not depend on how deep it stands, so each
property of a node comes to what it comes to on its own; but a node with a token for its only property comes to what
the token stands for. -/
namespace Conduit

namespace Substitution

/-! Values from another place in the tree. -/

def Traced.Stays {α : Type} (a b : Traced α) : Prop := a.errors = [] → b.errors = [] ∧ b.value = a.value

namespace Traced.Stays

variable {α β γ : Type}

theorem map {a b : Traced α} (stays : a.Stays b) (f : α → β) : (a.map f).Stays (b.map f) := fun clean =>
  ⟨(stays clean).1, congrArg f (stays clean).2⟩

theorem both {a b : Traced α} {a' b' : Traced β} (first : a.Stays b) (second : a'.Stays b') (f : α → β → γ) :
    (Traced.both f a a').Stays (.both f b b') := by
  intro clean
  obtain ⟨here, later⟩ := List.append_eq_nil_iff.mp clean
  obtain ⟨clean, same⟩ := first here
  obtain ⟨clean', same'⟩ := second later
  exact ⟨List.append_eq_nil_iff.mpr ⟨clean, clean'⟩, by simp only [Traced.both, same, same']⟩

end Traced.Stays

variable {c : Context} {limit : Nat}

theorem expressionStays (source : List Char) (path path' : String) :
    (expression c source path).Stays (expression c source path') := by
  simp only [expression]
  split
  · exact fun _ => ⟨rfl, rfl⟩
  · rintro ⟨⟩

theorem piecesStay (path path' : String) (pieces : List Expression.Piece) :
    (renderPieces c path pieces).Stays (renderPieces c path' pieces) := by
  induction pieces with
  | nil => exact fun _ => ⟨rfl, rfl⟩
  | cons p rest ih =>
    refine Traced.Stays.both ?_ ih _
    cases p with
    | text cs => exact fun _ => ⟨rfl, rfl⟩
    | expr source =>
      intro clean
      obtain ⟨clean, same⟩ := expressionStays source path path' clean
      exact ⟨clean, congrArg renderText same⟩

theorem interpolateStays (s path path' : String) : (interpolate c s path).Stays (interpolate c s path') := by
  simp only [interpolate]
  split
  · rintro ⟨⟩
  · exact (piecesStay path path' _).map _

theorem secretStays (reference path path' : String) : (secret c reference path).Stays (secret c reference path') := by
  simp only [secret]
  split <;> exact fun _ => ⟨rfl, rfl⟩

theorem staysWithin {depth depth' : Nat} (shallower : depth' ≤ depth) {path path' : String} {v : Json}
    (within : ¬ limit < depth → ¬ limit < depth' →
      (resolve c limit path depth v).Stays (resolve c limit path' depth' v)) :
    (resolve c limit path depth v).Stays (resolve c limit path' depth' v) := by
  by_cases deep : limit < depth
  · rw [resolve.eq_def, if_pos deep]
    rintro ⟨⟩
  · exact within deep (by omega)

theorem literalStays {depth depth' : Nat} (shallower : depth' ≤ depth) {path path' : String} {v : Json}
    (kept : ∀ path depth, ¬ limit < depth → resolve c limit path depth v = ⟨v, [], []⟩) :
    (resolve c limit path depth v).Stays (resolve c limit path' depth' v) := by
  refine staysWithin shallower fun within within' => ?_
  rw [kept _ _ within, kept _ _ within']
  exact fun _ => ⟨rfl, rfl⟩

mutual
theorem valueStays {depth depth' : Nat} (shallower : depth' ≤ depth) (path path' : String) : (v : Json) →
    (resolve c limit path depth v).Stays (resolve c limit path' depth' v)
  | .obj fields => by
    refine staysWithin shallower fun within within' => ?_
    simp only [resolve, if_neg within, if_neg within']
    split
    · exact secretStays _ _ _
    · exact expressionStays _ _ _
    · exact (fieldsStay (Nat.succ_le_succ shallower) path path' fields).map _
  | .arr items => by
    refine staysWithin shallower fun within within' => ?_
    simp only [resolve, if_neg within, if_neg within']
    exact (itemsStay (Nat.succ_le_succ shallower) path path' 0 items).map _
  | .str s => by
    refine staysWithin shallower fun within within' => ?_
    simp only [resolve, if_neg within, if_neg within']
    split
    · exact interpolateStays _ _ _
    · exact fun _ => ⟨rfl, rfl⟩
  | .null => literalStays shallower fun path depth within => if_neg within
  | .bool b => literalStays shallower fun path depth within => if_neg within
  | .num n => literalStays shallower fun path depth within => if_neg within
theorem itemsStay {depth depth' : Nat} (shallower : depth' ≤ depth) (path path' : String) (index : Nat) :
    (items : List Json) →
    (resolveItems c limit path depth index items).Stays (resolveItems c limit path' depth' index items)
  | [] => fun _ => ⟨rfl, rfl⟩
  | v :: rest => by
    rw [resolveItems, resolveItems]
    exact (valueStays shallower _ _ v).both (itemsStay shallower path path' (index + 1) rest) _
theorem fieldsStay {depth depth' : Nat} (shallower : depth' ≤ depth) (path path' : String) :
    (fields : List (String × Json)) →
    (resolveFields c limit path depth fields).Stays (resolveFields c limit path' depth' fields)
  | [] => fun _ => ⟨rfl, rfl⟩
  | (k, v) :: rest => by
    rw [resolveFields, resolveFields]
    exact (valueStays shallower _ _ v).both (fieldsStay shallower path path' rest) _
end

theorem substituted [Regex] {tree w : Json} : (substitute limit c none tree).value = some w ↔
    (resolve c limit "$" 0 tree).errors = [] ∧ (resolve c limit "$" 0 tree).value = w := by
  simp only [substitute, Traced.outcome, Option.map_none, Option.getD_none, List.nil_append, List.isEmpty_iff]
  split_ifs with clean
  · simp [clean]
  · simp [clean]

theorem fieldsSubstituted [Regex] (path : String) (depth : Nat) {fields : Fields}
    (clean : (resolveFields c limit path depth fields).errors = []) :
    List.Forall₂ (fun f g => g.1 = f.1 ∧ (substitute limit c none f.2).value = some g.2) fields
      (resolveFields c limit path depth fields).value := by
  induction fields with
  | nil => exact .nil
  | cons f rest ih =>
    obtain ⟨here, later⟩ := List.append_eq_nil_iff.mp clean
    exact .cons ⟨rfl, substituted.mpr (valueStays (Nat.zero_le depth) _ "$" f.2 here)⟩ (ih later)

end Substitution

/-! Nodes. -/

def FlowNode.keys : List String := ["id", "type", "z", "x", "y", "wires"]

theorem FlowNode.toJsonOwn (n : FlowNode) {name : String} (own : name ∉ keys) :
    n.toJson.field? name = Table.get? n.properties name := by
  simp only [keys, List.mem_cons, List.not_mem_nil, or_false, not_or] at own
  obtain ⟨id, type, z, x, y, wires⟩ := own
  simp [toJson, Json.field?, Table.getInsert, id, type, z, x, y, wires]

theorem FlowNode.toJsonHas (n : FlowNode) : ∀ name ∈ keys, ∃ v, n.toJson.field? name = some v := by
  simp [keys, toJson, Json.field?, Table.getInsert]

namespace NodeTemplate

def placing : List String := ["x", "y", "z"]

structure Spelled [Regex] (t : NodeTemplate) (values : Substitution.Context) (e : Json) : Prop where
  keys : ∀ name, (∃ v, e.field? name = some v) ↔
    name ∈ FlowNode.keys ∨ (∃ p ∈ t.properties, p.1 = name) ∧ name ∉ placing
  values : ∀ p ∈ t.properties, p.1 ∉ placing →
    ∃ v, (Substitution.substitute Substitution.defaultDepth values none p.2).value = some v ∧ e.field? p.1 = some v

def Spread [Regex] (token : Token) (values : Substitution.Context) (e : Json) : Prop :=
  ∃ fields : Fields,
    (Substitution.substitute Substitution.defaultDepth values none token.toJson).value = some (.obj fields)
    ∧ ∀ name ∉ FlowNode.keys, e.field? name = Table.get? fields name

structure Gives [Regex] (t : NodeTemplate) (s : Stage) (values : Substitution.Context) (e : Json) : Prop where
  id : e.field? "id" = some (.str (nodeId s.id t.id))
  type : e.field? "type" = some (.str t.type)
  spelled : Token.ofFields? t.content = none → t.Spelled values e
  spread : ∀ token, Token.ofFields? t.content = some token → Spread token values e

variable {t : NodeTemplate}

theorem contentIff (p : String × Json) : p ∈ t.content ↔ p ∈ t.properties ∧ p.1 ∉ placing := by
  simp [content, placing, and_assoc]

theorem Read.own (read : t.Read) {p : String × Json} (member : p ∈ t.properties) (stays : p.1 ∉ placing) :
    p.1 ∉ FlowNode.keys := by
  have other := read.others p member
  simp only [knownFields, Json.optional, List.map_cons, List.map_nil, List.mem_cons, List.not_mem_nil, or_false, not_or,
    FlowNode.keys, placing] at other stays ⊢
  tauto

theorem renderBag [Regex] {context : RenderContext} {s : Stage} {origin : Position} {known : List String} {index : Nat}
    {n : FlowNode} {notes : List String} (rendered : t.render context s origin known index = .ok (n, notes)) :
    (Substitution.substitute Substitution.defaultDepth context.values none (.obj t.content)).value
      = some (.obj n.properties) := by
  simp only [render] at rendered
  split at rendered
  next properties filled =>
    have same := (Prod.mk.inj (Except.ok.inj rendered)).1
    subst same
    exact filled
  next => cases rendered

theorem bagSpelled [Regex] (read : t.Read) (plain : Token.ofFields? t.content = none) {values : Substitution.Context}
    {properties : Fields}
    (filled : (Substitution.substitute Substitution.defaultDepth values none (.obj t.content)).value
      = some (.obj properties)) :
    (∀ name, (∃ v, Table.get? properties name = some v) ↔ ∃ p ∈ t.content, p.1 = name)
      ∧ ∀ p ∈ t.content, ∃ v, (Substitution.substitute Substitution.defaultDepth values none p.2).value = some v
        ∧ Table.get? properties p.1 = some v := by
  obtain ⟨clean, same⟩ := Substitution.substituted.mp filled
  simp only [Substitution.resolve, plain, if_neg (Nat.not_lt_zero _)] at clean same
  have each := Substitution.fieldsSubstituted "$" 1 clean
  have names := @Substitution.resolveNames values Substitution.defaultDepth "$" 1 t.content
  rw [Json.obj.inj same] at each names
  have ordered : Table.Ordered properties :=
    (Table.orderedNames names.symm).mp (read.ordered.sublist List.filter_sublist)
  constructor
  · intro name
    rw [Table.getSome, names, Table.names, List.mem_map]
  · intro p member
    obtain ⟨q, among, same, filled⟩ := Outcome.matchedMember each.flip member
    exact ⟨q.2, filled, same ▸ Table.getOfMem ordered among⟩

variable {context : RenderContext} {s : Stage} {n : FlowNode}

theorem fillSpelled [Regex] (read : t.Read) (plain : Token.ofFields? t.content = none)
    (filled : (Substitution.substitute Substitution.defaultDepth context.values none (.obj t.content)).value
      = some (.obj n.properties)) : t.Spelled context.values n.toJson := by
  obtain ⟨names, values⟩ := bagSpelled read plain filled
  constructor
  · intro name
    by_cases own : name ∈ FlowNode.keys
    · exact iff_of_true (n.toJsonHas name own) (.inl own)
    · rw [n.toJsonOwn own, names, or_iff_right own]
      constructor
      · rintro ⟨p, member, rfl⟩
        obtain ⟨member, stays⟩ := (contentIff p).mp member
        exact ⟨⟨p, member, rfl⟩, stays⟩
      · rintro ⟨⟨p, member, rfl⟩, stays⟩
        exact ⟨p, (contentIff p).mpr ⟨member, stays⟩, rfl⟩
  · intro p member stays
    rw [n.toJsonOwn (read.own member stays)]
    exact values p ((contentIff p).mpr ⟨member, stays⟩)

theorem renderGives [Regex] (read : t.Read) {origin : Position} {known : List String} {index : Nat}
    {notes : List String}
    (rendered : t.render context s origin known index = .ok (n, notes)) (wires : List (List String)) :
    t.Gives s context.values { n with wires }.toJson := by
  have made := renderMade rendered
  have filled := renderBag rendered
  refine ⟨?_, ?_, fun plain => fillSpelled read plain filled, fun token lone => ⟨n.properties, ?_, ?_⟩⟩
  · rw [← made.id]
    simp [FlowNode.toJson, Json.field?, Table.getInsert]
  · rw [← made.type]
    simp [FlowNode.toJson, Json.field?, Table.getInsert]
  · have written : token.toJson = .obj t.content := Param.tokenBack lone
    rw [written]
    exact filled
  · intro name own
    exact FlowNode.toJsonOwn _ own

end NodeTemplate

theorem Stage.renderedByProperty [Regex] {n : Nexon} (admitted : n.content.Admitted) {s : Stage}
    {context : RenderContext} {origin : Position} {r : RenderedStage} (rendered : s.render context origin n = .ok r) :
    ∃ params notes, s.parameters (n.manifest.parameters.getD []) (s.scope context) = .ok (params, notes)
      ∧ List.Forall₂ (fun t node => ∀ wires, t.Gives s (s.nodeScope context params).values { node with wires }.toJson)
        n.nodes r.nodes := by
  obtain ⟨params, nodes, source⟩ := renderSource rendered
  obtain ⟨notes, passed⟩ := source.parameters
  obtain ⟨more, filled⟩ := source.filled
  refine ⟨params, notes, passed, ?_⟩
  rw [source.nodes]
  refine withOutletPortsEach (fun t node ports gives => gives) _ ?_
  have each := (List.forall₂_and_left n.nodes nodes).mpr ⟨admitted.nodes, NodeTemplate.renderAllEach filled⟩
  exact each.imp fun t node ⟨read, index, notes, made⟩ wires => NodeTemplate.renderGives read made wires

attribute [local instance] Pattern.engine in
theorem Stage.valveByProperty : ∃ r params, fittingValve.render valveContext (gridPosition 0) valve = .ok r
    ∧ List.Forall₂ (fun t node => t.Spelled (fittingValve.nodeScope valveContext params).values node.toJson)
      valve.nodes r.nodes := by
  have plain : ∀ t ∈ valve.nodes, Token.ofFields? t.content = none := by decide +kernel
  have passed : (fittingValve.render valveContext (gridPosition 0) valve).toOption.any fun _ => true := by decide +kernel
  obtain ⟨r, rendered, -⟩ := Outcome.okOfAny passed
  obtain ⟨params, notes, -, each⟩ := renderedByProperty valveAdmitted rendered
  have both := (List.forall₂_and_left valve.nodes r.nodes).mpr ⟨plain, each⟩
  exact ⟨r, params, rendered, both.imp fun t node ⟨plain, gives⟩ => (gives node.wires).spelled plain⟩

def echoDocument : Json :=
  .ofPairs
    [("manifest", .ofPairs
      [("id", .str "n"), ("version", .str "1.0.0"), ("title", .str "N"), ("capabilities", .ofPairs []),
       ("parameters", .ofPairs [])]),
     ("template", .arr [.ofPairs
        [("id", .str "x"), ("type", .str "debug"), (exprKey, .str "channel")]])]

def echo : Nexon := .ofDocument (.ofJson echoDocument)

def echoStage : Stage where
  id := "a"
  nexonId := "n"

def echoContext : RenderContext where
  flow := flowId "c"
  target := .onprem
  values := { channel := .ofPairs [("id", .str "c"), ("title", .str "t"), ("version", .str "1.0")] }

attribute [local instance] Pattern.engine in
theorem Stage.echoSpread : echo.content.Admitted ∧ ∃ r, echoStage.render echoContext (gridPosition 0) echo = .ok r
    ∧ ∀ values, ¬ List.Forall₂ (fun t node => t.Spelled values node.toJson) echo.nodes r.nodes := by
  refine ⟨Nexon.documentAdmitted (by decide +kernel) (List.isEmpty_iff.mp (by decide +kernel)), ?_⟩
  have lost : (echoStage.render echoContext (gridPosition 0) echo).toOption.any fun r =>
      r.nodes.all fun node => (node.toJson.field? exprKey).isNone := by decide +kernel
  have own : echo.nodes.any fun t => t.properties.any (·.1 = exprKey) := by decide +kernel
  obtain ⟨r, rendered, lost⟩ := Outcome.okOfAny lost
  refine ⟨r, rendered, fun values each => ?_⟩
  obtain ⟨t, among, own⟩ := List.any_eq_true.mp own
  obtain ⟨p, member, key⟩ := List.any_eq_true.mp own
  obtain ⟨node, inside, spelled⟩ := Outcome.matchedMember each.flip among
  obtain ⟨v, found⟩ := (spelled.keys exprKey).mpr (.inr ⟨⟨p, member, by simpa using key⟩, by decide⟩)
  have lost := List.all_eq_true.mp lost node inside
  rw [found] at lost
  cases lost

end Conduit
