import Conduit.Proofs.JsonMembers
import Conduit.Proofs.JsonText
import Conduit.Proofs.ValidDocuments

/-! A channel that is valid, written down again: the document that it makes is valid as the same channel. -/
namespace Conduit

open Json Json.Shape Document

/-! A document that says what a stage or an edge is, is read as it. -/

theorem Position.Drawn.same {v : Json} {p : Position} (drawn : Position.Drawn v p) : Position.ofJson v = p := by
  have axis {key : String} {d : Double} (given : ∃ n, v.field? key = some (.num n) ∧ d = n.toDouble) :
      (v.doubleAt? key).getD .zero = d := by
    obtain ⟨n, found, same⟩ := given
    rw [doubleAt?, memberOfField found (by simp), same]
    rfl
  rw [Position.ofJson, axis drawn.x, axis drawn.y]

theorem Position.drawnSame {given : Option Json} {place : Option Position}
    (drawn : Option.Rel Position.Drawn given place) : given.map Position.ofJson = place := by
  cases drawn with
  | some here => rw [Option.map_some, here.same]
  | none => rfl

theorem Stage.Drawn.same {v : Json} {s : Stage} (drawn : Stage.Drawn v s) : Stage.ofJson v = s := by
  rw [Stage.ofJson, textGiven drawn.id, textWritten drawn.title, textGiven drawn.nexonId,
    textWritten drawn.nexonVersion, ← drawn.params, Position.drawnSame drawn.position]

theorem OutletRef.readBack {o : OutletRef} (small : ∀ n, o = .index n → n < 2 ^ 32) :
    OutletRef.ofJson o.toJson = o := by
  cases o with
  | name s => rfl
  | index n =>
    have small := small n rfl
    show OutletRef.index ((Json.nat n).asNat?.getD 0) = .index n
    rw [natKept (by omega)]
    rfl

theorem Edge.Drawn.same {v : Json} {e : Edge} (drawn : Edge.Drawn v e) (sound : e.Sound) : Edge.ofJson v = e := by
  have outlet : ((v.valueAt "from").member? "outlet").map OutletRef.ofJson = e.outlet := by
    rw [drawn.outlet]
    cases found : e.outlet with
    | none => rfl
    | some o => rw [Option.map_some, Option.map_some, OutletRef.readBack fun n same => sound.outlet n (same ▸ found)]
  have inlet : (v.valueAt "to").natAt? "inlet" = e.inlet := by
    rw [natAt?, drawn.inlet]
    cases found : e.inlet with
    | none => rfl
    | some n =>
      have small := sound.inlet n found
      rw [Option.map_some, Option.bind_some, natKept (by omega)]
  rw [Edge.ofJson]
  simp only [textGiven drawn.id, textGiven drawn.source, outlet, textGiven drawn.target, inlet]

/-! What is written of a stage or an edge says what it is, and keeps to the rules of documents. -/

theorem Position.toJsonDrawn (p : Position) : Position.Drawn p.toJson p where
  x := ⟨.real p.x, fieldOfPairs (by simp) "x", rfl⟩
  y := ⟨.real p.y, fieldOfPairs (by simp) "y", rfl⟩

theorem Position.toJsonOutline (p : Position) : p.toJson.IsRecord PositionOutline :=
  ⟨_, rfl, ⟨_, fieldOfPairs (by simp) "x", _, rfl⟩, ⟨_, fieldOfPairs (by simp) "y", _, rfl⟩⟩

namespace Stage

variable (s : Stage)

theorem toJsonField (key : String) : s.toJson.field? key =
    (Table.get? [("id", some (Json.str s.id)), ("title", s.title.map .str), ("nexonId", some (.str s.nexonId)),
      ("nexonVersion", s.nexonVersion.map .str), ("params", some (.obj (Param.toFields s.params))),
      ("position", s.position.map Position.toJson)] key).join := fieldOfSome (by simp) key

theorem toJsonDrawn (back : Param.ofFields (Param.toFields s.params) = s.params) : Stage.Drawn s.toJson s where
  id := s.toJsonField "id"
  title := memberOfMap (s.toJsonField "title") (by simp)
  nexonId := s.toJsonField "nexonId"
  nexonVersion := memberOfMap (s.toJsonField "nexonVersion") (by simp)
  params := by
    rw [fieldsAt, memberOfField (s.toJsonField "params") (by simp)]
    exact back.symm
  written := by
    rw [fieldsAt, memberOfField (s.toJsonField "params") (by simp)]
    rfl
  position := by
    rw [memberOfMap (s.toJsonField "position") (by simp [Position.toJson, ofPairs])]
    cases s.position with
    | none => exact .none
    | some p => exact .some p.toJsonDrawn

theorem toJsonOutline {s : Stage} (sound : s.Sound) : s.toJson.IsRecord StageOutline := by
  refine ⟨_, rfl, ?_⟩
  constructor
  case id => exact ⟨_, s.toJsonField "id", _, rfl, sound.id⟩
  case title => exact optionalOfMap (s.toJsonField "title") fun t _ => ⟨t, rfl⟩
  case nexonId => exact ⟨_, s.toJsonField "nexonId", _, rfl, sound.nexonId⟩
  case nexonVersion => exact optionalOfMap (s.toJsonField "nexonVersion") fun t _ => ⟨t, rfl⟩
  case position => exact optionalOfMap (s.toJsonField "position") fun p _ => p.toJsonOutline
  case params => exact requiredOptional ⟨_, s.toJsonField "params", _, rfl, sound.params⟩

end Stage

namespace Edge

variable (e : Edge)

theorem toJsonFrom : e.toJson.field? "from" =
    some (ofSome [("stageId", some (.str e.source)), ("outlet", e.outlet.map OutletRef.toJson)]) :=
  fieldOfPairs (by simp) "from"

theorem toJsonTo : e.toJson.field? "to" =
    some (ofSome [("stageId", some (.str e.target)), ("inlet", e.inlet.map Json.nat)]) := fieldOfPairs (by simp) "to"

theorem toJsonDrawn : Edge.Drawn e.toJson e where
  id := fieldOfPairs (by simp) "id"
  source := by
    rw [valueAt, toJsonFrom]
    exact fieldOfSome (by simp) "stageId"
  outlet := by
    rw [valueAt, toJsonFrom]
    exact memberOfMap (fieldOfSome (by simp) "outlet") fun o => by cases o <;> simp [OutletRef.toJson, nat]
  target := by
    rw [valueAt, toJsonTo]
    exact fieldOfSome (by simp) "stageId"
  inlet := by
    rw [valueAt, toJsonTo]
    exact memberOfMap (fieldOfSome (by simp) "inlet") fun n => by simp [nat]

variable {e : Edge}

theorem toJsonOutline (sound : e.Sound) : e.toJson.IsRecord EdgeOutline := by
  have source : (ofSome [("stageId", some (.str e.source)), ("outlet", e.outlet.map OutletRef.toJson)]).IsRecord
      SourceOutline := by
    refine ⟨_, rfl, ⟨_, fieldOfSome (by simp) "stageId", _, rfl, sound.source⟩, ?_⟩
    refine optionalOfMap (fieldOfSome (by simp) "outlet") fun o some => ?_
    cases o with
    | name s => exact .inl ⟨s, rfl⟩
    | index n => exact .inr (natPort (sound.outlet n some))
  have target : (ofSome [("stageId", some (.str e.target)), ("inlet", e.inlet.map Json.nat)]).IsRecord
      TargetOutline := by
    refine ⟨_, rfl, ⟨_, fieldOfSome (by simp) "stageId", _, rfl, sound.target⟩, ?_⟩
    exact optionalOfMap (fieldOfSome (by simp) "inlet") fun n some => natPort (sound.inlet n some)
  exact ⟨_, rfl, ⟨_, fieldOfPairs (by simp) "id", _, rfl, sound.id⟩, ⟨_, e.toJsonFrom, source⟩, ⟨_, e.toJsonTo, target⟩⟩

end Edge

/-! Channels. -/

theorem mapBack {α : Type} {write : α → Json} {read : Json → α} {items : List α}
    (back : ∀ a ∈ items, read (write a) = a) : (items.map write).map read = items := by
  rw [List.map_map]
  exact (List.map_congr_left back).trans (List.map_id items)

theorem Security.sameOfJson (s : Security) : Security.ofJson s.toJson = s := by
  rw [Security.ofJson, flagGiven (fieldOfPairs (by simp) "allowInternetHttpOut"),
    flagGiven (fieldOfPairs (by simp) "allowInternetTcpOut"), flagGiven (fieldOfPairs (by simp) "allowInternetUdpOut"),
    flagGiven (fieldOfPairs (by simp) "allowHttpInFromInternet")]

namespace Documentation

variable (d : Documentation)

theorem toJsonField (key : String) : d.toJson.field? key =
    (Table.get? [("summary", d.summary.map .str), ("owner", d.owner.map .str), ("notes", d.notes.map .str)] key).join :=
  fieldOfSome (by simp) key

theorem sameOfJson : ofJson d.toJson = d := by
  have text {key : String} {o : Option String} (given : d.toJson.field? key = o.map .str) : d.toJson.textAt? key = o :=
    textWritten (memberOfMap given (by simp))
  rw [ofJson, text (d.toJsonField "summary"), text (d.toJsonField "owner"), text (d.toJsonField "notes")]

theorem toJsonOutline : d.toJson.IsRecord DocumentationOutline :=
  ⟨_, rfl, optionalOfMap (d.toJsonField "summary") fun s _ => ⟨s, rfl⟩,
    optionalOfMap (d.toJsonField "owner") fun s _ => ⟨s, rfl⟩,
    optionalOfMap (d.toJsonField "notes") fun s _ => ⟨s, rfl⟩⟩

end Documentation

namespace Channel

section

variable (c : Channel)

theorem toJsonField (key : String) : c.toJson.field? key =
    (Table.get? [("version", some (Json.str c.version)), ("channelId", some (.str c.channelId)),
      ("title", some (.str c.title)), ("runtime", some (.ofPairs [("target", .str c.target.name)])),
      ("security", some c.security.toJson), ("stages", some (.arr (c.stages.map Stage.toJson))),
      ("edges", some (.arr (c.edges.map Edge.toJson))), ("documentation", c.documentation.map Documentation.toJson)]
      key).join := fieldOfSome (by simp) key

theorem toJsonUnnulled : ¬Nulled c.toJson := by
  rintro (⟨key, listed, null⟩ | ⟨runtime, given, null⟩ | ⟨stages, given, s, member, null⟩)
  · simp only [defaulted, List.mem_cons, List.not_mem_nil, or_false] at listed
    rcases listed with rfl | rfl | rfl | rfl | rfl | rfl <;> cases (c.toJsonField _).symm.trans null
  · cases (c.toJsonField "runtime").symm.trans given
    cases (fieldOfPairs (by simp) "target").symm.trans null
  · cases (c.toJsonField "stages").symm.trans given
    obtain ⟨stage, -, rfl⟩ := List.mem_map.mp member
    cases (stage.toJsonField "params").symm.trans null

variable {c} (sound : c.Sound)
include sound

theorem toJsonOutline : documentIssues c.toJson = [] := by
  refine documentIssuesNone.mpr ⟨_, rfl, ?_⟩
  have given (key : String) := c.toJsonField key
  constructor
  case version => exact requiredOptional ⟨_, given "version", _, rfl⟩
  case title => exact requiredOptional ⟨_, given "title", _, rfl⟩
  case channelId => exact requiredOptional ⟨_, given "channelId", _, rfl, sound.id⟩
  case runtime =>
    refine requiredOptional ⟨_, given "runtime", _, rfl, requiredOptional ⟨_, ?_, c.target, rfl⟩⟩
    exact fieldOfPairs (by simp) "target"
  case security =>
    refine requiredOptional ⟨_, given "security", _, rfl, fun f member => ?_⟩
    have among := Table.memOfList member
    simp only [List.mem_cons, List.not_mem_nil, or_false] at among
    rcases among with rfl | rfl | rfl | rfl <;> exact ⟨_, rfl⟩
  case documentation => exact optionalOfMap (given "documentation") fun d _ => d.toJsonOutline
  case stages =>
    refine ⟨_, given "stages", _, rfl, fun v member => ?_⟩
    obtain ⟨s, listed, rfl⟩ := List.mem_map.mp member
    exact Stage.toJsonOutline (sound.stages s listed)
  case edges =>
    refine requiredOptional ⟨_, given "edges", _, rfl, fun v member => ?_⟩
    obtain ⟨e, listed, rfl⟩ := List.mem_map.mp member
    exact Edge.toJsonOutline (sound.edges e listed)

theorem sameOfJson : ofJson c.toJson = c := by
  have target : Target.ofName ((c.toJson.valueAt "runtime").textAt "target" "") = c.target := by
    have runtime : c.toJson.valueAt "runtime" = ofPairs [("target", .str c.target.name)] := by
      rw [valueAt, c.toJsonField "runtime"]
      rfl
    rw [runtime, textGiven (fieldOfPairs (by simp) "target")]
    cases c.target <;> rfl
  have security : Security.ofJson (c.toJson.valueAt "security") = c.security := by
    rw [valueAt, c.toJsonField "security"]
    exact c.security.sameOfJson
  have stages : (c.toJson.itemsAt "stages").map Stage.ofJson = c.stages := by
    rw [itemsAt, memberOfField (c.toJsonField "stages") (by simp)]
    exact mapBack fun s member => (s.toJsonDrawn (sound.stages s member).back).same
  have edges : (c.toJson.itemsAt "edges").map Edge.ofJson = c.edges := by
    rw [itemsAt, memberOfField (c.toJsonField "edges") (by simp)]
    exact mapBack fun e member => e.toJsonDrawn.same (sound.edges e member)
  have documentation : (c.toJson.member? "documentation").map Documentation.ofJson = c.documentation := by
    rw [memberOfMap (c.toJsonField "documentation") (by simp [Documentation.toJson, ofSome, ofPairs])]
    cases c.documentation with
    | none => rfl
    | some d => exact congrArg some d.sameOfJson
  rw [ofJson, textGiven (c.toJsonField "version"), textGiven (c.toJsonField "channelId"),
    textGiven (c.toJsonField "title"), target, security, stages, edges, documentation]

end

end Channel

/-! What is written of a channel has no more levels than the document that it was read from. -/

section

variable (n : Nat)

theorem Position.toJsonWithin (p : Position) : p.toJson.Within (n + 1) := by
  refine withinPairs ?_
  simp only [List.forall_mem_cons, List.not_mem_nil, false_imp_iff, implies_true, and_true]
  exact ⟨⟨trivial, Nat.zero_le n⟩, ⟨trivial, Nat.zero_le n⟩⟩

theorem Stage.toJsonWithin {n : Nat} {s : Stage} (params : (obj (Param.toFields s.params)).Within (n + 1)) :
    s.toJson.Within (n + 2) := by
  refine withinSome ?_
  simp only [List.forall_mem_cons, List.not_mem_nil, false_imp_iff, implies_true, and_true, Option.some.injEq,
    forall_eq']
  refine ⟨withinStr _ _, withinText _, withinStr _ _, withinText _, params, fun v found => ?_⟩
  obtain ⟨p, -, rfl⟩ := Option.map_eq_some_iff.mp found
  exact p.toJsonWithin n

theorem Edge.toJsonWithin (e : Edge) : e.toJson.Within (n + 2) := by
  have outlet : ∀ v, e.outlet.map OutletRef.toJson = some v → v.Within n := by
    intro v found
    obtain ⟨o, -, rfl⟩ := Option.map_eq_some_iff.mp found
    cases o with
    | index m => exact withinNat n m
    | name s => exact withinStr n s
  have inlet : ∀ v, e.inlet.map Json.nat = some v → v.Within n := by
    intro v found
    obtain ⟨m, -, rfl⟩ := Option.map_eq_some_iff.mp found
    exact withinNat n m
  refine withinPairs ?_
  simp only [List.forall_mem_cons, List.not_mem_nil, false_imp_iff, implies_true, and_true]
  refine ⟨withinStr _ _, withinSome ?_, withinSome ?_⟩
  all_goals simp only [List.forall_mem_cons, List.not_mem_nil, false_imp_iff, implies_true, and_true,
    Option.some.injEq, forall_eq']
  · exact ⟨withinStr _ _, outlet⟩
  · exact ⟨withinStr _ _, inlet⟩

theorem Security.toJsonWithin (s : Security) : s.toJson.Within (n + 1) := by
  refine withinPairs ?_
  simp only [List.forall_mem_cons, List.not_mem_nil, false_imp_iff, implies_true, and_true]
  exact ⟨withinBool _ _, withinBool _ _, withinBool _ _, withinBool _ _⟩

theorem Documentation.toJsonWithin (d : Documentation) : d.toJson.Within (n + 1) := by
  refine withinSome ?_
  simp only [List.forall_mem_cons, List.not_mem_nil, false_imp_iff, implies_true, and_true]
  exact ⟨withinText _, withinText _, withinText _⟩

end

namespace Channel

theorem toJsonWithin {n : Nat} {c : Channel} (params : ∀ s ∈ c.stages, (obj (Param.toFields s.params)).Within (n + 1)) :
    c.toJson.Within (n + 4) := by
  have stages : ∀ s ∈ c.stages, s.toJson.Within (n + 2) := fun s member => Stage.toJsonWithin (params s member)
  have edges : ∀ e ∈ c.edges, e.toJson.Within (n + 2) := fun e _ => e.toJsonWithin n
  have runtime : (ofPairs [("target", .str c.target.name)]).Within (n + 3) :=
    withinPairs (List.forall_mem_singleton.mpr (withinStr (n + 2) _))
  have documentation : ∀ v, c.documentation.map Documentation.toJson = some v → v.Within (n + 3) := by
    intro v found
    obtain ⟨d, -, rfl⟩ := Option.map_eq_some_iff.mp found
    exact d.toJsonWithin (n + 2)
  refine withinSome ?_
  simp only [List.forall_mem_cons, List.not_mem_nil, false_imp_iff, implies_true, and_true, Option.some.injEq,
    forall_eq']
  exact ⟨withinStr _ _, withinStr _ _, withinStr _ _, runtime, c.security.toJsonWithin (n + 2),
    withinArr (List.forall_mem_map.mpr stages), withinArr (List.forall_mem_map.mpr edges), documentation⟩

section

variable {document : Json} {c : Channel} (valid : (validateChannel document).channel = some c)
include valid

theorem writtenWithin {n : Nat} (within : document.Within (n + 4)) : c.toJson.Within (n + 4) := by
  obtain ⟨-, -, rfl, -⟩ := validNamed valid
  refine toJsonWithin fun s member => ?_
  obtain ⟨v, listed, rfl⟩ := List.mem_map.mp member
  show (obj (Param.toFields (Param.ofFields (v.fieldsAt "params")))).Within (n + 1)
  rw [Param.toFieldsOfFields]
  exact withinFieldsAt (withinItemsAt within v listed)

theorem writtenRead (ordered : document.Ordered) : Channel.reader.read c.toJson = .ok c := by
  obtain ⟨clean, -, same, -⟩ := validNamed valid
  have sound : c.Sound := same ▸ namedSound clean
  have shallow : document.Within (document.depth + 4) := ⟨ordered, Nat.le_add_right _ _⟩
  have refused := readRefused (writtenWithin valid shallow).1 (toJsonOutline sound)
  obtain ⟨w, admitted⟩ := refusedNever refused c.toJsonUnnulled
  have read : Channel.reader.read c.toJson = .ok (Channel.reader.view w) := Outcome.bindOk.mpr ⟨w, admitted, rfl⟩
  rw [read, readViewed (toJsonOutline sound) read, sameOfJson sound]

theorem writtenValidated (ordered : document.Ordered) : validateChannel c.toJson = ⟨some c, [], c.issues⟩ := by
  obtain ⟨clean, -, same, coherent⟩ := validNamed valid
  have sound : c.Sound := same ▸ namedSound clean
  have id : c.channelId ≠ "" := identifierSome sound.id
  have named : c.named c.toJson = c := by simp [named, id, sound.title]
  rw [validatedCoherent (toJsonOutline sound) (writtenRead valid ordered) coherent, named, idIssues, if_neg id]
  rfl

/-- What is written of a valid channel is a document that is valid as the same channel, with the same warnings but that
of an id which was left out; its text is read as that document if the text of the first one could be read. -/
theorem writtenAgain (ordered : document.Ordered) :
    validateChannel c.toJson =
      ⟨some c, [], (validateChannel document).warnings.filter (·.code ≠ "channel.id-defaulted")⟩
    ∧ (document.depth ≤ 127 →
      Json.parse c.toJson.compact = .ok c.toJson ∧ Json.parse c.toJson.pretty = .ok c.toJson) := by
  obtain ⟨clean, read, same, coherent⟩ := validNamed valid
  have validated := validatedCoherent clean read (namedCoherent.mp (same ▸ coherent))
  rw [← same] at validated
  refine ⟨?_, fun shallow => ?_⟩
  · have kept : c.issues.filter (·.code ≠ "channel.id-defaulted") = c.issues :=
      List.filter_eq_self.mpr fun i member => by
        have listed := issueCodes i member
        rw [decide_eq_true_iff]
        rintro same
        rw [same] at listed
        exact absurd listed (by decide)
    have dropped : ((ofJson document).idIssues document).filter (·.code ≠ "channel.id-defaulted") = [] :=
      List.filter_eq_nil_iff.mpr fun i member => by simp [(idWarnings i member).2]
    rw [writtenValidated valid ordered, validated, List.filter_append, kept, dropped]
    rfl
  · have readable : c.toJson.Readable := @writtenWithin document c valid 123 ⟨ordered, shallow⟩
    exact ⟨parseCompact readable, parsePretty readable⟩

end

def sparseStage : Json :=
  .ofPairs [("id", .str "a"), ("nexonId", .str "n"),
    ("params", .ofPairs [("k", .arr [.null, Token.toJson (.secret "s")])]),
    ("position", .ofPairs [("x", .num (.real .zero)), ("y", .num (.real .zero))])]

def sparseEdge : Json :=
  .ofPairs [("id", .str "e"), ("from", .ofPairs [("stageId", .str "a"), ("outlet", .str "o")]),
    ("to", .ofPairs [("stageId", .str "b")])]

def sparseDocument : Json :=
  .ofPairs [("channelId", .str "c"), ("title", .str " "), ("edges", .arr [sparseEdge]),
    ("stages", .arr [sparseStage, .ofPairs [("id", .str "b"), ("nexonId", .str "m"), ("title", .null)]])]

theorem sparseOrdered : sparseDocument.Ordered := by
  have stage : sparseStage.Ordered := orderedOfPairs (by
    simp [Json.Ordered, OrderedItems, OrderedFields, Token.toJson, Table.Ordered, orderedOfPairs])
  have edge : sparseEdge.Ordered := orderedOfPairs (by simp [Json.Ordered, orderedOfPairs])
  exact orderedOfPairs (by simp [stage, edge, Json.Ordered, OrderedItems, orderedOfPairs])

theorem sparseWrittenAgain : sparseDocument.Ordered ∧ ∃ c, (validateChannel sparseDocument).channel = some c
    ∧ validateChannel c.toJson =
      ⟨some c, [], (validateChannel sparseDocument).warnings.filter (·.code ≠ "channel.id-defaulted")⟩
    ∧ Json.parse c.toJson.compact = .ok c.toJson := by
  have some : (validateChannel sparseDocument).channel.isSome = true := by decide +kernel
  obtain ⟨c, valid⟩ := Option.isSome_iff_exists.mp some
  obtain ⟨again, read⟩ := writtenAgain valid sparseOrdered
  exact ⟨sparseOrdered, c, valid, again, (read (by decide +kernel)).1⟩

end Channel

end Conduit
