import Conduit.Proofs.CompilationReports
import Conduit.Proofs.DocumentViews
import Conduit.Proofs.OrderedValues

/-! What a document has to have to be valid, and what the channel read of it then has: names of the syntax of ids,
a title, and the stages and edges that the document lists. -/
namespace Conduit

/-! Identifiers. -/

structure IdentifierSyntax (s : String) : Prop where
  short : s.length ≤ 128
  first : ∃ c rest, s.toList = c :: rest ∧ c.isAlphanum = true
  ascii : ∀ c ∈ s.toList, c.toNat < 128
  plain : ∀ c ∈ s.toList, c.isAlphanum = true ∨ c ∈ ['_', '-', '.']

theorem alphanumBounds {c : Char} (plain : c.isAlphanum = true) :
    48 ≤ c.toNat ∧ c.toNat ≤ 57 ∨ 65 ≤ c.toNat ∧ c.toNat ≤ 90 ∨ 97 ≤ c.toNat ∧ c.toNat ≤ 122 := by
  have numbers {low high : UInt32} (bounds : low ≤ c.val ∧ c.val ≤ high) :
      low.toNat ≤ c.toNat ∧ c.toNat ≤ high.toNat :=
    ⟨UInt32.le_iff_toNat_le.mp bounds.1, UInt32.le_iff_toNat_le.mp bounds.2⟩
  have both {low high : UInt32} (bounds : (decide (low ≤ c.val) && decide (c.val ≤ high)) = true) :
      low ≤ c.val ∧ c.val ≤ high := by simpa using bounds
  have classes : (c.isUpper = true ∨ c.isLower = true) ∨ c.isDigit = true :=
    (Bool.or_eq_true_iff.mp plain).imp_left Bool.or_eq_true_iff.mp
  rcases classes with (upper | lower) | digit
  · exact .inr (.inl (numbers (of_decide_eq_true upper)))
  · exact .inr (.inr (numbers (both lower)))
  · exact .inl (numbers (both digit))

theorem alphanumVisible {c : Char} (plain : c.isAlphanum = true) : Text.isBlank c = false := by
  have bounds := alphanumBounds plain
  simp only [Text.isBlank, Bool.or_eq_false_iff, Bool.and_eq_false_iff, decide_eq_false_iff_not]
  omega

theorem identifierIff {s : String} : isIdentifier s = true ↔ IdentifierSyntax s := by
  have length : s.length = s.toList.length := String.length_toList.symm
  unfold isIdentifier
  cases chars : s.toList with
  | nil =>
    simp only [Bool.false_eq_true, false_iff]
    rintro ⟨-, ⟨c, rest, some, -⟩, -, -⟩
    rw [chars] at some
    cases some
  | cons c rest =>
    rw [chars, List.length_cons] at length
    simp only [Bool.and_eq_true, List.all_eq_true, decide_eq_true_eq, Bool.or_eq_true]
    constructor
    · rintro ⟨⟨lead, few⟩, others⟩
      have plain : ∀ d ∈ s.toList, d.isAlphanum = true ∨ d ∈ ['_', '-', '.'] := by
        rw [chars]
        refine List.forall_mem_cons.mpr ⟨.inl lead, fun d member => ?_⟩
        simpa [or_assoc] using others d member
      refine ⟨by omega, ⟨c, rest, chars, lead⟩, fun d member => ?_, plain⟩
      rcases plain d member with letter | sign
      · have bounds := alphanumBounds letter
        omega
      · simp only [List.mem_cons, List.not_mem_nil, or_false] at sign
        rcases sign with rfl | rfl | rfl <;> decide
    · rintro ⟨short, ⟨d, others, some, lead⟩, -, plain⟩
      rw [chars] at some plain
      cases some
      refine ⟨⟨lead, by omega⟩, fun d member => ?_⟩
      simpa [or_assoc] using plain d (List.mem_cons_of_mem _ member)

theorem identifierVisible {s : String} (identifier : isIdentifier s = true) : Text.isBlankText s = false := by
  obtain ⟨c, rest, chars, lead⟩ := (identifierIff.mp identifier).first
  rw [Text.isBlankText, chars, List.all_cons, alphanumVisible lead, Bool.false_and]

theorem identifierSome {s : String} (identifier : isIdentifier s = true) : s ≠ "" := by
  rintro rfl
  cases identifier

theorem hexPlain (bytes : Bytes) : ∀ c ∈ (Text.Hex.encode bytes).toList, c.isAlphanum = true := by
  have digit : ∀ n < 16, (Nat.digitChar n).isAlphanum = true := by decide
  rw [Text.Hex.encode, String.toList_ofList]
  intro c member
  obtain ⟨b, -, pair⟩ := List.mem_flatMap.mp member
  have byte : b.toNat < 256 := b.toNat_lt
  simp only [Text.Hex.pairText, List.mem_cons, List.not_mem_nil, or_false] at pair
  rcases pair with rfl | rfl
  · exact digit _ (by omega)
  · exact digit _ (by omega)

theorem derivedIdentifier (name : String) : isIdentifier (deriveId "channel" name) = true := by
  have few : ((Sha256.hex (Text.utf8 ("channel" ++ ":" ++ name))).toList.take idDigits).length < 128 :=
    Nat.lt_of_le_of_lt (List.length_take_le _ _) (by decide)
  rw [isIdentifier, deriveId, String.toList_ofList]
  simp only [Bool.and_eq_true, List.all_eq_true, decide_eq_true_eq, Bool.or_eq_true]
  refine ⟨⟨by decide, few⟩, fun c member => .inl (.inl (.inl ?_))⟩
  exact hexPlain _ c (List.mem_of_mem_take member)

/-! What the members of a document without faults are read as. -/

namespace Document

variable {α : Type} {fields : Fields} {key : String} {P : Json → Prop}

theorem requiredText {Q : String → Prop} (here : Required fields key fun v => ∃ s, v = .str s ∧ Q s) (absent : String) :
    ∃ s, (Json.obj fields).field? key = some (.str s) ∧ (Json.obj fields).textAt key absent = s ∧ Q s := by
  obtain ⟨v, found, s, rfl, holds⟩ := here
  refine ⟨s, found, ?_, holds⟩
  rw [Json.textAt, Json.memberOfField (v := .obj fields) found (by simp)]
  rfl

theorem memberHolds (here : Optional fields key P) {v : Json} (found : (Json.obj fields).member? key = some v) :
    P v := by
  rw [Json.member?, Json.field?] at found
  split at found
  next => cases found
  next present some =>
    rcases here v found with rfl | holds
    · exact absurd found some
    · exact holds

theorem optionalBack {read : Json → Option α} {write : α → Json} (here : Optional fields key P)
    (back : ∀ v, P v → ∃ a, read v = some a ∧ write a = v) :
    (Json.obj fields).member? key = (((Json.obj fields).member? key).bind read).map write := by
  cases found : (Json.obj fields).member? key with
  | none => rfl
  | some v =>
    obtain ⟨a, given, same⟩ := back v (memberHolds here found)
    rw [Option.bind_some, given, Option.map_some, same]

theorem textBack (here : Optional fields key Json.IsText) :
    (Json.obj fields).member? key = ((Json.obj fields).textAt? key).map .str :=
  optionalBack here fun _ text => by
    obtain ⟨s, rfl⟩ := text
    exact ⟨s, rfl, rfl⟩

theorem portBack {v : Json} (port : v.IsPort) : ∃ n < 2 ^ 32, v.asNat? = some n ∧ Json.nat n = v := by
  obtain ⟨n, rfl, small⟩ := port
  exact ⟨n.toNat, small, rfl, by rw [Json.nat, Number.ofNat, UInt64.ofNat_toNat]⟩

end Document

open Document

/-! A stage that a document lists. -/

structure Position.Drawn (v : Json) (p : Position) : Prop where
  x : ∃ n, v.field? "x" = some (.num n) ∧ p.x = n.toDouble
  y : ∃ n, v.field? "y" = some (.num n) ∧ p.y = n.toDouble

structure Stage.Drawn (v : Json) (s : Stage) : Prop where
  id : v.field? "id" = some (.str s.id)
  title : v.member? "title" = s.title.map .str
  nexonId : v.field? "nexonId" = some (.str s.nexonId)
  nexonVersion : v.member? "nexonVersion" = s.nexonVersion.map .str
  params : s.params = Param.ofFields (v.fieldsAt "params")
  written : Param.toFields s.params = v.fieldsAt "params"
  position : Option.Rel Position.Drawn (v.member? "position") s.position

structure Stage.Sound (s : Stage) : Prop where
  id : isIdentifier s.id = true
  nexonId : Text.isBlankText s.nexonId = false
  params : ∀ path, paramFields path (Param.toFields s.params) = []
  back : Param.ofFields (Param.toFields s.params) = s.params

theorem Position.ofJsonDrawn {v : Json} (outline : v.IsRecord PositionOutline) : Position.Drawn v (.ofJson v) := by
  obtain ⟨fields, rfl, outline⟩ := outline
  have axis {key : String} (here : Required fields key Json.IsNumber) : ∃ n,
      (Json.obj fields).field? key = some (.num n) ∧ ((Json.obj fields).doubleAt? key).getD .zero = n.toDouble := by
    obtain ⟨v, found, n, rfl⟩ := here
    refine ⟨n, found, ?_⟩
    rw [Json.doubleAt?, Json.memberOfField (v := .obj fields) found (by simp)]
    rfl
  exact ⟨axis outline.x, axis outline.y⟩

theorem Stage.ofJsonDrawn {v : Json} (outline : v.IsRecord StageOutline) : Stage.Drawn v (.ofJson v) := by
  obtain ⟨fields, rfl, outline⟩ := outline
  obtain ⟨id, idGiven, idRead, -⟩ := requiredText outline.id ""
  obtain ⟨nexonId, nexonGiven, nexonRead, -⟩ := requiredText outline.nexonId ""
  constructor
  case id => rw [Stage.ofJson, idRead, idGiven]
  case title => exact textBack outline.title
  case nexonId => rw [Stage.ofJson, nexonRead, nexonGiven]
  case nexonVersion => exact textBack outline.nexonVersion
  case params => rfl
  case written => exact Param.toFieldsOfFields _
  case position =>
    show Option.Rel Position.Drawn ((Json.obj fields).member? "position")
      (((Json.obj fields).member? "position").map Position.ofJson)
    cases found : (Json.obj fields).member? "position" with
    | none => exact .none
    | some v => exact .some (Position.ofJsonDrawn (memberHolds outline.position found))

theorem Stage.ofJsonSound {v : Json} (outline : v.IsRecord StageOutline) : (Stage.ofJson v).Sound := by
  obtain ⟨fields, rfl, outline⟩ := outline
  obtain ⟨id, -, idRead, identifier⟩ := requiredText outline.id ""
  obtain ⟨nexonId, -, nexonRead, filled⟩ := requiredText outline.nexonId ""
  constructor
  case id => rw [Stage.ofJson, idRead, identifier]
  case nexonId => rw [Stage.ofJson, nexonRead, filled]
  case params =>
    show ∀ path, paramFields path (Param.toFields (Param.ofFields ((Json.obj fields).fieldsAt "params"))) = []
    rw [Param.toFieldsOfFields, Json.fieldsAt]
    cases found : (Json.obj fields).member? "params" with
    | none => exact fun _ => rfl
    | some v =>
      obtain ⟨inner, rfl, clean⟩ := memberHolds outline.params found
      exact clean
  case back =>
    show Param.ofFields (Param.toFields (Param.ofFields _)) = Param.ofFields _
    rw [Param.toFieldsOfFields]

/-! An edge that a document lists. -/

structure Edge.Drawn (v : Json) (e : Edge) : Prop where
  id : v.field? "id" = some (.str e.id)
  source : (v.valueAt "from").field? "stageId" = some (.str e.source)
  outlet : (v.valueAt "from").member? "outlet" = e.outlet.map OutletRef.toJson
  target : (v.valueAt "to").field? "stageId" = some (.str e.target)
  inlet : (v.valueAt "to").member? "inlet" = e.inlet.map Json.nat

structure Edge.Sound (e : Edge) : Prop where
  id : isIdentifier e.id = true
  source : isIdentifier e.source = true
  target : isIdentifier e.target = true
  outlet : ∀ n, e.outlet = some (.index n) → n < 2 ^ 32
  inlet : ∀ n, e.inlet = some n → n < 2 ^ 32

theorem Document.innerGiven {fields : Fields} {key : String} {P : Fields → Prop}
    (here : Required fields key (Json.IsRecord P)) : ∃ inner, (Json.obj fields).valueAt key = .obj inner ∧ P inner := by
  obtain ⟨v, found, inner, rfl, holds⟩ := here
  exact ⟨inner, by rw [Json.valueAt, Json.field?, found]; rfl, holds⟩

theorem OutletRef.back {v : Json} (outlet : v.IsText ∨ v.IsPort) : (OutletRef.ofJson v).toJson = v := by
  rcases outlet with ⟨s, rfl⟩ | port
  · rfl
  · obtain ⟨n, -, given, same⟩ := portBack port
    obtain ⟨m, rfl, -⟩ := port
    rw [OutletRef.ofJson, given]
    exact same
    · simp

theorem Edge.ofJsonDrawn {v : Json} (outline : v.IsRecord EdgeOutline) : Edge.Drawn v (.ofJson v) := by
  obtain ⟨fields, rfl, outline⟩ := outline
  obtain ⟨id, idGiven, idRead, -⟩ := requiredText outline.id ""
  obtain ⟨source, left, leaving⟩ := innerGiven outline.source
  obtain ⟨target, entered, entering⟩ := innerGiven outline.target
  obtain ⟨stage, stageGiven, stageRead, -⟩ := requiredText leaving.stage ""
  obtain ⟨other, otherGiven, otherRead, -⟩ := requiredText entering.stage ""
  constructor
  case id => rw [Edge.ofJson, idRead, idGiven]
  case source => rw [Edge.ofJson, left, stageRead, stageGiven]
  case outlet =>
    rw [Edge.ofJson, left]
    cases found : (Json.obj source).member? "outlet" with
    | none => rfl
    | some v => rw [Option.map_some, Option.map_some, OutletRef.back (memberHolds leaving.outlet found)]
  case target => rw [Edge.ofJson, entered, otherRead, otherGiven]
  case inlet =>
    rw [Edge.ofJson, entered]
    exact optionalBack entering.inlet fun v port => by
      obtain ⟨n, -, given, same⟩ := portBack port
      exact ⟨n, given, same⟩

theorem Edge.ofJsonSound {v : Json} (outline : v.IsRecord EdgeOutline) : (Edge.ofJson v).Sound := by
  obtain ⟨fields, rfl, outline⟩ := outline
  obtain ⟨id, -, idRead, identifier⟩ := requiredText outline.id ""
  obtain ⟨source, left, leaving⟩ := innerGiven outline.source
  obtain ⟨target, entered, entering⟩ := innerGiven outline.target
  obtain ⟨stage, -, stageRead, stageFits⟩ := requiredText leaving.stage ""
  obtain ⟨other, -, otherRead, otherFits⟩ := requiredText entering.stage ""
  constructor
  case id => rw [Edge.ofJson, idRead, identifier]
  case source => rw [Edge.ofJson, left, stageRead, stageFits]
  case target => rw [Edge.ofJson, entered, otherRead, otherFits]
  case outlet =>
    rw [Edge.ofJson, left]
    intro n given
    obtain ⟨v, found, same⟩ := Option.map_eq_some_iff.mp given
    rcases memberHolds leaving.outlet found with ⟨s, rfl⟩ | ⟨m, rfl, small⟩
    · cases same
    · cases same
      exact small
  case inlet =>
    rw [Edge.ofJson, entered]
    intro n given
    obtain ⟨v, found, same⟩ := Option.bind_eq_some_iff.mp given
    obtain ⟨m, rfl, small⟩ := memberHolds entering.inlet found
    cases same
    exact small

/-! Channels. -/

namespace Channel

structure Drawn (document : Json) (c : Channel) : Prop where
  id : ∀ id, document.member? "channelId" = some (.str id) → c.channelId = id
  title : ∀ title, document.member? "title" = some (.str title) → Text.isBlankText title = false → c.title = title
  stages : List.Forall₂ Stage.Drawn (document.itemsAt "stages") c.stages
  edges : List.Forall₂ Edge.Drawn (document.itemsAt "edges") c.edges

structure Sound (c : Channel) : Prop where
  id : isIdentifier c.channelId = true
  title : Text.isBlankText c.title = false
  stages : ∀ s ∈ c.stages, s.Sound
  edges : ∀ e ∈ c.edges, e.Sound

structure Presentable (c : Channel) : Prop where
  id : IdentifierSyntax c.channelId
  stages : ∀ s ∈ c.stages, IdentifierSyntax s.id
  edges : ∀ e ∈ c.edges, IdentifierSyntax e.id
  title : Text.isBlankText c.title = false

theorem Sound.presentable {c : Channel} (sound : c.Sound) : c.Presentable where
  id := identifierIff.mp sound.id
  stages s member := identifierIff.mp (sound.stages s member).id
  edges e member := identifierIff.mp (sound.edges e member).id
  title := sound.title

section

variable {document : Json} (clean : documentIssues document = [])
include clean

theorem stagesListed : ∀ v ∈ document.itemsAt "stages", v.IsRecord StageOutline := by
  obtain ⟨fields, rfl, outline⟩ := documentIssuesNone.mp clean
  obtain ⟨_, found, values, rfl, holds⟩ := outline.stages
  rw [Json.itemsAt, Json.memberOfField (v := .obj fields) found (by simp)]
  exact holds

theorem edgesListed : ∀ v ∈ document.itemsAt "edges", v.IsRecord EdgeOutline := by
  obtain ⟨fields, rfl, outline⟩ := documentIssuesNone.mp clean
  rw [Json.itemsAt]
  cases found : (Json.obj fields).member? "edges" with
  | none => simp
  | some v =>
    obtain ⟨values, rfl, holds⟩ := memberHolds outline.edges found
    exact holds

theorem idGiven {v : Json} (given : document.member? "channelId" = some v) :
    ∃ id, v = .str id ∧ (ofJson document).channelId = id ∧ isIdentifier id = true := by
  obtain ⟨fields, rfl, outline⟩ := documentIssuesNone.mp clean
  obtain ⟨id, rfl, identifier⟩ := memberHolds outline.channelId given
  refine ⟨id, rfl, ?_, identifier⟩
  show (((Json.obj fields).member? "channelId").bind Json.asString?).getD "" = id
  rw [given]
  rfl

theorem namedIdentifier : isIdentifier ((ofJson document).named document).channelId = true := by
  simp only [named]
  split
  next => exact derivedIdentifier _
  next some =>
    cases given : document.member? "channelId" with
    | none =>
      have absent : (((document.member? "channelId").bind Json.asString?).getD "") = "" := by rw [given]; rfl
      exact absurd absent some
    | some v =>
      obtain ⟨id, -, same, identifier⟩ := idGiven clean given
      rw [same, identifier]

theorem namedSound : ((ofJson document).named document).Sound where
  id := namedIdentifier clean
  title := by
    have identifier := namedIdentifier clean
    simp only [named] at identifier ⊢
    split
    next => exact identifierVisible identifier
    next some => simpa using some
  stages s member := by
    obtain ⟨v, listed, rfl⟩ := List.mem_map.mp member
    exact Stage.ofJsonSound (stagesListed clean v listed)
  edges e member := by
    obtain ⟨v, listed, rfl⟩ := List.mem_map.mp member
    exact Edge.ofJsonSound (edgesListed clean v listed)

theorem namedDrawn : ((ofJson document).named document).Drawn document where
  id id given := by
    obtain ⟨_, same, read, identifier⟩ := idGiven clean given
    cases same
    show (if _ then _ else _) = id
    rw [if_neg (by rw [read]; exact identifierSome identifier), read]
  title title given visible := by
    have read : (ofJson document).title = title := by
      show ((document.member? "title").bind Json.asString?).getD "" = title
      rw [given]
      rfl
    show (if _ then _ else _) = title
    rw [if_neg (by rw [read, visible]; exact Bool.false_ne_true), read]
  stages := List.forall₂_map_right_iff.mpr (List.forall₂_same.mpr fun v listed =>
    Stage.ofJsonDrawn (stagesListed clean v listed))
  edges := List.forall₂_map_right_iff.mpr (List.forall₂_same.mpr fun v listed =>
    Edge.ofJsonDrawn (edgesListed clean v listed))

end

/-! Validity. -/

section

variable {document : Json} {c : Channel}

theorem namedCoherent : (c.named document).Coherent ↔ c.Coherent :=
  ⟨fun ⟨stages, edges, ends⟩ => ⟨stages, edges, ends⟩, fun ⟨stages, edges, ends⟩ => ⟨stages, edges, ends⟩⟩

def idIssues (document : Json) (c : Channel) : List ChannelIssue :=
  if c.channelId = "" then [.defaultedId (c.named document).channelId] else []

theorem idWarnings : ∀ i ∈ c.idIssues document, i.isError = false ∧ i.code = "channel.id-defaulted" := by
  unfold idIssues
  split <;> simp [ChannelIssue.isError, ChannelIssue.code]

theorem validatedRead (clean : documentIssues document = []) (read : Channel.reader.read document = .ok c) :
    validateChannel document =
      .ofIssues (some (c.named document)) (c.idIssues document ++ (c.named document).issues) := by
  simp only [validateChannel, clean, List.isEmpty_nil, Bool.not_true, Bool.false_eq_true, if_false, read]
  rfl

theorem validatedCoherent (clean : documentIssues document = []) (read : Channel.reader.read document = .ok c)
    (coherent : c.Coherent) : validateChannel document =
      ⟨some (c.named document), [], c.idIssues document ++ (c.named document).issues⟩ := by
  have warnings : ∀ i ∈ c.idIssues document ++ (c.named document).issues, i.isError = false :=
    List.forall_mem_append.mpr ⟨fun i member => (idWarnings i member).1, errorsNone.mpr (namedCoherent.mpr coherent)⟩
  have errors : (c.idIssues document ++ (c.named document).issues).filter (·.isError) = [] :=
    List.filter_eq_nil_iff.mpr fun i member => by simp [warnings i member]
  have kept : (c.idIssues document ++ (c.named document).issues).filter (!·.isError)
      = c.idIssues document ++ (c.named document).issues :=
    List.filter_eq_self.mpr fun i member => by simp [warnings i member]
  rw [validatedRead clean read, ChannelValidation.ofIssues, errors, kept]
  rfl

theorem validNamed (valid : (validateChannel document).channel = some c) : documentIssues document = []
    ∧ Channel.reader.read document = .ok (ofJson document) ∧ c = (ofJson document).named document ∧ c.Coherent := by
  have clean := validOutline valid
  have source := validFrom valid
  obtain ⟨read, success, same⟩ := source.read
  have viewed := readViewed clean success
  subst viewed
  exact ⟨clean, success, same, errorsNone.mp source.issues⟩

theorem validWhen : (validateChannel document).valid = true ↔
    documentIssues document = [] ∧ ∃ c, Channel.reader.read document = .ok c ∧ c.Coherent := by
  constructor
  · intro valid
    obtain ⟨c, found⟩ := Option.isSome_iff_exists.mp valid
    obtain ⟨clean, read, same, coherent⟩ := validNamed found
    exact ⟨clean, _, read, namedCoherent.mp (same ▸ coherent)⟩
  · rintro ⟨clean, c, read, coherent⟩
    rw [validatedCoherent clean read coherent]
    rfl

end

theorem validatedExactly (document : Json) :
    ((validateChannel document).valid = true ↔
      documentIssues document = [] ∧ ∃ c, Channel.reader.read document = .ok c ∧ c.Coherent)
    ∧ ((validateChannel document).valid = true → ∃ c, (validateChannel document).channel = some c
      ∧ c.Presentable ∧ c.Drawn document ∧ c.Coherent ∧ (validateChannel document).errors = [])
    ∧ ((validateChannel document).valid = false →
      (validateChannel document).channel = none ∧ (validateChannel document).errors ≠ []) := by
  refine ⟨validWhen, fun valid => ?_, fun invalid => ⟨?_, fun none => ?_⟩⟩
  · obtain ⟨c, found⟩ := Option.isSome_iff_exists.mp valid
    obtain ⟨clean, -, same, coherent⟩ := validNamed found
    refine ⟨c, found, ?_, ?_, coherent, (validatedErrors document).mp valid⟩
    · rw [same]
      exact (namedSound clean).presentable
    · rw [same]
      exact namedDrawn clean
  · exact Option.not_isSome_iff_eq_none.mp (Bool.not_eq_true _ ▸ invalid)
  · rw [(validatedErrors document).mpr none] at invalid
    cases invalid

theorem stageIdentifiers {document : Json} {c : Channel} (valid : (validateChannel document).channel = some c) :
    ∀ s ∈ c.stages, isIdentifier s.id = true := by
  obtain ⟨clean, -, rfl, -⟩ := validNamed valid
  exact fun s member => ((namedSound clean).stages s member).id

end Channel

end Conduit
