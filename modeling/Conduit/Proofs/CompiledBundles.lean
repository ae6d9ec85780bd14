import Conduit.Compilation.Compiler
import Conduit.Pattern
import Conduit.Proofs.BundleChecks
import Conduit.Proofs.BundleSizes
import Conduit.Proofs.CompilationReports
import Conduit.Proofs.OrderedArtifacts

/-! Bundles of what was compiled. Whatever a compiler makes of a request is read back from its bundle and passes
every check, as long as its flows have no more levels than a reader allows. -/
namespace Conduit

structure Product.ReadsBack (p : Product) (limit : Nat) (included : Bool) : Prop where
  contents : ∃ contents, Bundle.read limit p.bundle.bytes = .ok contents ∧ contents.artifacts = p.artifacts
  digests : ∃ report, Bundle.verify limit (some p.bundle.hashes) p.bundle.bytes = .ok report
    ∧ report.valid ∧ report.mismatches = []
  itself : included → ∃ report, Bundle.verify limit none p.bundle.bytes = .ok report
    ∧ report.valid ∧ report.mismatches = []

namespace Compiler

inductive Reached [Regex] (files : FileTree) (config : Configuration) : Compiler → Prop
  | begun {c : Compiler} : ofConfiguration files config = .ok c → Reached files config c
  | used {c : Compiler} (request : CompileRequest) (run : BuildRun) :
    Reached files config c → Reached files config (c.compile request run).2

structure Sound (config : Configuration) (c : Compiler) : Prop where
  config : c.config = config
  sources : ∀ source ∈ c.sources, source.Ordered
  resolver : c.resolver.Ordered

theorem sourcesOrdered (files : FileTree) (config : Configuration) :
    ∀ source ∈ sourcesOf files config, source.Ordered := by
  intro source member
  rcases List.mem_append.mp member with near | far
  · obtain ⟨root, -, rfl⟩ := Option.map_eq_some_iff.mp (Option.mem_toList.mp near)
    exact NexonSource.directoryOrdered files root
  · obtain ⟨url, -, rfl⟩ := Option.map_eq_some_iff.mp (Option.mem_toList.mp far)
    exact NexonSource.unreachableOrdered

theorem soundBegun {files : FileTree} {config : Configuration} {c : Compiler}
    (made : ofConfiguration files config = .ok c) : c.Sound config := by
  obtain ⟨policies, -, same⟩ := Outcome.bindOk.mp made
  cases same
  exact ⟨rfl, sourcesOrdered files config, List.forall_mem_nil _⟩

theorem compiledFrom [Regex] {config : Configuration} {c : Compiler} (sound : c.Sound config) (request : CompileRequest)
    (run : BuildRun) :
    (c.compile request run).2.Sound config ∧ ∀ p, (c.compile request run).1.product = some p →
      ∃ channel found, (validateChannel request.channel).channel = some channel
        ∧ (∀ n, .ok n ∈ found → n.content.Ordered)
        ∧ p.artifacts = (channel.generateFrom (c.generationOptions run) found).artifacts
        ∧ Bundle.ofArtifacts p.artifacts (c.bundleOptions run) = .ok p.bundle := by
  obtain ⟨configured, sources, resolver⟩ := sound
  have found (stages : List Stage) := @Resolver.foundHolding _ NexonContent.Ordered c.sources
    (fun _ _ => Resolver.fetchedOrdered sources) stages c.resolver run.clock resolver
  constructor
  · rcases compilerAfter c request run with same | ⟨channel, same⟩
    · rw [same]
      exact ⟨configured, sources, resolver⟩
    · rw [same]
      exact ⟨configured, sources, (found channel.stages).2⟩
  · intro p compiled
    have report := reportedEnds (compileEnds c request run)
    obtain ⟨channel, valid, artifacts, made⟩ := report.made p compiled
    rw [report.validated] at valid
    exact ⟨channel, _, valid, (found channel.stages).1, artifacts, bundledMade made⟩

theorem soundReached [Regex] {files : FileTree} {config : Configuration} {c : Compiler}
    (reached : Reached files config c) : c.Sound config := by
  induction reached with
  | begun made => exact soundBegun made
  | used request run _ ih => exact (compiledFrom ih request run).1

theorem compiledSome [Regex] {c : Compiler} {request : CompileRequest} {run : BuildRun} {channel : Channel}
    (valid : (validateChannel request.channel).channel = some channel)
    (passed : (c.lint channel request.orgId request.acknowledged).passed) (finished : run.bundling = .finished) :
    ∃ p, (c.compile request run).1.product = some p
      ∧ p.artifacts = (channel.generate (c.generationOptions run) c.sources run.clock c.resolver).1.artifacts := by
  obtain ⟨p, product, artifacts, -⟩ := endsFinished valid passed finished (compileEnds c request run)
  exact ⟨p, product, artifacts⟩

section

variable {files : FileTree} {config : Configuration} {c : Compiler} {request : CompileRequest} {run : BuildRun}
  {p : Product}

variable [Regex]

theorem compiledRead (sound : c.Sound config) (compiled : (c.compile request run).1.product = some p) {limit : UInt64}
    {archive : Bytes} (packed : Bundle.packed config.compression archive = p.bundle.bytes)
    (within : archive.length ≤ limit.toNat) :
    ∃ tree, p.artifacts.hashes.tree = .ok tree
      ∧ Bundle.ofArtifacts p.artifacts (c.bundleOptions run) = .ok p.bundle
      ∧ (Bundle.archive (Bundle.files (c.bundleOptions run) p.artifacts p.artifacts.hashes tree.root)).length ≤ limit.toNat
      ∧ Bundle.read limit.toNat p.bundle.bytes = Bundle.contentsOf (Bundle.entriesOf
          (Bundle.files (c.bundleOptions run) p.artifacts p.artifacts.hashes tree.root)) := by
  obtain ⟨channel, found, -, -, -, bundle⟩ := (compiledFrom sound request run).2 p compiled
  have compression : (c.bundleOptions run).compression = config.compression := by rw [bundleOptions, sound.config]
  rw [← compression] at packed
  obtain ⟨tree, grown, -, -, small, read⟩ := Bundle.madeRead bundle packed within
  exact ⟨tree, grown, bundle, small, read⟩

theorem flowsOrdered (sound : c.Sound config) (ordered : request.channel.Ordered)
    (compiled : (c.compile request run).1.product = some p) : p.artifacts.flows.Ordered := by
  obtain ⟨channel, found, valid, nexons, artifacts, -⟩ := (compiledFrom sound request run).2 p compiled
  rw [artifacts]
  exact channel.flowsOrdered _ (Channel.validatedOrdered ordered valid) nexons

theorem othersReadable (sound : c.Sound config) (compiled : (c.compile request run).1.product = some p) :
    p.artifacts.settings.Readable ∧ p.artifacts.manifest.Readable ∧ p.artifacts.credentialsMap.Readable := by
  obtain ⟨channel, found, -, -, artifacts, -⟩ := (compiledFrom sound request run).2 p compiled
  rw [artifacts]
  exact ⟨channel.settingsReadable _ _, channel.manifestReadable _ _, channel.credentialsReadable _ _⟩

theorem deepRefused (sound : c.Sound config) (ordered : request.channel.Ordered)
    (compiled : (c.compile request run).1.product = some p) {limit : UInt64} {archive : Bytes}
    (packed : Bundle.packed config.compression archive = p.bundle.bytes) (within : archive.length ≤ limit.toNat)
    (deep : 127 < p.artifacts.flows.depth) :
    ∃ reason, Bundle.read limit.toNat p.bundle.bytes = .error (.malformed Artifacts.flowsFile (.json reason))
      ∧ ∀ expected, Bundle.verify limit.toNat expected p.bundle.bytes
          = .error (.malformed Artifacts.flowsFile (.json reason)) := by
  obtain ⟨tree, -, -, -, read⟩ := compiledRead sound compiled packed within
  obtain ⟨reason, refused⟩ := @Bundle.contentsRefused (c.bundleOptions run) p.artifacts p.artifacts.hashes tree.root
    (flowsOrdered sound ordered compiled) deep (othersReadable sound compiled).1
  rw [refused] at read
  exact ⟨reason, read, fun expected => by rw [Bundle.verify, read]; rfl⟩

theorem bundleReadsBack (reached : Reached files config c) (ordered : request.channel.Ordered)
    (compiled : (c.compile request run).1.product = some p) {limit : UInt64} {archive : Bytes}
    (packed : Bundle.packed config.compression archive = p.bundle.bytes) (within : archive.length ≤ limit.toNat) :
    (p.artifacts.flows.depth ≤ 127 → p.ReadsBack limit.toNat config.includeMetadata)
      ∧ (127 < p.artifacts.flows.depth → ∃ reason,
        Bundle.read limit.toNat p.bundle.bytes = .error (.malformed Artifacts.flowsFile (.json reason))
          ∧ ∀ expected, Bundle.verify limit.toNat expected p.bundle.bytes
              = .error (.malformed Artifacts.flowsFile (.json reason))) := by
  have sound := soundReached reached
  refine ⟨fun shallow => ?_, deepRefused sound ordered compiled packed within⟩
  obtain ⟨tree, grown, bundle, small, read⟩ := compiledRead sound compiled packed within
  obtain ⟨settings, manifest, credentials⟩ := othersReadable sound compiled
  rw [Bundle.contentsRead ⟨flowsOrdered sound ordered compiled, shallow⟩ settings manifest credentials
    (Bundle.embeddedReadable ..)] at read
  obtain ⟨report, verified, none⟩ := Bundle.verifiedWith bundle read
  refine ⟨⟨_, read, rfl⟩, ⟨report, verified, by rw [VerifyReport.valid, none]; rfl, none⟩, fun included => ?_⟩
  have itself : (c.bundleOptions run).includeMetadata = true := by rw [bundleOptions, sound.config, included]
  rw [itself, if_pos rfl] at read
  have sizes : ∀ h ∈ p.artifacts.hashes.toList, h.size < 2 ^ 64 := fun h member =>
    Nat.lt_of_le_of_lt (Nat.le_trans (Bundle.hashesWithin h member) small) limit.toNat_lt
  obtain ⟨report, verified, none⟩ := Bundle.verifiedWithin grown sizes read
  exact ⟨report, verified, by rw [VerifyReport.valid, none]; rfl, none⟩

end

theorem packedWithin [Regex] {config : Configuration} {c : Compiler} (sound : c.Sound config) {request : CompileRequest}
    {run : BuildRun} {p : Product} (compiled : (c.compile request run).1.product = some p) :
    ∃ archive, Bundle.packed config.compression archive = p.bundle.bytes
      ∧ archive.length ≤ Bundle.archiveRoom (c.bundleOptions run) p.artifacts := by
  obtain ⟨-, -, -, -, -, bundle⟩ := (compiledFrom sound request run).2 p compiled
  obtain ⟨tree, grown, bytes, -⟩ := Bundle.ofArtifactsMade bundle
  have compression : (c.bundleOptions run).compression = config.compression := by rw [bundleOptions, sound.config]
  exact ⟨_, by rw [bytes, compression], Bundle.archiveWithin _ _ grown⟩

/-! Channels compiled with the nexons of a directory. -/

attribute [local instance] Pattern.engine

def configured (compression : Compression) (includeMetadata : Bool) : Configuration where
  nexonDir := some "n"
  compression := compression
  includeMetadata := includeMetadata

def ofDirectory (config : Configuration) (files : FileTree) : Compiler where
  config := config
  sources := [.directory files "n"]
  resolver := .ofTtl config.templateTtl

theorem reachedDirectory (compression : Compression) (includeMetadata : Bool) (files : FileTree) :
    Reached files (configured compression includeMetadata)
      (ofDirectory (configured compression includeMetadata) files) :=
  .begun rfl

def requestOf (stages edges : List Json) : CompileRequest where
  channel := .ofPairs
    [("channelId", .str "c"), ("title", .str "t"), ("stages", .arr stages), ("edges", .arr edges)]
  orgId := "o"
  userId := "u"

def firstRun : BuildRun := { buildId := "b", createdAt := ⟨0, 0⟩ }

theorem compiledChecked {c : Compiler} {request : CompileRequest} {run : BuildRun} {check : Artifacts → Bool}
    (finished : run.bundling = .finished)
    (holds : (validateChannel request.channel).channel.any fun channel =>
      (c.lint channel request.orgId request.acknowledged).passed
        && check (channel.generate (c.generationOptions run) c.sources run.clock c.resolver).1.artifacts) :
    ∃ p, (c.compile request run).1.product = some p ∧ check p.artifacts := by
  obtain ⟨channel, valid, both⟩ := (Option.any_eq_true _ _).mp holds
  obtain ⟨passed, checked⟩ := Bool.and_eq_true_iff.mp both
  obtain ⟨p, compiled, artifacts⟩ := @compiledSome _ c request run channel valid passed finished
  exact ⟨p, compiled, by rw [artifacts, checked]⟩

theorem requestOrdered {stages edges : List Json} (ordered : ∀ s ∈ stages, s.Ordered)
    (orderedToo : ∀ e ∈ edges, e.Ordered) : (requestOf stages edges).channel.Ordered := by
  refine Json.orderedOfPairs ?_
  simp only [List.forall_mem_cons, List.not_mem_nil, false_imp_iff, implies_true, and_true]
  exact ⟨trivial, trivial, Json.orderedArr.mpr ordered, Json.orderedArr.mpr orderedToo⟩

def oneFile (text : String) : FileTree where
  nodes := [(["n", "n", "1.0.0.json"], .file (Text.utf8 text))]

theorem oneRead (text : String) : (oneFile text).readText "n/n/1.0.0.json" = .ok text := by
  have bytes : (oneFile text).read "n/n/1.0.0.json" = .ok (Text.utf8 text) := rfl
  simp only [FileTree.readText, bytes, bind, Except.bind, Text.ofUtf8Utf8]
  rfl

def readBack (document : Json) : Json :=
  (TemplateDocument.reader.shape.parseChars document.compactChars).toOption.getD .null

theorem parsedBack {document : Json}
    (fits : (TemplateDocument.reader.shape.parseChars document.compactChars).toOption.isSome) :
    TemplateDocument.reader.parse document.compact = .ok (.ofJson (readBack document)) := by
  rw [Json.Reader.parse, Json.compact, String.toList_ofList, readBack]
  cases inside : TemplateDocument.reader.shape.parseChars document.compactChars with
  | ok v => rfl
  | error fault => simp [inside, Except.toOption] at fits

-- The directory as a table of answers: deciding what a run comes to then reads no text of it again.
theorem oneSource {document : Json}
    (fits : (TemplateDocument.reader.shape.parseChars document.compactChars).toOption.isSome) :
    NexonSource.directory (oneFile document.compact) "n"
      = ⟨.disk, fun id version => if id = "n" ∧ version.getD "1.0.0" = "1.0.0" then
          .found ⟨.ofJson (readBack document), "n/n/1.0.0.json"⟩
        else NexonSource.fetchFrom (oneFile document.compact) "n" id version⟩ := by
  have pinned : NexonSource.readVersion (oneFile document.compact) (FileTree.join "n" "n") "1.0.0"
      = .found ⟨.ofJson (readBack document), "n/n/1.0.0.json"⟩ := by
    have locator : FileTree.join (FileTree.join "n" "n") ("1.0.0" ++ ".json") = "n/n/1.0.0.json" := by decide
    simp only [NexonSource.readVersion, locator, oneRead, parsedBack fits]
  have latest : NexonSource.latestIn (oneFile document.compact) (FileTree.join "n" "n") = .ok (Version.parse? "1.0.0") :=
    rfl
  have fixed : (Version.parse? "1.0.0").map Version.text = some "1.0.0" := by decide
  rw [NexonSource.directory]
  congr
  funext id version
  split
  next same =>
    obtain ⟨rfl, same⟩ := same
    cases version with
    | none =>
      obtain ⟨v, parsed, text⟩ := Option.map_eq_some_iff.mp fixed
      have segments : (!NexonSource.isSegment "n" || !(none : Option String).all NexonSource.isSegment) = false := by decide
      rw [NexonSource.fetchFrom, segments, if_neg (by decide)]
      simp only [latest, parsed, text, pinned]
    | some w =>
      cases (show w = "1.0.0" from same)
      have segments : (!NexonSource.isSegment "n" || !(some "1.0.0").all NexonSource.isSegment) = false := by decide
      rw [NexonSource.fetchFrom, segments, if_neg (by decide)]
      exact pinned
  next => rfl

def labelling : Json := .ofPairs
  [("manifest", .ofPairs [("id", .str "n"), ("version", .str "1.0.0"), ("title", .str "N"), ("capabilities", .obj []),
      ("parameters", .ofPairs [("key", .ofPairs [("type", .str "secret")]),
        ("label", .ofPairs [("type", .str "string"), ("validation", .ofPairs [("pattern", .str "^[a-z]+$")])])])]),
   ("template", .arr [.ofPairs [("id", .str "x"), ("type", .str "mail"), ("key", (Token.expr "params.key").toJson),
      ("name", .str "\x7b\x7bchannel.title\x7d\x7d: \x7b\x7bparams.label\x7d\x7d")]])]

def labelledStage (id label : String) (version : List (String × Json)) : Json := .ofPairs
  ([("id", .str id), ("nexonId", .str "n"),
    ("params", .ofPairs [("key", (Token.secret "vault://key").toJson), ("label", .str label)])] ++ version)

def labelled : CompileRequest :=
  requestOf [labelledStage "a" "first" [], labelledStage "b" "second" [("nexonVersion", .str "1.0.0")]]
    [.ofPairs [("id", .str "e"), ("from", .ofPairs [("stageId", .str "a")]), ("to", .ofPairs [("stageId", .str "b")])]]

theorem labelledOrdered : labelled.channel.Ordered := by decide +kernel

def showsLabels (a : Artifacts) : Bool :=
  let node (name : String) (wires : List Json) (v : Json) : Bool :=
    (v.field? "name").any (·.same (.str name)) && (v.field? "wires").any (·.same (.arr [.arr wires]))
      && (v.field? "key").any (·.same (.str (Secret.placeholder "GJ_SECRET_A_KEY")))
  (a.manifest.field? "fallbackStages").any (·.same (.arr []))
    && (a.flows.asArray?.getD []).any (node "t: first" [.str (nodeId "b" "x")])
    && (a.flows.asArray?.getD []).any (node "t: second" [])

theorem labelledReadsBack : labelled.channel.Ordered ∧ ∃ p archive,
    ((ofDirectory (configured .gzip true) (oneFile labelling.compact)).compile labelled firstRun).1.product = some p
      ∧ Bundle.packed .gzip archive = p.bundle.bytes ∧ archive.length ≤ (1000000 : UInt64).toNat
      ∧ p.artifacts.flows.depth ≤ 127 ∧ showsLabels p.artifacts ∧ p.ReadsBack 1000000 true := by
  have reached := reachedDirectory .gzip true (oneFile labelling.compact)
  obtain ⟨p, compiled, checked⟩ := @compiledChecked (ofDirectory (configured .gzip true) (oneFile labelling.compact))
    labelled firstRun (fun a =>
      decide (Bundle.archiveRoom ((ofDirectory (configured .gzip true) (oneFile labelling.compact)).bundleOptions firstRun)
        a ≤ 1000000 ∧ a.flows.depth ≤ 127) && showsLabels a) rfl (by
      rw [ofDirectory, oneSource (by decide +kernel)]
      decide +kernel)
  obtain ⟨sizes, shown⟩ := Bool.and_eq_true_iff.mp checked
  obtain ⟨room, shallow⟩ := of_decide_eq_true sizes
  obtain ⟨archive, bytes, length⟩ := packedWithin (soundReached reached) compiled
  have within : archive.length ≤ (1000000 : UInt64).toNat := Nat.le_trans length room
  exact ⟨labelledOrdered, p, archive, compiled, bytes, within, shallow, shown,
    (bundleReadsBack reached labelledOrdered compiled bytes within).1 shallow⟩

def nested : Nat → Json → Json
  | 0, v => v
  | n + 1, v => .arr [nested n v]

theorem nestedOrdered {v : Json} (ordered : v.Ordered) : (n : Nat) → (nested n v).Ordered
  | 0 => ordered
  | n + 1 => Json.orderedArr.mpr (List.forall_mem_singleton.mpr (nestedOrdered ordered n))

def wrapping : Json := .ofPairs
  [("manifest", .ofPairs [("id", .str "n"), ("version", .str "1.0.0"), ("title", .str "N"), ("capabilities", .obj []),
      ("parameters", .ofPairs [("x", .ofPairs [("type", .str "array")])])]),
   ("template", .arr [.ofPairs [("id", .str "x"), ("type", .str "t"),
      ("a", nested 62 (.ofPairs [("$expr", .str "params.x")]))]])]

def wrappingStage : Json := .ofPairs
  [("id", .str "s"), ("nexonId", .str "n"), ("nexonVersion", .str "1.0.0"), ("params", .ofPairs [("x", nested 64 .null)])]

/-- A parameter of sixty-four lists, put into sixty-two others by a nexon, is too deep to be read back. -/
theorem wrappedRefused : ¬ ∀ (files : FileTree) (config : Configuration) (c : Compiler), Reached files config c →
    ∀ (request : CompileRequest), request.channel.Ordered → ∀ (run : BuildRun) (p : Product),
      (c.compile request run).1.product = some p → ∀ (limit : UInt64) (archive : Bytes),
        Bundle.packed config.compression archive = p.bundle.bytes → archive.length ≤ limit.toNat →
        p.ReadsBack limit.toNat config.includeMetadata := by
  intro claimed
  have ordered : (requestOf [wrappingStage] []).channel.Ordered := by
    refine requestOrdered (List.forall_mem_singleton.mpr (Json.orderedOfPairs ?_)) (List.forall_mem_nil _)
    simp only [List.forall_mem_cons, List.not_mem_nil, false_imp_iff, implies_true, and_true]
    refine ⟨trivial, trivial, trivial, Json.orderedOfPairs (List.forall_mem_singleton.mpr ?_)⟩
    exact @nestedOrdered .null trivial 64
  have reached := reachedDirectory .none false (oneFile wrapping.compact)
  obtain ⟨p, compiled, checked⟩ := @compiledChecked (ofDirectory (configured .none false) (oneFile wrapping.compact))
    (requestOf [wrappingStage] []) firstRun
    (fun a => decide (Bundle.archiveRoom ((ofDirectory (configured .none false) (oneFile wrapping.compact)).bundleOptions
      firstRun) a ≤ 1000000 ∧ 127 < a.flows.depth)) rfl (by
      rw [ofDirectory, oneSource (by decide +kernel)]
      decide +kernel)
  obtain ⟨room, deep⟩ := of_decide_eq_true checked
  obtain ⟨archive, bytes, length⟩ := packedWithin (soundReached reached) compiled
  have within : archive.length ≤ (1000000 : UInt64).toNat := Nat.le_trans length room
  obtain ⟨contents, read, -⟩ := (claimed _ _ _ reached _ ordered _ p compiled _ _ bytes within).contents
  obtain ⟨reason, refused, -⟩ := deepRefused (soundReached reached) ordered compiled bytes within deep
  rw [read] at refused
  cases refused

end Compiler

end Conduit
