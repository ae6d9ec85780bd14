import Conduit.Files
import Conduit.Json.ShapeReader
import Conduit.Nexon.Validity

/-! Where nexons come from: a source answers with a document, has none, or gives no answer in the time that a
fetch may take. -/
namespace Conduit

inductive SourceKind where
  | disk | remote
  deriving DecidableEq, Repr

def SourceKind.name : SourceKind → String
  | .disk => "local"
  | .remote => "remote"

inductive TemplateError where
  | notFound (id version : String)
  | invalid (key : String) (faults : List TemplateFault)
  | checksumMismatch (key expected actual : String)
  | noDocument (locator : String) (reason : Json.SyntaxError)
  | unfit (locator : String) (reason : Json.ReadError)
  | file (reason : FileError)
  deriving Repr

def TemplateError.message : TemplateError → String
  | .notFound id version => s!"Template not found: {id}@{version}"
  | .invalid key faults => s!"Template {key} is invalid: " ++ "; ".intercalate (faults.map (·.message))
  | .checksumMismatch key expected actual =>
    s!"Template {key} checksum mismatch: expected {expected}, computed {actual}"
  | .noDocument locator reason => s!"Template parse error in {locator}: {reason.message}"
  | .unfit locator reason => s!"Template parse error in {locator}: {reason.message}"
  | .file reason => s!"I/O error: {reason.message}"

structure FetchedTemplate where
  document : TemplateDocument
  locator : String
  deriving Repr

inductive SourceReply where
  | found (template : FetchedTemplate)
  | absent
  | unreachable
  | failed (reason : TemplateError)
  deriving Repr

structure NexonSource where
  kind : SourceKind
  fetch : String → Option String → SourceReply

namespace NexonSource

/-! A directory with a subdirectory for each nexon, and in it a file for each version. -/

def isSegmentChar (c : Char) : Bool := c.isAlphanum || c = '-' || c = '_' || c = '.' || c = '+'

def isSegment (s : String) : Bool := s ≠ "" && s ≠ "." && s ≠ ".." && s.toList.all isSegmentChar

def latestOf (names : List String) : Option Version :=
  Version.latest? (names.filterMap fun name => (FileTree.jsonStem? name).bind Version.parse?)

def latestIn (files : FileTree) (dir : String) : Except FileError (Option Version) :=
  match files.list dir with
  | .ok names => .ok (latestOf names)
  | .error .notFound => .ok none
  | .error reason => .error reason

def readVersion (files : FileTree) (dir version : String) : SourceReply :=
  let locator := FileTree.join dir (version ++ ".json")
  match files.readText locator with
  | .error .notFound => .absent
  | .error reason => .failed (.file reason)
  | .ok text =>
    match TemplateDocument.reader.parse text with
    | .ok document => .found ⟨document, locator⟩
    | .error reason => .failed (.noDocument locator reason)

def fetchFrom (files : FileTree) (root id : String) (version : Option String) : SourceReply :=
  if !isSegment id || !version.all isSegment then .absent
  else
    let dir := FileTree.join root id
    match version with
    | some v => readVersion files dir v
    | none =>
      match latestIn files dir with
      | .error reason => .failed (.file reason)
      | .ok none => .absent
      | .ok (some v) => readVersion files dir v.text

def directory (files : FileTree) (root : String) : NexonSource := ⟨.disk, fetchFrom files root⟩

/-! Sources of other kinds. -/

def ofTable (documents : Table Json) : NexonSource where
  kind := .remote
  fetch id version :=
    let key := cacheKey id version
    match documents.get? key with
    | none => .absent
    | some v =>
      match TemplateDocument.reader.read v with
      | .ok document => .found ⟨document, "memory:" ++ key⟩
      | .error reason => .failed (.unfit ("memory:" ++ key) reason)

def unreachable : NexonSource := ⟨.remote, fun _ _ => .unreachable⟩

end NexonSource

end Conduit
