import Conduit.Json.Shape
import Conduit.Channel.Basic
import Conduit.Json.Reader
import Conduit.Files

/-! What a channel is compiled to: the flow document, the settings of the runtime, a manifest of the build
and a map of the credentials. -/
namespace Conduit

def engineVersion : String := "1.0.0"

structure Artifacts where
  flows : Json
  settings : Json
  manifest : Json
  credentialsMap : Json
  deriving Repr

namespace Artifacts

def flowsFile : String := "flows.json"

def settingsFile : String := "settings.js"

def manifestFile : String := "manifest.json"

def credentialsFile : String := "credentials.map.json"

def reader : Json.Reader Artifacts where
  shape := .record "GeneratedArtifacts"
    [Json.required "flowsJson" .any, Json.required "settings" .any, Json.required "manifest" .any,
     Json.required "credentialsMap" .any]
  view v := ⟨v.valueAt "flowsJson", v.valueAt "settings", v.valueAt "manifest", v.valueAt "credentialsMap"⟩

def toJson (a : Artifacts) : Json :=
  .ofPairs [("flowsJson", a.flows), ("settings", a.settings), ("manifest", a.manifest),
    ("credentialsMap", a.credentialsMap)]

def same (a b : Artifacts) : Bool :=
  a.flows.same b.flows && a.settings.same b.settings && a.manifest.same b.manifest
    && a.credentialsMap.same b.credentialsMap

def channelId (a : Artifacts) : String := a.manifest.textAt "channelId" ""

end Artifacts

end Conduit

/-! The settings of the runtime that runs a flow: no editor, no administration, no installing of modules.
They are shipped as a module whose one statement assigns them. -/
namespace Conduit.Settings

def modeVariable : String := "GJ_BUILD_MODE"

def build (env : Table String) (mode : BuildMode) : Json :=
  let noInstall := Json.ofPairs [("allowInstall", .bool false)]
  .ofPairs
    [("flowFile", .str Artifacts.flowsFile), ("disableEditor", .bool true), ("httpAdminRoot", .bool false),
     ("requireHttps", .bool (mode = .production)),
     ("externalModules", .ofPairs
        [("autoInstall", .bool false), ("palette", noInstall), ("modules", noInstall)]),
     ("functionExternalModules", .bool false),
     ("env", .obj ((Table.insert modeVariable mode.name env).map fun v => (v.1, .str v.2)))]

def opening : String := "module.exports = "

def closing : String := ";\n"

def render (settings : Json) : String := opening ++ settings.pretty ++ closing

inductive Error where
  | notText (fault : Text.Utf8Fault)
  | notModule
  | notJson (reason : Json.SyntaxError)
  deriving Repr

def Error.message : Error → String
  | .notText fault => fault.message
  | .notModule => "expected 'module.exports = \x7b...\x7d;'"
  | .notJson reason => reason.message

def body? (cs : List Char) : Option (List Char) :=
  if opening.toList.isPrefixOf cs then
    let rest := Text.trimEnd (cs.drop opening.length)
    if rest.getLast? = some ';' then some rest.dropLast else none
  else none

def parseText (text : String) : Except Error Json :=
  match body? text.toList with
  | none => .error .notModule
  | some body => (Json.parse (String.ofList body)).mapError .notJson

def parse (bytes : Bytes) : Except Error Json :=
  match Text.ofUtf8? bytes with
  | some text => parseText text
  | none => .error (.notText ((Text.utf8Fault? 0 bytes).getD ⟨0, none⟩))

end Conduit.Settings

/-! What has to be known to start an unpacked bundle. -/
namespace Conduit

structure Handoff where
  channelId : String
  buildId : String
  mode : BuildMode
  flowsPath : String
  settingsPath : String
  credentialsPath : Option String
  deriving DecidableEq, Repr

namespace Handoff

def hasCredentials (a : Artifacts) : Bool := !(a.credentialsMap.fieldsAt "credentials").isEmpty

def ofArtifacts (root : String) (a : Artifacts) (buildId : String) (mode : BuildMode) : Handoff where
  channelId := a.channelId
  buildId := buildId
  mode := mode
  flowsPath := FileTree.join root Artifacts.flowsFile
  settingsPath := FileTree.join root Artifacts.settingsFile
  credentialsPath := if hasCredentials a then some (FileTree.join root Artifacts.credentialsFile) else none

def toJson (h : Handoff) : Json :=
  .ofSome
    [("channelId", some (.str h.channelId)), ("buildId", some (.str h.buildId)),
     ("mode", some (.str h.mode.name)), ("flowsPath", some (.str h.flowsPath)),
     ("settingsPath", some (.str h.settingsPath)), ("credentialsMapPath", h.credentialsPath.map .str)]

end Handoff

end Conduit
