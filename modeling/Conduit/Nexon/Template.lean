import Conduit.Channel.Basic
import Conduit.Digest.Content
import Conduit.Nexon.Parameter
import Conduit.Nexon.Version

/-! Nexons: a manifest that says what a building block is and needs, and the nodes it is made of. -/
namespace Conduit

structure Network where
  httpOut : Bool := false
  tcpOut : Bool := false
  udpOut : Bool := false
  httpIn : Bool := false
  deriving DecidableEq, Repr

namespace Network

def shape : Json.Shape :=
  .record "NetworkCapabilities"
    [Json.optional "httpOut" .bool, Json.optional "tcpOut" .bool, Json.optional "udpOut" .bool,
     Json.optional "httpIn" .bool]

def ofJson (v : Json) : Network := ⟨v.flagAt "httpOut", v.flagAt "tcpOut", v.flagAt "udpOut", v.flagAt "httpIn"⟩

def toJson (n : Network) : Json :=
  .ofPairs [("httpOut", .bool n.httpOut), ("tcpOut", .bool n.tcpOut), ("udpOut", .bool n.udpOut),
    ("httpIn", .bool n.httpIn)]

end Network

structure Capabilities where
  network : Network := {}
  filesystem : Bool := false
  system : Bool := false
  deriving DecidableEq, Repr

namespace Capabilities

def shape : Json.Shape :=
  .record "Capabilities"
    [Json.optional "network" Network.shape, Json.optional "filesystem" .bool, Json.optional "system" .bool]

def ofJson (v : Json) : Capabilities :=
  ⟨.ofJson (v.valueAt "network"), v.flagAt "filesystem", v.flagAt "system"⟩

def toJson (c : Capabilities) : Json :=
  .ofPairs [("network", c.network.toJson), ("filesystem", .bool c.filesystem), ("system", .bool c.system)]

end Capabilities

structure Compatibility where
  targets : List Target := []
  minEngineVersion : Option String := none
  deriving DecidableEq, Repr

namespace Compatibility

def shape : Json.Shape :=
  .record "Compatibility"
    [Json.optional "targets" (.list Target.shape), Json.optional "minEngineVersion" (.option .string)]

def ofJson (v : Json) : Compatibility :=
  ⟨(v.textsAt "targets").map Target.ofName, v.textAt? "minEngineVersion"⟩

def toJson (c : Compatibility) : Json :=
  .ofSome
    [("targets", if c.targets.isEmpty then none else some (.strings (c.targets.map Target.name))),
     ("minEngineVersion", c.minEngineVersion.map .str)]

end Compatibility

structure Manifest where
  id : String := ""
  version : String := ""
  title : String := ""
  capabilities : Option Capabilities := none
  parameters : Option ParamDefs := none
  outlets : List String := []
  compatibility : Option Compatibility := none
  deriving Repr

namespace Manifest

def outletIndex? (m : Manifest) (name : String) : Option Nat := m.outlets.findIdx? (· = name)

def ofJson (v : Json) : Manifest where
  id := v.textAt "id" ""
  version := v.textAt "version" ""
  title := v.textAt "title" ""
  capabilities := (v.member? "capabilities").map Capabilities.ofJson
  parameters := (v.member? "parameters").map ParamDefs.reader.view
  outlets := v.textsAt "outlets"
  compatibility := (v.member? "compatibility").map Compatibility.ofJson

def shape : Json.Shape :=
  .record "NexonManifest"
    [Json.optional "id" .string, Json.optional "version" .string, Json.optional "title" .string,
     Json.optional "capabilities" (.option Capabilities.shape),
     Json.optional "parameters" (.option ParamDefs.reader.shape),
     Json.optional "outlets" (.list .string), Json.optional "compatibility" (.option Compatibility.shape)]

def toJson (m : Manifest) : Json :=
  .ofSome
    [("id", some (.str m.id)), ("version", some (.str m.version)), ("title", some (.str m.title)),
     ("capabilities", m.capabilities.map Capabilities.toJson),
     ("parameters", m.parameters.map fun defs => .obj (defs.map fun (name, d) => (name, d.toJson))),
     ("outlets", if m.outlets.isEmpty then none else some (.strings m.outlets)),
     ("compatibility", m.compatibility.map Compatibility.toJson)]

end Manifest

structure NodeTemplate where
  id : String := ""
  type : String := ""
  wires : List (List String) := []
  properties : Fields := []
  deriving Repr

namespace NodeTemplate

def knownFields : List Json.Shape.Field :=
  [Json.optional "id" .string, Json.optional "type" .string, Json.optional "wires" (.list (.list .string))]

def shape : Json.Shape := .openRecord "NodeTemplate" knownFields

def ofJson (v : Json) : NodeTemplate where
  id := v.textAt "id" ""
  type := v.textAt "type" ""
  wires := (v.itemsAt "wires").map fun port => (port.asArray?.getD []).filterMap Json.asString?
  properties := (v.asObject?.getD []).filter fun f => !(knownFields.any (·.1 = f.1))

def toJson (n : NodeTemplate) : Json :=
  .ofPairs ([("id", .str n.id), ("type", .str n.type)]
    ++ (if n.wires.isEmpty then [] else [("wires", .arr (n.wires.map Json.strings))])
    ++ n.properties)

end NodeTemplate

structure TemplateDocument where
  manifest : Manifest
  nodes : List NodeTemplate := []
  checksum : Option String := none
  deriving Repr

namespace TemplateDocument

def ofJson (v : Json) : TemplateDocument where
  manifest := .ofJson (v.valueAt "manifest")
  nodes := (v.itemsAt "template").map NodeTemplate.ofJson
  checksum := v.textAt? "checksum"

def reader : Json.Reader TemplateDocument where
  shape := .record "TemplateDocument"
    [Json.required "manifest" Manifest.shape, Json.optional "template" (.list NodeTemplate.shape),
     Json.optional "checksum" (.option .string)]
  view := ofJson

def toJson (d : TemplateDocument) : Json :=
  .ofSome
    [("manifest", some d.manifest.toJson), ("template", some (.arr (d.nodes.map NodeTemplate.toJson))),
     ("checksum", d.checksum.map .str)]

def computedChecksum (d : TemplateDocument) : String :=
  (ContentHash.ofContent (.ofPairs
    [("manifest", d.manifest.toJson), ("template", .arr (d.nodes.map NodeTemplate.toJson))])).hash

end TemplateDocument

def cacheKey (id : String) (version : Option String) : String := id ++ "@" ++ version.getD "latest"

end Conduit
