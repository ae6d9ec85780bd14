import Conduit.Nexon.Source

/-! Nexons that were admitted, kept for a time under the keys they were asked for. Times are those of a clock that
only ever goes on, in whole units of which an entry is kept for `ttl`. -/
namespace Conduit

structure Nexon where
  manifest : Manifest
  nodes : List NodeTemplate
  kind : SourceKind
  locator : String
  checksum : String
  ttl : Nat
  serial : Nat
  deriving Repr

namespace Nexon

def key (n : Nexon) : String := cacheKey n.manifest.id (some n.manifest.version)

def sourceJson (n : Nexon) : Json :=
  .ofPairs
    [("kind", .str n.kind.name), ("locator", .str n.locator), ("checksum", .str n.checksum)]

def toJson (n : Nexon) : Json :=
  .ofPairs
    [("key", .str n.key), ("manifest", n.manifest.toJson),
     ("template", .arr (n.nodes.map NodeTemplate.toJson)), ("source", n.sourceJson),
     ("ttlSecs", .nat n.ttl)]

end Nexon

structure CacheEntry where
  nexon : Nexon
  inserted : Nat
  ttl : Nat
  deriving Repr

def CacheEntry.isStale (now : Nat) (e : CacheEntry) : Bool := e.inserted + e.ttl ≤ now

structure NexonCache where
  entries : Table CacheEntry := []
  ttl : Nat
  deriving Repr

namespace NexonCache

def fresh? (c : NexonCache) (now : Nat) (key : String) : Option Nexon :=
  ((c.entries.get? key).filter fun e => !e.isStale now).map (·.nexon)

def touched (c : NexonCache) (now : Nat) (key : String) : NexonCache :=
  if (c.entries.get? key).any (·.isStale now) then { c with entries := c.entries.erase key } else c

def put (c : NexonCache) (now ttl : Nat) (key : String) (n : Nexon) : NexonCache :=
  { c with entries := Table.insert key ⟨n, now, ttl⟩ c.entries }

def remove (c : NexonCache) (key : String) : NexonCache := { c with entries := c.entries.erase key }

def clear (c : NexonCache) : NexonCache := { c with entries := [] }

def size (c : NexonCache) : Nat := c.entries.length

end NexonCache

/-! Finding a nexon: in the cache, else in the first source that has it. Only what is admitted is used,
and only that enters the cache. -/

structure NexonRequest where
  id : String
  version : Option String := none
  refresh : Bool := false
  deriving DecidableEq, Repr

def NexonRequest.key (r : NexonRequest) : String := cacheKey r.id r.version

def idOfKey (key : String) : String := String.ofList (key.toList.takeWhile (· ≠ '@'))

namespace TemplateDocument

def checksumHolds (d : TemplateDocument) : Bool :=
  d.checksum.all fun expected =>
    expected.toList.map Char.toLower = d.computedChecksum.toList.map Char.toLower

def otherwise (d : TemplateDocument) (r : NexonRequest) : List TemplateFault :=
  let id := idOfKey r.key
  (if d.manifest.id ≠ "" && d.manifest.id ≠ id then [.otherId d.manifest.id id] else [])
  ++ match r.version with
    | some v =>
      if d.manifest.version ≠ "" && d.manifest.version ≠ v then [.otherVersion d.manifest.version v] else []
    | none => []

end TemplateDocument

structure Resolver where
  cache : NexonCache
  admitted : Nat := 0
  deriving Repr

/-- The readings of the clock in one call: as it looks into the cache, and as it keeps what it found, under the key
asked for and then under that of its version. -/
structure Readings where
  looks : Nat
  keeps : Nat
  keepsVersion : Nat
  deriving DecidableEq, Repr

def Readings.at (now : Nat) : Readings := ⟨now, now, now⟩

abbrev Clock := Nat → Readings

namespace Clock

def still (now : Nat) : Clock := fun _ => .at now

def next (clock : Clock) : Clock := fun i => clock (i + 1)

end Clock

namespace Resolver

def ofTtl (ttl : Nat) : Resolver := ⟨⟨[], ttl⟩, 0⟩

def admission [Regex] (s : Resolver) (r : NexonRequest) (kind : SourceKind) (t : FetchedTemplate) :
    Except TemplateError Nexon :=
  let d := t.document
  if !d.checksumHolds then
    .error (.checksumMismatch r.key (d.checksum.getD "") d.computedChecksum)
  else
    let faults := d.report.faults ++ d.otherwise r
    if !faults.isEmpty then .error (.invalid r.key faults)
    else
      .ok { manifest := d.manifest, nodes := d.nodes, kind, locator := t.locator
            checksum := d.computedChecksum, ttl := s.cache.ttl, serial := s.admitted }

def keep (s : Resolver) (t : Readings) (r : NexonRequest) (n : Nexon) : Resolver where
  admitted := s.admitted + 1
  cache :=
    let c := s.cache.put t.keeps s.cache.ttl r.key n
    if r.version.isNone then c.put t.keepsVersion s.cache.ttl n.key n else c

def search (r : NexonRequest) : List NexonSource → Except TemplateError (SourceKind × FetchedTemplate)
  | [] => .error (.notFound r.id (r.version.getD "latest"))
  | source :: rest =>
    match source.fetch r.id r.version with
    | .found t => .ok (source.kind, t)
    | .absent => search r rest
    | .unreachable => search r rest
    | .failed reason => .error reason

def fetch [Regex] (s : Resolver) (sources : List NexonSource) (r : NexonRequest) : Except TemplateError Nexon := do
  let (kind, t) ← search r sources
  s.admission r kind t

def looked (s : Resolver) (now : Nat) (r : NexonRequest) : Resolver :=
  if r.refresh then s else { s with cache := s.cache.touched now r.key }

def resolve [Regex] (s : Resolver) (sources : List NexonSource) (t : Readings) (r : NexonRequest) :
    Except TemplateError Nexon × Resolver :=
  match if r.refresh then none else s.cache.fresh? t.looks r.key with
  | some hit => (.ok hit, s)
  | none =>
    let s := s.looked t.looks r
    match s.fetch sources r with
    | .ok n => (.ok n, s.keep t r n)
    | .error reason => (.error reason, s)

end Resolver

end Conduit
