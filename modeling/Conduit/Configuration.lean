import Conduit.Bundle.Basic
import Conduit.Channel.Basic
import Conduit.Basic

/-! The configuration of a compiler, from variables that may be set. A variable that is blank counts as
not set. How long a fetch may take is read and checked here and then left to the source: one that would take
longer answers that it is unreachable. -/
namespace Conduit

structure Configuration where
  nexonDir : Option String := none
  remoteUrl : Option String := none
  remoteToken : Option String := none
  templateTtl : Nat := 3600
  fetchTimeout : Nat := 10
  bundleTimeout : Nat := 60
  policyDir : Option String := none
  mode : BuildMode := .production
  compression : Compression := .gzip
  includeMetadata : Bool := true
  maxBundleBytes : Nat := 64 * 1024 * 1024
  deriving DecidableEq, Repr

inductive ConfigError where
  | mode
  | compression
  | includeMetadata
  | maxBundleBytes
  | seconds (name : String)
  deriving DecidableEq, Repr

def ConfigError.name : ConfigError → String
  | .mode => "GJ_BUILD_MODE"
  | .compression => "GJ_COMPRESSION"
  | .includeMetadata => "GJ_INCLUDE_METADATA"
  | .maxBundleBytes => "GJ_MAX_BUNDLE_BYTES"
  | .seconds name => name

def ConfigError.demand : ConfigError → String
  | .mode => "must be 'production' or 'development'"
  | .compression => "must be 'gzip' or 'none'"
  | .includeMetadata => "must be 'true' or 'false'"
  | .maxBundleBytes => "must be a positive integer"
  | .seconds _ => "must be a non-negative integer"

def ConfigError.message (e : ConfigError) : String := s!"invalid value for {e.name}: {e.demand}"

namespace Configuration

abbrev Variables := String → Option String

def variableNames : List String :=
  ["GJ_NEXON_DIR", "GJ_NEXON_REMOTE_URL", "GJ_NEXON_REMOTE_TOKEN", "GJ_TEMPLATE_TTL_SECS",
   "GJ_FETCH_TIMEOUT_SECS", "GJ_BUNDLE_TIMEOUT_SECS", "GJ_POLICY_DIR", "GJ_BUILD_MODE", "GJ_COMPRESSION",
   "GJ_INCLUDE_METADATA", "GJ_MAX_BUNDLE_BYTES"]

def given (env : Variables) (name : String) : Option String :=
  (env name).filter fun v => !Text.isBlankText v

def word {α : Type} (env : Variables) (e : ConfigError) (absent : α) (words : List (String × α)) :
    Except ConfigError α :=
  match given env e.name with
  | none => .ok absent
  | some v =>
    match words.lookup (Text.trimmed v) with
    | some a => .ok a
    | none => .error e

def natural (env : Variables) (e : ConfigError) (absent : Nat) (admits : Nat → Bool) :
    Except ConfigError Nat :=
  match given env e.name with
  | none => .ok absent
  | some v =>
    match (Text.natural64? (Text.trim v.toList)).filter admits with
    | some n => .ok n
    | none => .error e

def seconds (env : Variables) (name : String) (absent : Nat) : Except ConfigError Nat :=
  natural env (.seconds name) absent fun _ => true

def ofVariables (env : Variables) : Except ConfigError Configuration := do
  let standard : Configuration := {}
  let mode ← word env .mode standard.mode
    [("production", .production), ("development", .development)]
  let compression ← word env .compression standard.compression [("gzip", .gzip), ("none", .none)]
  let includeMetadata ← word env .includeMetadata standard.includeMetadata
    [("true", true), ("1", true), ("false", false), ("0", false)]
  let maxBundleBytes ← natural env .maxBundleBytes standard.maxBundleBytes (0 < ·)
  let templateTtl ← seconds env "GJ_TEMPLATE_TTL_SECS" standard.templateTtl
  let fetchTimeout ← seconds env "GJ_FETCH_TIMEOUT_SECS" standard.fetchTimeout
  let bundleTimeout ← seconds env "GJ_BUNDLE_TIMEOUT_SECS" standard.bundleTimeout
  return { nexonDir := given env "GJ_NEXON_DIR", remoteUrl := given env "GJ_NEXON_REMOTE_URL"
           remoteToken := given env "GJ_NEXON_REMOTE_TOKEN", policyDir := given env "GJ_POLICY_DIR"
           templateTtl, fetchTimeout, bundleTimeout, mode, compression, includeMetadata, maxBundleBytes }

end Configuration

end Conduit
