import Conduit.Number.Double
import Conduit.Json.ShapeReader
import Conduit.Digest.Content
import Conduit.Digest.Merkle
import Conduit.Text.Encoding
import Conduit.Credentials
import Conduit.Substitution
import Conduit.Nexon.Validity
import Conduit.Channel.Validation
import Conduit.Policy.Lint
import Conduit.Policy.Basic
import Conduit.Artifacts
import Conduit.Configuration
import Conduit.Flow.Graph
import Conduit.Nexon.Resolver
import Conduit.Flow.Generation
import Conduit.Archive.Gzip
import Conduit.Archive.Tar
import Conduit.Bundle.Contents
import Conduit.Compilation.Compiler
import Conduit.Environment
import Conduit.CommandLine.Run
import Conduit.Main
import Conduit.Proofs.ServedSecrets
import Conduit.Proofs.SecretRenaming
import Conduit.Proofs.CacheTransparency
import Conduit.Proofs.CompiledBundles
import Conduit.Proofs.ExpressionHeights
import Conduit.Proofs.ReplacedStages
import Conduit.Proofs.RepeatedBuilds
import Conduit.Proofs.BundleRoundTrips
import Conduit.Proofs.TamperEvidence
import Conduit.Proofs.MerkleCommitments
import Conduit.Proofs.LeafProofs
import Conduit.Proofs.SearchMoves
import Conduit.Proofs.NodeNames
import Conduit.Proofs.RenderedNodes
import Conduit.Proofs.ClosedFlows
import Conduit.Proofs.SeparateNexons
import Conduit.Proofs.LikeGraphs
import Conduit.Proofs.IsolatedStages
import Conduit.Proofs.FoundCycles
import Conduit.Proofs.ExpressionGrammar
import Conduit.Proofs.WrittenChannels
import Conduit.Proofs.RuleTable
import Conduit.Proofs.AcknowledgedViolations
import Conduit.Proofs.KeptNexons
import Conduit.Proofs.ResolvedValues
import Conduit.Proofs.OrderedNexons
import Conduit.Proofs.CheckedParameters
import Conduit.Proofs.RenderedProperties
import Conduit.Proofs.LaidPorts
import Conduit.Proofs.OutletPorts
import Conduit.Proofs.ReorderedEdges
import Conduit.Proofs.DeclaredSecrets
import Conduit.Proofs.ParameterScan
import Conduit.Proofs.ValidParameters
import Conduit.Proofs.LoneExpressions
import Conduit.Proofs.StricterPolicies
import Conduit.Proofs.SecretVariables
import Conduit.Proofs.CanonicalText
import Conduit.Proofs.ListedPolicies
import Conduit.Proofs.PartedText
import Conduit.Proofs.VersionText
import Conduit.Proofs.VersionOrder
import Conduit.Proofs.HighestVersions
import Conduit.Proofs.WrittenNexons
