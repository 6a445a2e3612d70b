import InfraVeritas.Lib.BigEndian
import InfraVeritas.Lib.Checks
import InfraVeritas.Lib.Gaps
import InfraVeritas.Lib.Runs
import InfraVeritas.Lib.ByteView
import InfraVeritas.Solidity
import InfraVeritas.OpenZeppelin
import InfraVeritas.V3
import InfraVeritas.V3Step
import InfraVeritas.V3Log
import InfraVeritas.Rejections
import InfraVeritas.Deployments
import InfraVeritas.DeviceRegistry
import InfraVeritas.Lifecycle
import InfraVeritas.Poseidon
import InfraVeritas.Canonical
import InfraVeritas.Decoding
import InfraVeritas.Circuit
import InfraVeritas.Authenticity
import InfraVeritas.Lib.Hex
import InfraVeritas.Schema
import InfraVeritas.Encoders
import InfraVeritas.Lib.Keyed
import InfraVeritas.Queue
import InfraVeritas.ChainErrors
import InfraVeritas.Agreement
import InfraVeritas.Api
import InfraVeritas.Ordering
import InfraVeritas.Pipeline
import InfraVeritas.Process
import InfraVeritas.Worker
import InfraVeritas.Drain
import InfraVeritas.Representation
import InfraVeritas.Routing
import InfraVeritas.Recovery
import InfraVeritas.HonkVerifier
import InfraVeritas.EdgeClient
import InfraVeritas.Deduplication
import InfraVeritas.P256
import InfraVeritas.Tampering
import InfraVeritas.FormatSoundness
import InfraVeritas.Subgraph
import InfraVeritas.DeviceMirror
import InfraVeritas.SubmissionStats
import InfraVeritas.V3Admin
import InfraVeritas.Isolation
import InfraVeritas.Proxy
import InfraVeritas.Privileges
import InfraVeritas.DomainSeparator
import InfraVeritas.EIP712
import InfraVeritas.Persistence
import InfraVeritas.Acceptance
import InfraVeritas.Lockout
import InfraVeritas.Energy
import InfraVeritas.Termination
import InfraVeritas.BestEffort
import InfraVeritas.Lib.Dispersion
import InfraVeritas.Statistics
import InfraVeritas.TrustedRows
import InfraVeritas.DriftShift
import InfraVeritas.Lib.OrderStatistics
import InfraVeritas.Lib.Rounding
import InfraVeritas.Lib.Binary64
import InfraVeritas.Lib.Doubles
import InfraVeritas.Ensemble
import InfraVeritas.Consensus
import InfraVeritas.Spread
import InfraVeritas.Divergence
import InfraVeritas.Lib.Argmin
import InfraVeritas.Lib.Calendar
import InfraVeritas.Lib.FixedWidth
import InfraVeritas.Providers
import InfraVeritas.ClosestPoint
import InfraVeritas.Hours
import InfraVeritas.TimeKeys
import InfraVeritas.Lib.Sponge
import InfraVeritas.ReferenceSponge
import InfraVeritas.Conversions
import InfraVeritas.Signing
import InfraVeritas.Fr
import InfraVeritas.Harness
import InfraVeritas.HonkGemini
import InfraVeritas.HonkLibra
import InfraVeritas.Verification
import InfraVeritas.Lib.Routines
import InfraVeritas.ProviderFetch
