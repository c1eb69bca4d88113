import AccessTopology.KeyMap.Lookup
import AccessTopology.Main
import AccessTopology.Proofs.Ledger.Run
import AccessTopology.Proofs.Rendering.Compilation
import AccessTopology.Proofs.Rendering.Status
import AccessTopology.Proofs.Rendering.Success
import AccessTopology.Proofs.Rendering.Observed
import AccessTopology.Proofs.Observation
import AccessTopology.Proofs.Rendering.Reconciliation
import AccessTopology.Proofs.Validation.SameNames
import AccessTopology.Proofs.Topology.Identities
import AccessTopology.Proofs.Rendering.StageOrder
import AccessTopology.Proofs.Rendering.SameNames
import AccessTopology.Proofs.Topology.Reordering
import AccessTopology.Proofs.Rendering.Order
import AccessTopology.Proofs.Topology.Outline
import AccessTopology.Proofs.Rendering.Outline
import AccessTopology.Proofs.Rendering.Addition
import AccessTopology.Proofs.Rendering.Bindings
import AccessTopology.Proofs.Rendering.Tags
import AccessTopology.Proofs.Rendering.Lending
import AccessTopology.Proofs.Ledger.Indexed
import AccessTopology.Proofs.Ledger.Books
import AccessTopology.Proofs.Rendering.Marked
import AccessTopology.Proofs.Rendering.CanonicalText
import AccessTopology.Proofs.Identity.BeyondAscii
import AccessTopology.Proofs.Rendering.Federation
import AccessTopology.Proofs.CommandLine.ExitCode
import AccessTopology.Proofs.Rendering.ReadingBack
import AccessTopology.Proofs.Identity.NormalForm
import AccessTopology.Proofs.Topology.Expansion
import AccessTopology.Proofs.Validation.TakenNames
import AccessTopology.Proofs.Version.Grammar
import AccessTopology.Proofs.Version.Precedence
import AccessTopology.Proofs.Rendering.EngineGate
import AccessTopology.Proofs.Identity.PrincipalId
import AccessTopology.Proofs.Rendering.EmptyIdentifiers
