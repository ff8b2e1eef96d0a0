import DesiredState.Json.Printer
import DesiredState.Json.Reader
import DesiredState.Kind
import DesiredState.Proofs.AccessEntryRuns
import DesiredState.Proofs.ActiveGate
import DesiredState.Proofs.AddressedPaths
import DesiredState.Proofs.ByteOrder
import DesiredState.Proofs.CallGrammar
import DesiredState.Proofs.CarriedValues
import DesiredState.Proofs.Courses
import DesiredState.Proofs.Creation
import DesiredState.Proofs.Documents
import DesiredState.Proofs.Drift
import DesiredState.Proofs.EncryptionUpdates
import DesiredState.Proofs.Environments
import DesiredState.Proofs.ExplicitRows
import DesiredState.Proofs.FailStop
import DesiredState.Proofs.FixedPoint
import DesiredState.Proofs.InnerOrder
import DesiredState.Proofs.LabelsAndTaints
import DesiredState.Proofs.MapChanges
import DesiredState.Proofs.MapKeys
import DesiredState.Proofs.NormalForms
import DesiredState.Proofs.Pacing
import DesiredState.Proofs.PathOwnership
import DesiredState.Proofs.PlanPartition
import DesiredState.Proofs.PlanResumption
import DesiredState.Proofs.PublishedConditions
import DesiredState.Proofs.Reordering
import DesiredState.Proofs.RepeatedUpdates
import DesiredState.Proofs.RoleMappings
import DesiredState.Proofs.SentVersions
import DesiredState.Proofs.Shapes
import DesiredState.Proofs.SizeOwnership
import DesiredState.Proofs.SpecDocuments
import DesiredState.Proofs.StatusSpellings
import DesiredState.Proofs.Strictness
import DesiredState.Proofs.SwappedSides
import DesiredState.Proofs.TagSync
import DesiredState.Proofs.VersionGrammar
import DesiredState.Proofs.VersionSteps
import DesiredState.Proofs.VersionTexts
import DesiredState.Proofs.VersionUpgrades
import DesiredState.Proofs.VersionWalk
import DesiredState.Proofs.WalkOrder
import DesiredState.Publishing
import DesiredState.Reconciliation
