import Reconcile.Main
import Reconcile.Session.Operation
import Reconcile.Proofs.Model.Laws
import Reconcile.Proofs.Session.Effects
import Reconcile.Proofs.Session.Settling
import Reconcile.Proofs.Session.Runs
import Reconcile.Proofs.Session.Provenance
import Reconcile.Proofs.Session.KnownInputs
import Reconcile.Proofs.Session.CleanSides
import Reconcile.Proofs.Session.SavedOnce
import Reconcile.Proofs.Command.MergeOnDisk
import Reconcile.Proofs.Session.FailedSaves
import Reconcile.Proofs.Session.CalledOff
import Reconcile.Proofs.Session.Policies
import Reconcile.Proofs.Session.ReadOnly
import Reconcile.Proofs.Model.Sides
import Reconcile.Proofs.Model.InStep
import Reconcile.Proofs.Session.MirroredRuns
import Reconcile.Proofs.Session.FlushOrder
import Reconcile.Proofs.Session.Discarded
import Reconcile.Proofs.Session.Moves
import Reconcile.Proofs.Session.Layout
import Reconcile.Proofs.Session.FollowsInput
import Reconcile.Proofs.Session.IgnoredAncestor
import Reconcile.Proofs.Session.EventStream
import Reconcile.Proofs.Session.BothSides
import Reconcile.Proofs.Session.Watched
import Reconcile.Proofs.Command.Stages
import Reconcile.Proofs.Command.Confined
import Reconcile.Proofs.Command.CopyOnDisk
import Reconcile.Proofs.Session.SavesInFlight
import Reconcile.Proofs.Script.Readings
import Reconcile.Proofs.Text.Lines
import Reconcile.Proofs.Merge.Walk
import Reconcile.Proofs.Merge.Shortcuts
import Reconcile.Proofs.Merge.Regions
import Reconcile.Proofs.Terminal.Difference
import Reconcile.Proofs.Session.LoadedKind
import Reconcile.Proofs.Model.TypeNames
import Reconcile.Proofs.Model.StoredNames
import Reconcile.Proofs.Session.ReportedSides
import Reconcile.Proofs.Merge.Markers
import Reconcile.Proofs.Toml.Keys
import Reconcile.Proofs.Settings.Fields
import Reconcile.Proofs.Settings.Overlay
import Reconcile.Proofs.Settings.Resolution
import Reconcile.Proofs.Command.Validation
import Reconcile.Proofs.Listeners
