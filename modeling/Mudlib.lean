import Mudlib.Dict
import Mudlib.Text.Lowercase
import Mudlib.Number.Shortest
import Mudlib.Digest.Sha256
import Mudlib.Value.Basic
import Mudlib.Value.Printer
import Mudlib.Value.Reader
import Mudlib.Toml.Document
import Mudlib.DefinitionId
import Mudlib.Definition.Fingerprint
import Mudlib.Definition.Decode
import Mudlib.Table
import Mudlib.Link
import Mudlib.Registry.Resolve
import Mudlib.Source.Files
import Mudlib.Config.Environment
import Mudlib.Permission
import Mudlib.RuntimeError
import Mudlib.Space.Attachment
import Mudlib.Space.Body
import Mudlib.Space.Outline
import Mudlib.Space.Operations
import Mudlib.CommandLine.Report
import Mudlib.Main
import Mudlib.Proofs.FirstFailure
import Mudlib.Proofs.Link.Merge
import Mudlib.Proofs.Link.Restamp
import Mudlib.Proofs.Link.Contributions
import Mudlib.Proofs.Link.Calls
import Mudlib.Proofs.Link.Fields
import Mudlib.Proofs.Link.Faults
import Mudlib.Proofs.Link.Policy
import Mudlib.Proofs.Link.Order
import Mudlib.Proofs.Link.Redundant
import Mudlib.Proofs.Registry.Coherence
import Mudlib.Proofs.Registry.Resolution
import Mudlib.Proofs.Registry.Operations
import Mudlib.Proofs.Registry.Sharing
import Mudlib.Proofs.Registry.BottomUp
import Mudlib.Proofs.Registry.Memoization
import Mudlib.Proofs.Registry.Contributions
import Mudlib.Proofs.Registry.BoundCalls
import Mudlib.Proofs.Registry.Failure
import Mudlib.Proofs.Registry.Fields
import Mudlib.Proofs.Registry.Rollback
import Mudlib.Proofs.Registry.Causes
import Mudlib.Proofs.Registry.Histories
import Mudlib.Proofs.Registry.Policy
import Mudlib.Proofs.Registry.Dependents
import Mudlib.Proofs.Registry.Recasting
import Mudlib.Proofs.Registry.Order
import Mudlib.Proofs.Registry.Redundant
import Mudlib.Proofs.Registry.Lineage
import Mudlib.Proofs.Registry.Cycles
import Mudlib.Proofs.Number.Shortest
import Mudlib.Proofs.Number.Text
import Mudlib.Proofs.Value.Printer
import Mudlib.Proofs.Definition.Declaration
import Mudlib.Proofs.Registry.FreshBuild
import Mudlib.Proofs.Space.Links
import Mudlib.Proofs.Space.Tree
import Mudlib.Proofs.Space.Steps
import Mudlib.Proofs.Space.Course
import Mudlib.Proofs.Space.Stepwise
import Mudlib.Proofs.Space.Tidiness
import Mudlib.Proofs.Space.Guards
import Mudlib.Proofs.Space.Reentrance
import Mudlib.Proofs.Registry.Scripted
import Mudlib.Proofs.Space.Scripted
import Mudlib.Proofs.Space.Forest
import Mudlib.Proofs.Space.PostOrder
import Mudlib.Proofs.Space.Moves
import Mudlib.Proofs.Space.Cascade
import Mudlib.Proofs.Space.Building
import Mudlib.Proofs.Space.AttachmentForest
import Mudlib.Proofs.Space.Frame
import Mudlib.Proofs.Space.Undoing
import Mudlib.Proofs.Space.Walk
import Mudlib.Proofs.Space.Forecast
import Mudlib.Proofs.Space.Plan
import Mudlib.Proofs.Space.Layout
import Mudlib.Proofs.Space.Unfolding
import Mudlib.Proofs.Space.AuxiliaryGraph
import Mudlib.Proofs.Space.FailedCreation
import Mudlib.Proofs.Space.Requests
import Mudlib.Proofs.Space.Lifecycle
import Mudlib.Proofs.Space.Privilege
import Mudlib.Proofs.Space.Templates
import Mudlib.Proofs.Space.Protection
import Mudlib.Proofs.Space.Storage
import Mudlib.Proofs.Space.Starts
import Mudlib.Proofs.Space.Dispatch
import Mudlib.Proofs.Space.Attaching
import Mudlib.Proofs.Space.Refusals
import Mudlib.Proofs.Space.Sequence
import Mudlib.Proofs.Space.Descent
import Mudlib.Proofs.Space.Bodies
import Mudlib.Proofs.Space.Interruption
import Mudlib.Proofs.Space.Jobs
import Mudlib.Proofs.Space.Candor
import Mudlib.Proofs.Space.Recurrence
import Mudlib.Proofs.Space.Mutations
import Mudlib.Proofs.Space.LiveTree
import Mudlib.Proofs.Definition.Path
import Mudlib.Proofs.Registry.Unchanged
import Mudlib.Proofs.Source.Tree
import Mudlib.Proofs.Source.Discovery
import Mudlib.Proofs.Space.Tombstones
