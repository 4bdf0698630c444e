import Recast.Batch
import Recast.CSharp.Unit
import Recast.Disk.Tree
import Recast.Form.Body
import Recast.Form.Source
import Recast.Form.Target
import Recast.FrontEnd
import Recast.Json.Printer
import Recast.Json.Reader
import Recast.Main
import Recast.Marker.Store
import Recast.Number.Decimal
import Recast.Proofs.Actions
import Recast.Proofs.Alike
import Recast.Proofs.Apart
import Recast.Proofs.Batch.Course
import Recast.Proofs.Batch.GivenUp
import Recast.Proofs.Batch.LastMarkers
import Recast.Proofs.Batch.Ledger
import Recast.Proofs.Batch.Log
import Recast.Proofs.Batch.Modes
import Recast.Proofs.Batch.Order
import Recast.Proofs.Batch.Record
import Recast.Proofs.Batch.SideBySide
import Recast.Proofs.Batch.StoreFailures
import Recast.Proofs.Batch.Success
import Recast.Proofs.Batch.Written
import Recast.Proofs.Bindings
import Recast.Proofs.BoundTypes
import Recast.Proofs.Brackets
import Recast.Proofs.Branches
import Recast.Proofs.Command
import Recast.Proofs.Counterparts
import Recast.Proofs.Declared
import Recast.Proofs.EmptyPackage
import Recast.Proofs.Expressions
import Recast.Proofs.FailedChanges
import Recast.Proofs.FirstBinding
import Recast.Proofs.ForHeaders
import Recast.Proofs.Form.Body
import Recast.Proofs.Form.Markers
import Recast.Proofs.Form.Units
import Recast.Proofs.Fronts
import Recast.Proofs.FullNames
import Recast.Proofs.Grouping
import Recast.Proofs.Json.Readers
import Recast.Proofs.Json.Text
import Recast.Proofs.Layers
import Recast.Proofs.Leaves
import Recast.Proofs.Lines
import Recast.Proofs.Literals
import Recast.Proofs.MarkerFile
import Recast.Proofs.MarkerMap
import Recast.Proofs.Markers
import Recast.Proofs.Names
import Recast.Proofs.Namespaces
import Recast.Proofs.NodeByNode
import Recast.Proofs.Nodes
import Recast.Proofs.OneLine
import Recast.Proofs.Outlines
import Recast.Proofs.Packages
import Recast.Proofs.Parts
import Recast.Proofs.Paths
import Recast.Proofs.Places
import Recast.Proofs.ReadBack
import Recast.Proofs.Reading
import Recast.Proofs.References
import Recast.Proofs.SameNames
import Recast.Proofs.Session
import Recast.Proofs.Stages
import Recast.Proofs.Statements
import Recast.Proofs.Types
import Recast.Proofs.Unit
import Recast.Proofs.Usings
import Recast.Proofs.Views
import Recast.Proofs.WellNamed
import Recast.Proofs.Words
import Recast.Proofs.World
import Recast.Proofs.WrittenFiles
import Recast.Recasting.Unit
import Recast.Settings
import Recast.Source
import Recast.Target
