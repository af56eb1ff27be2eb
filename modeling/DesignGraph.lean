import DesignGraph.Arc
import DesignGraph.ClassRoot
import DesignGraph.Command.Arguments
import DesignGraph.Command.Effect
import DesignGraph.Command.Run
import DesignGraph.Command.Usage
import DesignGraph.Composition.Digraph
import DesignGraph.Composition.Parts
import DesignGraph.Decimal.Binary64
import DesignGraph.Decimal.Shortest
import DesignGraph.Document
import DesignGraph.Entity.Design
import DesignGraph.Entity.Extract
import DesignGraph.Entity.Generate
import DesignGraph.Entity.Notice
import DesignGraph.Hyperedge
import DesignGraph.Identifier
import DesignGraph.Instance
import DesignGraph.Main
import DesignGraph.Network.Assertion
import DesignGraph.Network.Factory
import DesignGraph.Ontology
import DesignGraph.Rejection
import DesignGraph.Relation.Assertion
import DesignGraph.Relation.Index
import DesignGraph.Relation.Memory
import DesignGraph.Relation.Query
import DesignGraph.Settings
import DesignGraph.Settings.Dotenv
import DesignGraph.Settings.Options
import DesignGraph.Settings.Problem
import DesignGraph.Settings.Sources
import DesignGraph.Settings.Validation
import DesignGraph.Storage.Found
import DesignGraph.Storage.Model
import DesignGraph.Storage.Path
import DesignGraph.Storage.Tree
import DesignGraph.Store
import DesignGraph.Text.Base64
import DesignGraph.Text.Cased
import DesignGraph.Text.Digit
import DesignGraph.Text.Encoding
import DesignGraph.Text.Hex
import DesignGraph.Text.LowerCase
import DesignGraph.Text.Parts
import DesignGraph.Text.Portions
import DesignGraph.Text.Printable
import DesignGraph.Text.Quoted
import DesignGraph.Text.Utf16
import DesignGraph.Text.Utf8
import DesignGraph.UidSet
import DesignGraph.Vocabulary
import DesignGraph.Vocabulary.Level
import DesignGraph.Yaml.Character
import DesignGraph.Yaml.Cursor
import DesignGraph.Yaml.Fault
import DesignGraph.Yaml.Grammar
import DesignGraph.Yaml.Implicit
import DesignGraph.Yaml.Letters
import DesignGraph.Yaml.Moment
import DesignGraph.Yaml.Node
import DesignGraph.Yaml.Node.Meaning
import DesignGraph.Yaml.Node.Merge
import DesignGraph.Yaml.Node.Scalar
import DesignGraph.Yaml.Node.Unfold
import DesignGraph.Yaml.Outline
import DesignGraph.Yaml.Outline.Value
import DesignGraph.Yaml.ScalarText
import DesignGraph.Yaml.Stretch
import DesignGraph.Yaml.Tag
import DesignGraph.Yaml.Timestamp
import DesignGraph.Yaml.Token.Block
import DesignGraph.Yaml.Token.Plain
import DesignGraph.Yaml.Token.Property
import DesignGraph.Yaml.Token.Quoted
import DesignGraph.Yaml.Token.Stream
import DesignGraph.Yaml.Value
import DesignGraph.Yaml.Value.Display
import DesignGraph.Yaml.Value.Number
import DesignGraph.Yaml.Value.Order
import DesignGraph.Proofs.Relation.Reach
import DesignGraph.Proofs.Instance.Apart
import DesignGraph.Proofs.Instance.Walk
import DesignGraph.Proofs.Instance.Copy
import DesignGraph.Proofs.Model.Operation
import DesignGraph.Proofs.Model.Regular
import DesignGraph.Proofs.Model.Typing
import DesignGraph.Proofs.Model.Run
import DesignGraph.Proofs.Instance.Isomorphism
import DesignGraph.Proofs.Instance.Typing
import DesignGraph.Proofs.Instance.Held
import DesignGraph.Proofs.Relation.Memory
import DesignGraph.Proofs.Composition.Order
import DesignGraph.Proofs.Network.Factory
import DesignGraph.Proofs.Entity.Plan
import DesignGraph.Proofs.Entity.Persist
import DesignGraph.Proofs.Entity.Frame
import DesignGraph.Proofs.Entity.Repeat
import DesignGraph.Proofs.Store.Twin
import DesignGraph.Proofs.Store.Reorder
import DesignGraph.Proofs.Instance.Twin
import DesignGraph.Proofs.Network.Twin
import DesignGraph.Proofs.Document.RoundTrip
import DesignGraph.Proofs.Model.Request
import DesignGraph.Proofs.Model.Bootstrap
import DesignGraph.Proofs.Model.Reload
import DesignGraph.Proofs.Instance.Worklist
import DesignGraph.Proofs.Document.Lossless
import DesignGraph.Proofs.Entity.SelfContained
import DesignGraph.Proofs.Entity.Account
import DesignGraph.Proofs.Entity.Reference
import DesignGraph.Proofs.Entity.Wiring
import DesignGraph.Proofs.Entity.Reorder
import DesignGraph.Proofs.Entity.Failure
import DesignGraph.Proofs.Store.Edit
import DesignGraph.Proofs.Model.Edit
import DesignGraph.Proofs.Model.Action
import DesignGraph.Proofs.Relation.Index
import DesignGraph.Proofs.Relation.FactSet
import DesignGraph.Proofs.Model.Monotone
import DesignGraph.Proofs.Text.Utf8
import DesignGraph.Proofs.Yaml.Written
import DesignGraph.Proofs.Storage.Tree
import DesignGraph.Proofs.Storage.Saved
import DesignGraph.Proofs.Command.Effect
import DesignGraph.Proofs.Model.Commute
import DesignGraph.Proofs.Model.Declared
import DesignGraph.Proofs.Model.Lattice
import DesignGraph.Proofs.Storage.Load
import DesignGraph.Proofs.Entity.Schedule
import DesignGraph.Proofs.Identifier
import DesignGraph.Proofs.Entity.Lines
import DesignGraph.Proofs.Entity.Netlist
import DesignGraph.Proofs.Entity.Signals
import DesignGraph.Relation.Closure
import DesignGraph.Proofs.Relation.Closure
import DesignGraph.Proofs.Model.Sift
import DesignGraph.Proofs.Text.LowerCase
import DesignGraph.Proofs.Settings.Search
import DesignGraph.Proofs.Settings.Precedence
import DesignGraph.Proofs.Settings.Failure
import DesignGraph.Proofs.Model.NewClass
import DesignGraph.Proofs.Network.Export
import DesignGraph.Proofs.Instance.Fresh
import DesignGraph.Proofs.Composition.Depth
import DesignGraph.Proofs.Identifier.Form
import DesignGraph.Proofs.Document.Acceptance
import DesignGraph.Proofs.Text.Lines
import DesignGraph.Proofs.Entity.Blocks
import DesignGraph.Proofs.Entity.Unbroken
import DesignGraph.Proofs.Entity.Declarations
import DesignGraph.Proofs.Entity.Assignments
import DesignGraph.Proofs.Store.Numbers
import DesignGraph.Proofs.Model.Numbers
