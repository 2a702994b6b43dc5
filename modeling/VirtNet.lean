import VirtNet.Address
import VirtNet.Analysis
import VirtNet.Assignment
import VirtNet.Bandwidth
import VirtNet.Binary64.Basic
import VirtNet.Binary64.Shortest
import VirtNet.Binary64.Text
import VirtNet.Command.Arguments
import VirtNet.Command.Mentioned
import VirtNet.Command.Request
import VirtNet.Command.Run
import VirtNet.Design.Basic
import VirtNet.Design.Error
import VirtNet.Design.File
import VirtNet.Design.Record
import VirtNet.Device
import VirtNet.Export
import VirtNet.Files.Path
import VirtNet.Files.Tree
import VirtNet.Journal
import VirtNet.Json.Text
import VirtNet.Main
import VirtNet.Manifest.Attachment
import VirtNet.Manifest.Basic
import VirtNet.Manifest.Claim
import VirtNet.Manifest.Error
import VirtNet.Manifest.Machine
import VirtNet.Naming
import VirtNet.OrderedMap
import VirtNet.Proofs.Address
import VirtNet.Proofs.Address.Network
import VirtNet.Proofs.Address.Quad
import VirtNet.Proofs.Analysis.Coherent
import VirtNet.Proofs.Analysis.Links
import VirtNet.Proofs.Analysis.Members
import VirtNet.Proofs.Analysis.Names
import VirtNet.Proofs.Analysis.Plans
import VirtNet.Proofs.Analysis.Star
import VirtNet.Proofs.Analysis.Subnets
import VirtNet.Proofs.Analysis.Verdict
import VirtNet.Proofs.Assignment.CommonGateway
import VirtNet.Proofs.Assignment.Connection
import VirtNet.Proofs.Assignment.Direction
import VirtNet.Proofs.Assignment.Distinct
import VirtNet.Proofs.Assignment.Drawn
import VirtNet.Proofs.Assignment.Failure
import VirtNet.Proofs.Assignment.Filled
import VirtNet.Proofs.Assignment.Gateway
import VirtNet.Proofs.Assignment.Growth
import VirtNet.Proofs.Assignment.Links
import VirtNet.Proofs.Assignment.Networks
import VirtNet.Proofs.Assignment.Numbering
import VirtNet.Proofs.Assignment.Order
import VirtNet.Proofs.Assignment.Pool
import VirtNet.Proofs.Assignment.Priority
import VirtNet.Proofs.Assignment.Strict
import VirtNet.Proofs.Bandwidth
import VirtNet.Proofs.Command.Arguments
import VirtNet.Proofs.Command.Contained
import VirtNet.Proofs.Command.Status
import VirtNet.Proofs.Command.Validate
import VirtNet.Proofs.Command.Written
import VirtNet.Proofs.Design.Addressing
import VirtNet.Proofs.Design.Listing
import VirtNet.Proofs.Design.Loading
import VirtNet.Proofs.Design.Nulls
import VirtNet.Proofs.Design.Record
import VirtNet.Proofs.Export.Complete
import VirtNet.Proofs.Export.Control
import VirtNet.Proofs.Export.Names
import VirtNet.Proofs.Export.Staged
import VirtNet.Proofs.Export.Stream
import VirtNet.Proofs.Files.Path
import VirtNet.Proofs.Files.Tree
import VirtNet.Proofs.Journal
import VirtNet.Proofs.Machine.Accounts
import VirtNet.Proofs.Machine.Cards
import VirtNet.Proofs.Machine.Routes
import VirtNet.Proofs.Manifest
import VirtNet.Proofs.Manifest.Bridges
import VirtNet.Proofs.Manifest.Comment
import VirtNet.Proofs.Manifest.Document
import VirtNet.Proofs.Naming
import VirtNet.Proofs.Naming.Label
import VirtNet.Proofs.Naming.Resource
import VirtNet.Proofs.OrderedMap
import VirtNet.Proofs.Quantity
import VirtNet.Proofs.Quantity.Agreement
import VirtNet.Proofs.Quantity.Reading
import VirtNet.Proofs.Registry.Acceptance
import VirtNet.Proofs.Registry.Additions
import VirtNet.Proofs.Registry.Addressing
import VirtNet.Proofs.Registry.Induction
import VirtNet.Proofs.Registry.Peers
import VirtNet.Proofs.Registry.Removal
import VirtNet.Proofs.Registry.Tidy
import VirtNet.Proofs.Registry.WellFormed
import VirtNet.Proofs.Segment
import VirtNet.Proofs.Settings.Checks
import VirtNet.Proofs.Settings.Document
import VirtNet.Proofs.Settings.References
import VirtNet.Proofs.Settings.Secrets
import VirtNet.Proofs.Text.Control
import VirtNet.Proofs.Text.Lines
import VirtNet.Proofs.Text.Numeral
import VirtNet.Proofs.Text.Split
import VirtNet.Proofs.Text.Trim
import VirtNet.Proofs.Value.Induction
import VirtNet.Proofs.Value.Lightened
import VirtNet.Proofs.Value.Text
import VirtNet.Proofs.Value.Writable
import VirtNet.Proofs.Yaml.Anchor
import VirtNet.Proofs.Yaml.Ends
import VirtNet.Proofs.Yaml.Escapes
import VirtNet.Proofs.Yaml.Faults
import VirtNet.Proofs.Yaml.Inline
import VirtNet.Proofs.Yaml.Marks
import VirtNet.Proofs.Yaml.Read.Cursor
import VirtNet.Proofs.Yaml.Read.Layout
import VirtNet.Proofs.Yaml.Read.Leaf
import VirtNet.Proofs.Yaml.Read.Lexer
import VirtNet.Proofs.Yaml.Read.Literal
import VirtNet.Proofs.Yaml.Read.Nodes
import VirtNet.Proofs.Yaml.Read.Plain
import VirtNet.Proofs.Yaml.Read.PlainForm
import VirtNet.Proofs.Yaml.Read.Quoted
import VirtNet.Proofs.Yaml.Read.Scalar
import VirtNet.Proofs.Yaml.Read.Shapes
import VirtNet.Proofs.Yaml.Read.Shown
import VirtNet.Proofs.Yaml.Read.Tokens
import VirtNet.Proofs.Yaml.Read.Unfold
import VirtNet.Proofs.Yaml.RoundTrip
import VirtNet.Quantity
import VirtNet.Registry.Basic
import VirtNet.Registry.Error
import VirtNet.Registry.History
import VirtNet.Report
import VirtNet.Segment
import VirtNet.Settings.Basic
import VirtNet.Settings.Document
import VirtNet.Settings.Error
import VirtNet.Settings.File
import VirtNet.Settings.Secrets
import VirtNet.Text.Base64
import VirtNet.Text.Blank
import VirtNet.Text.Control
import VirtNet.Text.Digit
import VirtNet.Text.Numeral
import VirtNet.Text.Printable
import VirtNet.Text.Quoted
import VirtNet.Text.Split
import VirtNet.UserData
import VirtNet.Value.Basic
import VirtNet.Value.Moment
import VirtNet.Value.Text
import VirtNet.Yaml.Anchor
import VirtNet.Yaml.Break
import VirtNet.Yaml.Cursor
import VirtNet.Yaml.Fault
import VirtNet.Yaml.Graph
import VirtNet.Yaml.Graph.Shape
import VirtNet.Yaml.Graph.Value
import VirtNet.Yaml.Node
import VirtNet.Yaml.Node.Scalar
import VirtNet.Yaml.Reader
import VirtNet.Yaml.Scalar
import VirtNet.Yaml.Tag
import VirtNet.Yaml.Token
import VirtNet.Yaml.Token.Block
import VirtNet.Yaml.Token.Lexer
import VirtNet.Yaml.Token.Plain
import VirtNet.Yaml.Token.Property
import VirtNet.Yaml.Token.Quoted
import VirtNet.Yaml.Writer
