import ColourPipeline.Bytes
import ColourPipeline.Cache.Entity
import ColourPipeline.Cache.Key
import ColourPipeline.Cache.Store
import ColourPipeline.Config
import ColourPipeline.Connector
import ColourPipeline.Decimal.Binary
import ColourPipeline.Decimal.Digits
import ColourPipeline.Decimal.Shortest
import ColourPipeline.Decimal.Style
import ColourPipeline.Defaults.Layer
import ColourPipeline.Defaults.Source
import ColourPipeline.Digest.Sha256
import ColourPipeline.Envelope
import ColourPipeline.Error
import ColourPipeline.Exact.Reader
import ColourPipeline.Exact.Writer
import ColourPipeline.Gain
import ColourPipeline.Graph.Connection
import ColourPipeline.Graph.Conversion
import ColourPipeline.Graph.Liveness
import ColourPipeline.Graph.Network
import ColourPipeline.Graph.Search
import ColourPipeline.Graph.Walk
import ColourPipeline.Host
import ColourPipeline.Image.Array
import ColourPipeline.Image.Basic
import ColourPipeline.Image.Decoded
import ColourPipeline.Image.Layout
import ColourPipeline.Image.Png
import ColourPipeline.Image.Png.Chunk
import ColourPipeline.Image.Png.Colours
import ColourPipeline.Image.Png.Data
import ColourPipeline.Image.Samples
import ColourPipeline.Json.Basic
import ColourPipeline.Json.Number
import ColourPipeline.Json.Reader
import ColourPipeline.Json.Record
import ColourPipeline.Json.Writer
import ColourPipeline.Kind
import ColourPipeline.Options.Entry
import ColourPipeline.Options.Json
import ColourPipeline.Options.Set
import ColourPipeline.Options.Value
import ColourPipeline.Policy.Change
import ColourPipeline.Policy.Correction
import ColourPipeline.Policy.Declared
import ColourPipeline.Policy.Text
import ColourPipeline.Policy.Validation
import ColourPipeline.Profile
import ColourPipeline.Proofs.Decimal.Rounding
import ColourPipeline.Proofs.Decimal.Shortest
import ColourPipeline.Proofs.Json.Numeral
import ColourPipeline.Proofs.Json.Writer
import ColourPipeline.Provider.Builtin
import ColourPipeline.Provider.Filter
import ColourPipeline.Provider.Registry
import ColourPipeline.Pull.Counts
import ColourPipeline.Pull.Pipeline
import ColourPipeline.Pull.Render
import ColourPipeline.Pull.Service
import ColourPipeline.Region
import ColourPipeline.Registration
import ColourPipeline.Registration.Json
import ColourPipeline.Session.State
import ColourPipeline.Source
import ColourPipeline.Table
import ColourPipeline.Tag
import ColourPipeline.Text.Blank
import ColourPipeline.Text.Hex
import ColourPipeline.Ticket
import ColourPipeline.Width
import ColourPipeline.Proofs.Options.Alike
import ColourPipeline.Proofs.Gain
import ColourPipeline.Proofs.Options.Key
import ColourPipeline.Proofs.Cache.Gains
import ColourPipeline.Proofs.Pull.Memo
import ColourPipeline.Proofs.Pull.Run
import ColourPipeline.Proofs.Graph.Search
import ColourPipeline.Proofs.Graph.Consistent
import ColourPipeline.Proofs.Graph.Connection
import ColourPipeline.Proofs.Graph.Liveness
import ColourPipeline.Proofs.Pull.Exact
import ColourPipeline.Proofs.Graph.Options
import ColourPipeline.Proofs.Options.Set
import ColourPipeline.Proofs.Registration
import ColourPipeline.Proofs.Policy.Change
import ColourPipeline.Proofs.Policy.Repeat
import ColourPipeline.Proofs.Policy.Extent
import ColourPipeline.Proofs.Graph.Distance
import ColourPipeline.Proofs.Policy.Governed
import ColourPipeline.Proofs.Pull.Conversion
import ColourPipeline.Proofs.Pull.Interleave
import ColourPipeline.Proofs.Ticket
import ColourPipeline.Proofs.Pull.Delivery
import ColourPipeline.Proofs.Options.Unique
import ColourPipeline.Proofs.Json.Reader
import ColourPipeline.Proofs.Options.Json
import ColourPipeline.Proofs.Graph.Tidy
import ColourPipeline.Proofs.Graph.Ledger
import ColourPipeline.Proofs.Graph.Release
import ColourPipeline.Proofs.Cache.Slots
import ColourPipeline.Proofs.Cache.Lending
import ColourPipeline.Proofs.Graph.Freed
import ColourPipeline.Proofs.Pull.Runs
import ColourPipeline.Proofs.Pull.Tally
import ColourPipeline.Proofs.Pull.Custody
import ColourPipeline.Proofs.Pull.Drawn
import ColourPipeline.Proofs.Cache.Tends
import ColourPipeline.Proofs.Pull.Tends
import ColourPipeline.Proofs.Host.Load
import ColourPipeline.Proofs.Work
import ColourPipeline.Proofs.Image.Array
import ColourPipeline.Proofs.Policy.Validation
import ColourPipeline.Proofs.Host.Correct
import ColourPipeline.Proofs.Ticket.Failure
import ColourPipeline.Proofs.Ticket.Sweep
import ColourPipeline.Proofs.Graph.Walk
import ColourPipeline.Proofs.Options.Collect
import ColourPipeline.Proofs.Defaults.Query
import ColourPipeline.Proofs.Pull.Chain
import ColourPipeline.Proofs.Pull.Passes
import ColourPipeline.Proofs.Image.Fill
import ColourPipeline.Proofs.Options.Ordered
import ColourPipeline.Proofs.Policy.Effective
import ColourPipeline.Proofs.Profile
import ColourPipeline.Proofs.Host.Refused
import ColourPipeline.Proofs.Selection
import ColourPipeline.Proofs.Tag
import ColourPipeline.Proofs.Defaults.Written
import ColourPipeline.Proofs.Joined
import ColourPipeline.Proofs.Connector
import ColourPipeline.Proofs.Ticket.Onward
import ColourPipeline.Work
