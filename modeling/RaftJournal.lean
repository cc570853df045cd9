import RaftJournal.Bytes.Crc32
import RaftJournal.Bytes.Word
import RaftJournal.Command.Arguments
import RaftJournal.Command.Generate
import RaftJournal.Command.Outcome
import RaftJournal.Command.Replay
import RaftJournal.Entry.Basic
import RaftJournal.Entry.Body
import RaftJournal.Entry.Codec
import RaftJournal.Entry.Kind
import RaftJournal.Error
import RaftJournal.Json.Fault
import RaftJournal.Json.Format
import RaftJournal.Json.Numeral
import RaftJournal.Json.Quotation
import RaftJournal.Json.Record
import RaftJournal.Json.Skip
import RaftJournal.Json.Token
import RaftJournal.Layout
import RaftJournal.Main
import RaftJournal.Packed.Fault
import RaftJournal.Packed.Format
import RaftJournal.Packed.Varint
import RaftJournal.Segment.Directory
import RaftJournal.Segment.Name
import RaftJournal.Segment.Reader
import RaftJournal.Segment.Record
import RaftJournal.Storage.Content
import RaftJournal.Storage.FileTree
import RaftJournal.Storage.Path
import RaftJournal.Stream.Config
import RaftJournal.Stream.Disruptor
import RaftJournal.Stream.Journal
import RaftJournal.Stream.Layered
import RaftJournal.Stream.Rank
import RaftJournal.Stream.Record
import RaftJournal.Stream.Source
import RaftJournal.Text.Blank
import RaftJournal.Text.Decimal
import RaftJournal.Text.Parts
import RaftJournal.Text.Quoted
import RaftJournal.Text.Unshown
import RaftJournal.Text.Utf8
import RaftJournal.Uuid
import RaftJournal.Wire
import RaftJournal.Writer.Basic
import RaftJournal.Writer.Config
import RaftJournal.Proofs.Answers
import RaftJournal.Proofs.Counters
import RaftJournal.Proofs.Stream.Batches
import RaftJournal.Proofs.Stream.Ranges
import RaftJournal.Proofs.Stream.Reordering
import RaftJournal.Proofs.Stream.Sources
import RaftJournal.Proofs.Stream.Tallies
import RaftJournal.Proofs.Segment.Framing
import RaftJournal.Proofs.Segment.Reading
import RaftJournal.Proofs.Segment.Listing
import RaftJournal.Proofs.Segment.Names
import RaftJournal.Proofs.Storage.Files
import RaftJournal.Proofs.Stream.Entries
import RaftJournal.Proofs.Stream.Trace
import RaftJournal.Proofs.Writer.Agreement
import RaftJournal.Proofs.Writer.Readable
import RaftJournal.Proofs.Entry.Wires
import RaftJournal.Proofs.Writer.Entries
import RaftJournal.Proofs.Writer.RoundTrip
import RaftJournal.Proofs.Writer.Losses
import RaftJournal.Proofs.Writer.Draining
import RaftJournal.Proofs.Bytes.Bursts
import RaftJournal.Proofs.Segment.Damage
import RaftJournal.Proofs.Writer.Tiling
import RaftJournal.Proofs.Segment.Truncation
import RaftJournal.Proofs.Stream.Rounds
import RaftJournal.Proofs.Stream.Conservation
import RaftJournal.Proofs.Stream.Fusing
import RaftJournal.Proofs.Writer.Numbering
import RaftJournal.Proofs.Stream.Ordering
import RaftJournal.Proofs.Stream.Pruning
import RaftJournal.Proofs.Writer.Windows
import RaftJournal.Proofs.Stream.Displacement
import RaftJournal.Proofs.Storage.Changes
import RaftJournal.Proofs.Writer.Confinement
import RaftJournal.Proofs.Command.Copying
import RaftJournal.Proofs.Command.Lines
import RaftJournal.Proofs.Stream.Settled
import RaftJournal.Proofs.Command.Outputs
import RaftJournal.Proofs.Writer.Packing
import RaftJournal.Proofs.Writer.Grants
import RaftJournal.Proofs.Command.Rewriting
import RaftJournal.Proofs.Writer.Bare
import RaftJournal.Proofs.Stream.Statistics
import RaftJournal.Proofs.Writer.Summaries
import RaftJournal.Proofs.Segment.Membership
import RaftJournal.Proofs.Writer.Mapping
import RaftJournal.Proofs.Json.Spellings
import RaftJournal.Proofs.Entry.Lenience
import RaftJournal.Proofs.Writer.Batching
import RaftJournal.Proofs.Entry.Selection
import RaftJournal.Proofs.Stream.Rejection
import RaftJournal.Proofs.Stream.Balance
import RaftJournal.Proofs.Segment.Positions
import RaftJournal.Proofs.Stream.Turns
import RaftJournal.Proofs.Command.Options
import RaftJournal.Proofs.Stream.Layers
