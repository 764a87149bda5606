import ParallelGzip.Bytes
import ParallelGzip.Checksum
import ParallelGzip.Checksum.Combine
import ParallelGzip.Compressor
import ParallelGzip.Compressor.Scripted
import ParallelGzip.Deflate.Bits
import ParallelGzip.Deflate.Block
import ParallelGzip.Deflate.Code
import ParallelGzip.Deflate.Defect
import ParallelGzip.Deflate.Dynamic
import ParallelGzip.Deflate.Encode
import ParallelGzip.Deflate.Huffman
import ParallelGzip.Deflate.Inflate
import ParallelGzip.Deflate.Match
import ParallelGzip.Deflate.Store
import ParallelGzip.Deflate.Stream
import ParallelGzip.Deflate.Symbol
import ParallelGzip.Deflate.Words
import ParallelGzip.Encoder
import ParallelGzip.Error
import ParallelGzip.Files
import ParallelGzip.Files.Handle
import ParallelGzip.Input
import ParallelGzip.Member.Decoder
import ParallelGzip.Member.Frame
import ParallelGzip.Member.Header
import ParallelGzip.Members
import ParallelGzip.OpenMode
import ParallelGzip.Options
import ParallelGzip.Output
import ParallelGzip.Pipeline.Basic
import ParallelGzip.Pipeline.Measure
import ParallelGzip.Pipeline.Progress
import ParallelGzip.Pipeline.Run
import ParallelGzip.Pipeline.Step
import ParallelGzip.Proofs.Aftermath
import ParallelGzip.Proofs.Agreement
import ParallelGzip.Proofs.Chain
import ParallelGzip.Proofs.Checksum.Blocks
import ParallelGzip.Proofs.Checksum.Combine
import ParallelGzip.Proofs.Checksum.Regrouping
import ParallelGzip.Proofs.Compressor
import ParallelGzip.Proofs.Contract
import ParallelGzip.Proofs.Crossing
import ParallelGzip.Proofs.Custody
import ParallelGzip.Proofs.CutOff
import ParallelGzip.Proofs.Damage
import ParallelGzip.Proofs.Deflate.Bits
import ParallelGzip.Proofs.Deflate.Code
import ParallelGzip.Proofs.Deflate.Drain
import ParallelGzip.Proofs.Deflate.Dynamic
import ParallelGzip.Proofs.Deflate.Encode
import ParallelGzip.Proofs.Deflate.Grammar
import ParallelGzip.Proofs.Deflate.Inflate
import ParallelGzip.Proofs.Deflate.Match
import ParallelGzip.Proofs.Deflate.Open
import ParallelGzip.Proofs.Deflate.Store
import ParallelGzip.Proofs.Deflate.Stream
import ParallelGzip.Proofs.Deflate.Symbol
import ParallelGzip.Proofs.Destination
import ParallelGzip.Proofs.Encoder
import ParallelGzip.Proofs.Faults
import ParallelGzip.Proofs.Files
import ParallelGzip.Proofs.Language
import ParallelGzip.Proofs.LettingGo
import ParallelGzip.Proofs.Member.Decoder
import ParallelGzip.Proofs.Member.Grammar
import ParallelGzip.Proofs.Member.Prospect
import ParallelGzip.Proofs.Members
import ParallelGzip.Proofs.Nesting
import ParallelGzip.Proofs.OpenMode
import ParallelGzip.Proofs.Opening
import ParallelGzip.Proofs.Output
import ParallelGzip.Proofs.Ownership
import ParallelGzip.Proofs.Parting
import ParallelGzip.Proofs.Pipeline.Alarm
import ParallelGzip.Proofs.Pipeline.Answers
import ParallelGzip.Proofs.Pipeline.Barrier
import ParallelGzip.Proofs.Pipeline.Blocks
import ParallelGzip.Proofs.Pipeline.Calls
import ParallelGzip.Proofs.Pipeline.Closed
import ParallelGzip.Proofs.Pipeline.Contents
import ParallelGzip.Proofs.Pipeline.Exits
import ParallelGzip.Proofs.Pipeline.Failures
import ParallelGzip.Proofs.Pipeline.Flight
import ParallelGzip.Proofs.Pipeline.History
import ParallelGzip.Proofs.Pipeline.Linked
import ParallelGzip.Proofs.Pipeline.Liveness
import ParallelGzip.Proofs.Pipeline.Moves
import ParallelGzip.Proofs.Pipeline.Order
import ParallelGzip.Proofs.Pipeline.Program
import ParallelGzip.Proofs.Pipeline.Progress
import ParallelGzip.Proofs.Pipeline.Replay
import ParallelGzip.Proofs.Pipeline.Settle
import ParallelGzip.Proofs.Pipeline.Slot
import ParallelGzip.Proofs.Pipeline.Submitting
import ParallelGzip.Proofs.Pipeline.Turns
import ParallelGzip.Proofs.Reader.Closing
import ParallelGzip.Proofs.Reader.Endless
import ParallelGzip.Proofs.Reader.Moves
import ParallelGzip.Proofs.Reader.Outlook
import ParallelGzip.Proofs.Reader.Session
import ParallelGzip.Proofs.Refusals
import ParallelGzip.Proofs.Requests
import ParallelGzip.Proofs.Room
import ParallelGzip.Proofs.RoundTrip
import ParallelGzip.Proofs.Schedules
import ParallelGzip.Proofs.Segmentation
import ParallelGzip.Proofs.Sessions
import ParallelGzip.Proofs.Stitched
import ParallelGzip.Proofs.Stream.Alike
import ParallelGzip.Proofs.Stream.Calm
import ParallelGzip.Proofs.Stream.Deeds
import ParallelGzip.Proofs.Stream.Failing
import ParallelGzip.Proofs.Stream.Muted
import ParallelGzip.Proofs.Stream.Reads
import ParallelGzip.Proofs.Stream.RecordingSink
import ParallelGzip.Proofs.Stream.Serves
import ParallelGzip.Proofs.Stream.Unfailing
import ParallelGzip.Proofs.Tells
import ParallelGzip.Proofs.Threads
import ParallelGzip.Proofs.Trailers
import ParallelGzip.Proofs.Truncation
import ParallelGzip.Proofs.Verdict
import ParallelGzip.Proofs.WholeMembers
import ParallelGzip.Reader.Basic
import ParallelGzip.Reader.Run
import ParallelGzip.Reader.Step
import ParallelGzip.Stream.Buffered
import ParallelGzip.Stream.BufferedSink
import ParallelGzip.Stream.Parse
import ParallelGzip.Stream.Parser
import ParallelGzip.Stream.Scripted
import ParallelGzip.Stream.Sink
import ParallelGzip.Stream.Source
import ParallelGzip.Text.Blank
import ParallelGzip.Text.Printable
import ParallelGzip.Text.Quoted
import ParallelGzip.Writer
