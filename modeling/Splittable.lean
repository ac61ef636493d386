import Splittable.Command.Arguments
import Splittable.Command.Invocation
import Splittable.Command.Plan
import Splittable.Command.Run
import Splittable.Context
import Splittable.Decimal.Shortest
import Splittable.Encoding
import Splittable.Fault
import Splittable.FileSystem.Basic
import Splittable.FileSystem.OpenFile
import Splittable.FileSystem.Path
import Splittable.FileSystem.Walk
import Splittable.Flags
import Splittable.Json.Basic
import Splittable.Json.Printer
import Splittable.Json.Reader
import Splittable.Library
import Splittable.LineText.Cursor
import Splittable.LineText.Delimiter
import Splittable.LineText.Format
import Splittable.Main
import Splittable.Pool.Basic
import Splittable.Pool.Read
import Splittable.Pool.State
import Splittable.Pool.Worker
import Splittable.Proofs.Command.Assignments
import Splittable.Proofs.Command.Plan
import Splittable.Proofs.Command.Settings
import Splittable.Proofs.Encoding
import Splittable.Proofs.Encoding.Stream
import Splittable.Proofs.FileSystem.Grown
import Splittable.Proofs.FileSystem.Path
import Splittable.Proofs.FileSystem.Survey
import Splittable.Proofs.FileSystem.Tree
import Splittable.Proofs.FileSystem.Unseen
import Splittable.Proofs.FileSystem.Walk
import Splittable.Proofs.Flags
import Splittable.Proofs.Flags.Family
import Splittable.Proofs.Flags.Raised
import Splittable.Proofs.Json.Fields
import Splittable.Proofs.Json.OneLine
import Splittable.Proofs.LineText.Answers
import Splittable.Proofs.LineText.Calls
import Splittable.Proofs.LineText.Characters
import Splittable.Proofs.LineText.Decodable
import Splittable.Proofs.LineText.Lines
import Splittable.Proofs.LineText.Lossless
import Splittable.Proofs.LineText.Partition
import Splittable.Proofs.LineText.Pieces
import Splittable.Proofs.LineText.Position
import Splittable.Proofs.LineText.Ranges
import Splittable.Proofs.LineText.Reading
import Splittable.Proofs.LineText.Scan
import Splittable.Proofs.Pool.Complete
import Splittable.Proofs.Pool.Ends
import Splittable.Proofs.Pool.Errors
import Splittable.Proofs.Pool.Failure
import Splittable.Proofs.Pool.Flags
import Splittable.Proofs.Pool.Ledger
import Splittable.Proofs.Pool.Moves
import Splittable.Proofs.Pool.Refusal
import Splittable.Proofs.Pool.Run
import Splittable.Proofs.Ratio.Rational
import Splittable.Proofs.Reader.Ahead
import Splittable.Proofs.Reader.Calls
import Splittable.Proofs.Reader.Candid
import Splittable.Proofs.Reader.Cursors
import Splittable.Proofs.Reader.Finished
import Splittable.Proofs.Reader.Fraction
import Splittable.Proofs.Reader.Likeness
import Splittable.Proofs.Reader.Phases
import Splittable.Proofs.Reader.Points
import Splittable.Proofs.Reader.Quiet
import Splittable.Proofs.Reader.Reading
import Splittable.Proofs.Reader.Script
import Splittable.Proofs.Reader.Searched
import Splittable.Proofs.Reader.Traced
import Splittable.Proofs.Resource.Glob
import Splittable.Proofs.Resource.Hidden
import Splittable.Proofs.Resource.Listing
import Splittable.Proofs.Resource.Literal
import Splittable.Proofs.Resource.Scheme
import Splittable.Proofs.Resource.Separator
import Splittable.Proofs.Settings.File
import Splittable.Proofs.Settings.Layers
import Splittable.Proofs.Source.Bundles
import Splittable.Proofs.Source.EverySplit
import Splittable.Proofs.Source.Shipped
import Splittable.Proofs.Source.Shipping
import Splittable.Proofs.Source.Size
import Splittable.Proofs.Split.Carved
import Splittable.Proofs.Split.Decoding
import Splittable.Proofs.Split.Order
import Splittable.Proofs.Split.Payload
import Splittable.Proofs.Split.Tiles
import Splittable.Random.ChaCha
import Splittable.Random.Shuffle
import Splittable.Ratio
import Splittable.Reader
import Splittable.Record
import Splittable.Resource.Glob
import Splittable.Resource.Listing
import Splittable.Resource.Scheme
import Splittable.Settings.Basic
import Splittable.Settings.DotEnv
import Splittable.Settings.File
import Splittable.Settings.Resolve
import Splittable.Source.Basic
import Splittable.Source.Plan
import Splittable.SourceError
import Splittable.Split.Carve
import Splittable.Split.Descriptor
import Splittable.Split.FileSplit
import Splittable.Split.Handle
import Splittable.Split.Order
import Splittable.Table
import Splittable.Text.Alphanumeric
import Splittable.Text.Blank
import Splittable.Text.Numeral
import Splittable.Text.Printable
import Splittable.Text.Quoted
import Splittable.Text.Utf8
import Splittable.Toml.Document
import Splittable.Toml.Lexeme
import Splittable.Toml.Moment
import Splittable.Toml.Value
import Splittable.Word.BigEndian
import Splittable.Word.Sum
import Splittable.World
