import GraphCodec.Assoc
import GraphCodec.Cli.Arguments
import GraphCodec.Cli.Run
import GraphCodec.Codec.Basic
import GraphCodec.Codec.Groups
import GraphCodec.Codec.Printer
import GraphCodec.CodecModule
import GraphCodec.Config
import GraphCodec.Document.Basic
import GraphCodec.Document.Merged
import GraphCodec.Document.Reader
import GraphCodec.Document.Token
import GraphCodec.Error
import GraphCodec.Files.Entry
import GraphCodec.Files.Sources
import GraphCodec.Formatter.Bytes
import GraphCodec.Formatter.Copy
import GraphCodec.Formatter.Count
import GraphCodec.Formatter.Decimal
import GraphCodec.Formatter.Desk
import GraphCodec.Formatter.Edit.Editor
import GraphCodec.Formatter.Edit.Listing
import GraphCodec.Formatter.Edit.Reader
import GraphCodec.Formatter.Edit.Run
import GraphCodec.Formatter.Edit.Script
import GraphCodec.Formatter.Edit.State
import GraphCodec.Formatter.Exchange
import GraphCodec.Formatter.Letters
import GraphCodec.Formatter.Machine
import GraphCodec.Formatter.Manual
import GraphCodec.Formatter.Options
import GraphCodec.Formatter.Outcome
import GraphCodec.Formatter.Pattern.Automaton
import GraphCodec.Formatter.Pattern.Basic
import GraphCodec.Formatter.Pattern.Reader
import GraphCodec.Formatter.Pattern.Reference
import GraphCodec.Formatter.Pattern.Search
import GraphCodec.Formatter.Pattern.Sieve
import GraphCodec.Formatter.Pattern.Tracks
import GraphCodec.Formatter.Print
import GraphCodec.Formatter.Programs
import GraphCodec.Formatter.Quoting
import GraphCodec.Formatter.Shell.Arithmetic
import GraphCodec.Formatter.Shell.Builtin
import GraphCodec.Formatter.Shell.Builtin.Basic
import GraphCodec.Formatter.Shell.Builtin.Course
import GraphCodec.Formatter.Shell.Builtin.Limits
import GraphCodec.Formatter.Shell.Builtin.Parameters
import GraphCodec.Formatter.Shell.Builtin.Surroundings
import GraphCodec.Formatter.Shell.Builtin.Writing
import GraphCodec.Formatter.Shell.Expand
import GraphCodec.Formatter.Shell.Glob
import GraphCodec.Formatter.Shell.Lookup
import GraphCodec.Formatter.Shell.Reader
import GraphCodec.Formatter.Shell.Run
import GraphCodec.Formatter.Shell.Script
import GraphCodec.Formatter.Shell.Session
import GraphCodec.Formatter.Shell.Signal
import GraphCodec.Formatter.Shell.Test
import GraphCodec.Generator
import GraphCodec.Hook
import GraphCodec.Log
import GraphCodec.Main
import GraphCodec.Operation.Selection
import GraphCodec.Operation.Variables
import GraphCodec.Proofs.Arity
import GraphCodec.Proofs.Caching
import GraphCodec.Proofs.CodecReader
import GraphCodec.Proofs.Coherence
import GraphCodec.Proofs.Commands
import GraphCodec.Proofs.Compiler
import GraphCodec.Proofs.Coverage
import GraphCodec.Proofs.Erasure
import GraphCodec.Proofs.Exports
import GraphCodec.Proofs.Faults
import GraphCodec.Proofs.Grouping
import GraphCodec.Proofs.Growth
import GraphCodec.Proofs.Inputs
import GraphCodec.Proofs.Layout
import GraphCodec.Proofs.Legible
import GraphCodec.Proofs.Listing
import GraphCodec.Proofs.Making
import GraphCodec.Proofs.Modes
import GraphCodec.Proofs.Narrowing
import GraphCodec.Proofs.Order
import GraphCodec.Proofs.Paths
import GraphCodec.Proofs.Picks
import GraphCodec.Proofs.Pieces
import GraphCodec.Proofs.Rearranged
import GraphCodec.Proofs.Redefinition
import GraphCodec.Proofs.References
import GraphCodec.Proofs.Runs
import GraphCodec.Proofs.Schema
import GraphCodec.Proofs.Selection
import GraphCodec.Proofs.Shuffled
import GraphCodec.Proofs.Signatures
import GraphCodec.Proofs.Size
import GraphCodec.Proofs.Traversal
import GraphCodec.Proofs.Trees
import GraphCodec.Proofs.Unseen
import GraphCodec.Proofs.Wrappers
import GraphCodec.Proofs.Writing
import GraphCodec.Schema.Compiler
import GraphCodec.Schema.Order
import GraphCodec.Schema.Table
import GraphCodec.Session
import GraphCodec.Template
import GraphCodec.Text.Blank
import GraphCodec.Text.Decoding
import GraphCodec.Text.Lines
import GraphCodec.Text.Lowercase
import GraphCodec.Text.Printable
import GraphCodec.Text.Quoted
import GraphCodec.Text.Signs
import GraphCodec.Text.Similar
import GraphCodec.Text.Uppercase
import GraphCodec.Text.Width
import GraphCodec.Text.Words
