import TaggedUnion.Command.Options
import TaggedUnion.Command.Report
import TaggedUnion.Command.Run
import TaggedUnion.Declaration.Boxing
import TaggedUnion.Declaration.Module
import TaggedUnion.Diagnostic
import TaggedUnion.Fault
import TaggedUnion.FileSystem
import TaggedUnion.FileTree.Access
import TaggedUnion.FileTree.Basic
import TaggedUnion.FileTree.Saving
import TaggedUnion.Line.Grammar
import TaggedUnion.Line.Piece
import TaggedUnion.Line.Scanner
import TaggedUnion.Line.Token
import TaggedUnion.Line.Variant
import TaggedUnion.Line.Word
import TaggedUnion.Log.Event
import TaggedUnion.Log.Level
import TaggedUnion.Main
import TaggedUnion.Path
import TaggedUnion.Schema.Basic
import TaggedUnion.Schema.Builtin
import TaggedUnion.Schema.Loading
import TaggedUnion.Text.Bytes
import TaggedUnion.Text.Lines
import TaggedUnion.Text.Quoted
import TaggedUnion.Text.Search
import TaggedUnion.Unicode.Alphabetic
import TaggedUnion.Unicode.Cased
import TaggedUnion.Unicode.DefaultIgnorable
import TaggedUnion.Unicode.ExtendingMark
import TaggedUnion.Unicode.Lowercase
import TaggedUnion.Unicode.Numeric
import TaggedUnion.Unicode.Ranges
import TaggedUnion.Unicode.WhiteSpace
import TaggedUnion.Proofs.CharacterClasses
import TaggedUnion.Proofs.Line.Cutting
import TaggedUnion.Proofs.Line.Scanning
import TaggedUnion.Proofs.Line.Brackets
import TaggedUnion.Proofs.Line.FieldReading
import TaggedUnion.Proofs.Line.Positions
import TaggedUnion.Proofs.Line.Layout
import TaggedUnion.Proofs.Schema.Acceptance
import TaggedUnion.Proofs.Text.Lines
import TaggedUnion.Proofs.Text.LineEnds
import TaggedUnion.Proofs.Declaration.Boxing
import TaggedUnion.Proofs.Declaration.Rereading
import TaggedUnion.Proofs.Declaration.StoredTokens
import TaggedUnion.Proofs.Line.Stages
import TaggedUnion.Proofs.Line.EarliestFault
import TaggedUnion.Proofs.Line.Renumbering
import TaggedUnion.Proofs.FileTree.Entries
import TaggedUnion.Proofs.FileTree.Saving
import TaggedUnion.Proofs.Schema.SourceLines
import TaggedUnion.Proofs.Schema.FaultPlaces
import TaggedUnion.Proofs.Command.Modes
import TaggedUnion.Proofs.Command.Checking
import TaggedUnion.Proofs.Command.Reports
import TaggedUnion.Proofs.Command.Sessions
import TaggedUnion.Proofs.Line.Splitting
import TaggedUnion.Proofs.Schema.Names
import TaggedUnion.Proofs.Declaration.Closing
import TaggedUnion.Proofs.FileTree.Atomicity
import TaggedUnion.Proofs.Line.Spacing
import TaggedUnion.Proofs.Line.FieldExits
import TaggedUnion.Proofs.Declaration.Replay
import TaggedUnion.Proofs.Command.Containment
import TaggedUnion.Proofs.Command.Guarded
import TaggedUnion.Proofs.Command.Log
