import ShellLine.Editor.Terminal
import ShellLine.Lex.Reader
import ShellLine.Main
import ShellLine.Proofs.Lex.Canonical
import ShellLine.Proofs.Lex.Tokenize
import ShellLine.Proofs.Lex.Closing
import ShellLine.Proofs.Command.SinglePass
import ShellLine.Proofs.Command.Items
import ShellLine.Proofs.Command.AssignmentStream
import ShellLine.Proofs.Stream.Keys
import ShellLine.Proofs.Stream.Marks
import ShellLine.Proofs.Stream.Runs
import ShellLine.Proofs.Stream.Boundaries
import ShellLine.Proofs.Stream.Conservation
import ShellLine.Proofs.Stream.Soundness
import ShellLine.Proofs.Stream.Buffer
import ShellLine.Proofs.Stream.Delivery
import ShellLine.Proofs.Stream.Agreement
import ShellLine.Proofs.Stream.Partition
import ShellLine.Proofs.Stream.Completion
import ShellLine.Proofs.Stream.TextKeys
import ShellLine.Proofs.Key.Presses
import ShellLine.Proofs.Key.Typed
import ShellLine.Proofs.Text.Lowercase
import ShellLine.Proofs.Key.Chord
import ShellLine.Proofs.Key.Bindings
import ShellLine.Proofs.Key.Reconfigure
import ShellLine.Proofs.Lex.Append
import ShellLine.Proofs.Lex.Cuts
import ShellLine.Proofs.Lex.Places
import ShellLine.Proofs.Line.Typing
import ShellLine.Proofs.Command.Printing
import ShellLine.Proofs.Command.Front
import ShellLine.Proofs.Command.Keys
import ShellLine.Proofs.Command.Errors
import ShellLine.Proofs.Editor.History
import ShellLine.Proofs.Editor.Runs
import ShellLine.Proofs.Editor.Soundness
import ShellLine.Proofs.Editor.Submissions
import ShellLine.Proofs.Line.Neighbours
import ShellLine.Proofs.Line.Zipper
import ShellLine.Proofs.Editor.Browsing
import ShellLine.Proofs.Key.Decode
import ShellLine.Proofs.Editor.Terminal
import ShellLine.Proofs.Editor.Printable
import ShellLine.Proofs.Lex.QuotePairs
import ShellLine.Proofs.Line.Insertion
import ShellLine.Proofs.Line.Backspace
import ShellLine.Proofs.Line.Words
import ShellLine.Proofs.Json.Paths
import ShellLine.Proofs.Json.Merge
import ShellLine.Proofs.Settings.Reading
import ShellLine.Proofs.Json.Nulls
import ShellLine.Proofs.Settings.Precedence
import ShellLine.Proofs.Settings.Building
import ShellLine.Proofs.Text.Columns
import ShellLine.Proofs.Cli.Cursor
import ShellLine.Proofs.Editor.Walk
