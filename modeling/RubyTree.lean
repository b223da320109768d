import RubyTree.CommandLine
import RubyTree.Event.Encode
import RubyTree.Main
import RubyTree.Proofs.Heredoc.Placement
import RubyTree.Proofs.Outcome
import RubyTree.Proofs.Replay.Run
import RubyTree.Proofs.Replay.References
import RubyTree.Proofs.Dispatch
import RubyTree.Proofs.Literal.Written
import RubyTree.Proofs.Literal.Stack
import RubyTree.Proofs.Literal.Nesting
import RubyTree.Proofs.Literal.Command
import RubyTree.Proofs.Literal.Tokens
import RubyTree.Proofs.Memory.Effect
import RubyTree.Proofs.Memory.History
import RubyTree.Proofs.Dump.Reading
import RubyTree.Proofs.Dump.Comparison
import RubyTree.Proofs.Json.Leaves
import RubyTree.Proofs.Json.Written
import RubyTree.Proofs.Stream.RoundTrip
import RubyTree.Proofs.TwoRuns.Rules
import RubyTree.Proofs.TwoRuns.Run
import RubyTree.Proofs.TwoRuns.Shift
import RubyTree.Proofs.TwoRuns.Insertion
import RubyTree.Proofs.TwoRuns.Diagnostics
import RubyTree.Proofs.Heredoc.Landing
import RubyTree.Proofs.Heredoc.Rebuild
import RubyTree.Proofs.Heredoc.Frame
import RubyTree.Proofs.Memory.Operand
import RubyTree.Proofs.Parameters.Shapes
import RubyTree.Proofs.Weight.Count
import RubyTree.Proofs.Literal.Portions
import RubyTree.Proofs.Heredoc.Payload
import RubyTree.Proofs.Suite.Agreement
import RubyTree.Proofs.Pattern.Alternatives
import RubyTree.Proofs.Clause.Order
import RubyTree.Proofs.Memory.Pattern
import RubyTree.Proofs.Memory.Group
import RubyTree.Proofs.Assignment.Targets
import RubyTree.Proofs.Call.Arguments
import RubyTree.Proofs.Literal.Numeral
import RubyTree.Proofs.Stream.Lines
import RubyTree.Proofs.Diff.Printed
import RubyTree.Proofs.Memory.Idle
import RubyTree.Proofs.Definition.Naming
import RubyTree.Proofs.Parameters.Rewriting
import RubyTree.Proofs.Suite.Account
