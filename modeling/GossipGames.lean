import GossipGames.Attempt
import GossipGames.CommandLine.Help
import GossipGames.CommandLine.Outcome
import GossipGames.CommandLine.Request
import GossipGames.Decimal.Binary64
import GossipGames.Gossip.AgentCount
import GossipGames.Gossip.Basic
import GossipGames.Gossip.Generate
import GossipGames.Guard.Basic
import GossipGames.Guard.Diagnosis
import GossipGames.Guard.Lexer
import GossipGames.Guard.Model
import GossipGames.Guard.Parser
import GossipGames.Guard.Table
import GossipGames.Guard.Token
import GossipGames.Instance.Basic
import GossipGames.Instance.Document
import GossipGames.Instance.Edit
import GossipGames.Instance.Reader
import GossipGames.Json.Basic
import GossipGames.Json.Layout
import GossipGames.Json.Reader
import GossipGames.Lint.Check
import GossipGames.Lint.Coverage
import GossipGames.Lint.Finding
import GossipGames.Main
import GossipGames.Proofs.Attempt
import GossipGames.Proofs.CommandLine.Runs
import GossipGames.Proofs.Gossip.Counts
import GossipGames.Proofs.Gossip.Guards
import GossipGames.Proofs.Gossip.Names
import GossipGames.Proofs.Gossip.Soundness
import GossipGames.Proofs.Gossip.Turns
import GossipGames.Proofs.Guard.Chains
import GossipGames.Proofs.Guard.Choices
import GossipGames.Proofs.Guard.Continuations
import GossipGames.Proofs.Guard.Furthest
import GossipGames.Proofs.Guard.Grammar
import GossipGames.Proofs.Guard.Joined
import GossipGames.Proofs.Guard.LeastModel
import GossipGames.Proofs.Guard.Leaves
import GossipGames.Proofs.Guard.Lexemes
import GossipGames.Proofs.Guard.LongestMatch
import GossipGames.Proofs.Guard.Operands
import GossipGames.Proofs.Guard.Parsing
import GossipGames.Proofs.Guard.Places
import GossipGames.Proofs.Guard.Propositions
import GossipGames.Proofs.Guard.Rejections
import GossipGames.Proofs.Guard.RoundTrip
import GossipGames.Proofs.Guard.Tiling
import GossipGames.Proofs.Guard.UnknownCharacters
import GossipGames.Proofs.Instance.RoundTrip
import GossipGames.Proofs.Json.Grammar
import GossipGames.Proofs.Json.Reading
import GossipGames.Proofs.Json.Styles
import GossipGames.Proofs.Json.Writing
import GossipGames.Proofs.Lint.Coverage
import GossipGames.Proofs.Lint.CoverageReport
import GossipGames.Proofs.Lint.Decision
import GossipGames.Proofs.Lint.Diagnostics
import GossipGames.Proofs.Lint.Edits
import GossipGames.Proofs.Lint.GuardFindings
import GossipGames.Proofs.Lint.Limits
import GossipGames.Proofs.Lint.Reordering
import GossipGames.Proofs.Lint.Rules
import GossipGames.Proofs.Lint.Undeclared
import GossipGames.Proofs.Scanner
import GossipGames.Proofs.Settings.Acceptance
import GossipGames.Proofs.Settings.Writing
import GossipGames.Proofs.Text.ByteOrder
import GossipGames.Proofs.Text.Digits
import GossipGames.Proofs.Text.Numerals
import GossipGames.Proofs.Text.Slices
import GossipGames.Proofs.Text.Sorted
import GossipGames.Proofs.Text.Trimming
import GossipGames.Proofs.Toml.Lines
import GossipGames.Proofs.Toml.Scalars
import GossipGames.Proofs.Toml.Tables
import GossipGames.Report.Basic
import GossipGames.Report.Diagnostic
import GossipGames.Report.Ink
import GossipGames.Report.Line
import GossipGames.Scanner
import GossipGames.Settings.Basic
import GossipGames.Settings.Decode
import GossipGames.Settings.Fault
import GossipGames.Settings.Load
import GossipGames.Text.Blank
import GossipGames.Text.Numeral
import GossipGames.Text.Printable
import GossipGames.Text.Quoted
import GossipGames.Text.Ranges
import GossipGames.Text.Sorted
import GossipGames.Text.Spaces
import GossipGames.Text.Span
import GossipGames.Text.Width
import GossipGames.Toml.Excerpt
import GossipGames.Toml.Reader
import GossipGames.Toml.Scalar
import GossipGames.Toml.Table
import GossipGames.Toml.Text
import GossipGames.Toml.Value
