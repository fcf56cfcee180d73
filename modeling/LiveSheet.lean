import LiveSheet.Main
import LiveSheet.Session
import LiveSheet.Proofs.Cell.Retyping
import LiveSheet.Proofs.Cell.Typing
import LiveSheet.Proofs.CommandLine.Arguments
import LiveSheet.Proofs.CommandLine.Runs
import LiveSheet.Proofs.CommandLine.Settings
import LiveSheet.Proofs.CommandLine.Splitting
import LiveSheet.Proofs.Decimal.LetterCase
import LiveSheet.Proofs.Decimal.Longest
import LiveSheet.Proofs.Decimal.Minimal
import LiveSheet.Proofs.Decimal.Reading
import LiveSheet.Proofs.Decimal.Shortest
import LiveSheet.Proofs.Decimal.Significant
import LiveSheet.Proofs.Decimal.Spelling
import LiveSheet.Proofs.Decimal.Value
import LiveSheet.Proofs.Double.HalfEven
import LiveSheet.Proofs.Double.Nearest
import LiveSheet.Proofs.Double.ZeroSign
import LiveSheet.Proofs.Files.Writing
import LiveSheet.Proofs.Formula.Acceptance
import LiveSheet.Proofs.Formula.Canonical
import LiveSheet.Proofs.Formula.Equality
import LiveSheet.Proofs.Formula.Finiteness
import LiveSheet.Proofs.Formula.Grammar
import LiveSheet.Proofs.Formula.Longest
import LiveSheet.Proofs.Formula.Names
import LiveSheet.Proofs.Formula.Pattern
import LiveSheet.Proofs.Formula.Reads
import LiveSheet.Proofs.Formula.Respelling
import LiveSheet.Proofs.Formula.Segments
import LiveSheet.Proofs.Formula.Semantics
import LiveSheet.Proofs.Formula.ZeroSign
import LiveSheet.Proofs.Graph.Edges
import LiveSheet.Proofs.Graph.Paths
import LiveSheet.Proofs.Graph.PostOrder
import LiveSheet.Proofs.Graph.Prospect
import LiveSheet.Proofs.Graph.Simulation
import LiveSheet.Proofs.Graph.Turns
import LiveSheet.Proofs.Graph.Walk
import LiveSheet.Proofs.Json.Quoting
import LiveSheet.Proofs.Json.Spelling
import LiveSheet.Proofs.Session.Changed
import LiveSheet.Proofs.Session.Commit
import LiveSheet.Proofs.Session.Edits
import LiveSheet.Proofs.Session.Finiteness
import LiveSheet.Proofs.Session.History
import LiveSheet.Proofs.Session.Invariant
import LiveSheet.Proofs.Session.Loading
import LiveSheet.Proofs.Session.Reloading
import LiveSheet.Proofs.Session.Reopening
import LiveSheet.Proofs.Sheet.Coherence
import LiveSheet.Proofs.Sheet.Loading
import LiveSheet.Proofs.Sheet.Reloading
import LiveSheet.Proofs.Sheet.Repeated
import LiveSheet.Proofs.Sheet.Uniqueness
import LiveSheet.Proofs.Sheet.ZeroSign
import LiveSheet.Proofs.Storage.Size
import LiveSheet.Proofs.Storage.Writing
