import TextGrammar.Chance.Keystream
import TextGrammar.Chance.Rolls
import TextGrammar.Decimal.Basic
import TextGrammar.Decimal.Layout
import TextGrammar.Decimal.Scaled
import TextGrammar.Decimal.Shortest
import TextGrammar.English
import TextGrammar.Expansion.Engine
import TextGrammar.Expansion.Entry
import TextGrammar.Expansion.Node
import TextGrammar.Expansion.State
import TextGrammar.Format.Datum
import TextGrammar.Format.JsonReader
import TextGrammar.Format.JsonWriter
import TextGrammar.Format.RonReader
import TextGrammar.Grammar
import TextGrammar.Keyed
import TextGrammar.Lint.References
import TextGrammar.Lint.Report
import TextGrammar.Lint.Tool
import TextGrammar.Loading.Files
import TextGrammar.Loading.Recipe
import TextGrammar.Main
import TextGrammar.Output
import TextGrammar.Preview.Command
import TextGrammar.Preview.Shell
import TextGrammar.Preview.Tool
import TextGrammar.Problem
import TextGrammar.Proofs.Balance
import TextGrammar.Proofs.Books
import TextGrammar.Proofs.Bracketing
import TextGrammar.Proofs.Brackets
import TextGrammar.Proofs.ByteRanges
import TextGrammar.Proofs.Causes
import TextGrammar.Proofs.Ceiling
import TextGrammar.Proofs.Chronicle
import TextGrammar.Proofs.Clearing
import TextGrammar.Proofs.Closures
import TextGrammar.Proofs.Composition
import TextGrammar.Proofs.Concatenation
import TextGrammar.Proofs.Conditions
import TextGrammar.Proofs.Derivations
import TextGrammar.Proofs.EachSymbol
import TextGrammar.Proofs.Enclosed
import TextGrammar.Proofs.Endless
import TextGrammar.Proofs.Episodes
import TextGrammar.Proofs.Equations
import TextGrammar.Proofs.Escaping
import TextGrammar.Proofs.Finished
import TextGrammar.Proofs.Gathering
import TextGrammar.Proofs.Histories
import TextGrammar.Proofs.Inert
import TextGrammar.Proofs.Inevitable
import TextGrammar.Proofs.Intact
import TextGrammar.Proofs.JsonReading
import TextGrammar.Proofs.Keyed
import TextGrammar.Proofs.Layering
import TextGrammar.Proofs.Leaves
import TextGrammar.Proofs.Ledger
import TextGrammar.Proofs.Lending
import TextGrammar.Proofs.Levels
import TextGrammar.Proofs.Linting
import TextGrammar.Proofs.Literal
import TextGrammar.Proofs.Mapped
import TextGrammar.Proofs.Markers
import TextGrammar.Proofs.Merging
import TextGrammar.Proofs.Mimicry
import TextGrammar.Proofs.Mirroring
import TextGrammar.Proofs.Named
import TextGrammar.Proofs.Nesting
import TextGrammar.Proofs.Overlooked
import TextGrammar.Proofs.Parallel
import TextGrammar.Proofs.Passing
import TextGrammar.Proofs.Picks
import TextGrammar.Proofs.Placeholders
import TextGrammar.Proofs.Places
import TextGrammar.Proofs.Reached
import TextGrammar.Proofs.Reading
import TextGrammar.Proofs.Regimes
import TextGrammar.Proofs.Releases
import TextGrammar.Proofs.Rerun
import TextGrammar.Proofs.Room
import TextGrammar.Proofs.RoundTrip
import TextGrammar.Proofs.Runs
import TextGrammar.Proofs.ScopedPushes
import TextGrammar.Proofs.Scoping
import TextGrammar.Proofs.Seams
import TextGrammar.Proofs.Segments
import TextGrammar.Proofs.Selections
import TextGrammar.Proofs.Sessions
import TextGrammar.Proofs.Showing
import TextGrammar.Proofs.Snapshots
import TextGrammar.Proofs.Stacks
import TextGrammar.Proofs.Steps
import TextGrammar.Proofs.TagHeads
import TextGrammar.Proofs.Tally
import TextGrammar.Proofs.Unambiguous
import TextGrammar.Proofs.Usage
import TextGrammar.Proofs.Views
import TextGrammar.Proofs.WellFormed
import TextGrammar.Rule.Action
import TextGrammar.Rule.Escape
import TextGrammar.Rule.Scan
import TextGrammar.Rule.Segment
import TextGrammar.Rule.TagHead
import TextGrammar.RuleSet
import TextGrammar.Settings
import TextGrammar.Symbol
import TextGrammar.Text.Blank
import TextGrammar.Text.CaseTable
import TextGrammar.Text.Casing
import TextGrammar.Text.CharacterTable
import TextGrammar.Text.Quoted
import TextGrammar.Text.Split
import TextGrammar.WrittenRules
