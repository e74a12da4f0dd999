import DiceLab.Binary64
import DiceLab.Binary64.Arithmetic
import DiceLab.Candidate
import DiceLab.Catalog
import DiceLab.Catalog.Folder
import DiceLab.Catalog.Packaged
import DiceLab.Catalog.Shared
import DiceLab.Coercion
import DiceLab.CommandLine
import DiceLab.CommandLine.Arguments
import DiceLab.CommandLine.Grammar
import DiceLab.CommandLine.Taking
import DiceLab.Console
import DiceLab.Decimal.Digits
import DiceLab.Decimal.Real
import DiceLab.Decimal.Scientific
import DiceLab.Dice
import DiceLab.Distribution
import DiceLab.Entries
import DiceLab.Face
import DiceLab.Face.Tag
import DiceLab.Failure
import DiceLab.Fit
import DiceLab.Formula
import DiceLab.Formula.Chunk
import DiceLab.Formula.Reading
import DiceLab.Generator
import DiceLab.Histogram
import DiceLab.Main
import DiceLab.Number
import DiceLab.Outcome
import DiceLab.Power
import DiceLab.Proposal
import DiceLab.Report
import DiceLab.Schema.Checked
import DiceLab.Schema.Field
import DiceLab.Schema.Numeral
import DiceLab.Schema.Record
import DiceLab.Settings
import DiceLab.Shape
import DiceLab.Sheet.Bar
import DiceLab.Sheet.Candidates
import DiceLab.Sheet.Distribution
import DiceLab.Sheet.Histogram
import DiceLab.Sheet.Item
import DiceLab.Sheet.Summary
import DiceLab.Sorting
import DiceLab.Stats
import DiceLab.Text
import DiceLab.Text.Blank
import DiceLab.Text.Digit
import DiceLab.Text.Path
import DiceLab.Text.Printable
import DiceLab.Text.Quoted
import DiceLab.Text.Replace
import DiceLab.Total
import DiceLab.Value
import DiceLab.Value.Json
import DiceLab.Proofs.Decimal.Digits
import DiceLab.Proofs.Formula.Cut
import DiceLab.Proofs.Formula.Grammar
import DiceLab.Proofs.Report
import DiceLab.Proofs.Formula.Contribution
import DiceLab.Proofs.Formula.Reading
import DiceLab.Proofs.Formula.RoundTrip
import DiceLab.Proofs.Roll
import DiceLab.Proofs.Range
import DiceLab.Proofs.Coercion
import DiceLab.Proofs.Tally
import DiceLab.Proofs.Batch
import DiceLab.Proofs.Repetition
import DiceLab.Proofs.Binary64.Order
import DiceLab.Proofs.Text.Order
import DiceLab.Proofs.Candidate.Order
import DiceLab.Proofs.Candidate.Selection
import DiceLab.Proofs.Candidate.Scoring
import DiceLab.Proofs.Candidate.Ranking
import DiceLab.Proofs.Face.Resolution
import DiceLab.Proofs.Generator.Search
import DiceLab.Proofs.Candidate.Truth
import DiceLab.Proofs.Generator.AllOrNothing
import DiceLab.Proofs.Binary64.Overflow
import DiceLab.Proofs.Proposal
import DiceLab.Proofs.Candidate.Scorable
import DiceLab.Proofs.Generator.Faces
import DiceLab.Proofs.Generator.Texts
import DiceLab.Proofs.Proposal.Dice
import DiceLab.Proofs.Generator.Offered
import DiceLab.Proofs.Formula.Readable
import DiceLab.Proofs.Binary64.Rounding
import DiceLab.Proofs.Formula.Average
import DiceLab.Proofs.Binary64.Within
import DiceLab.Proofs.Binary64.Exact
import DiceLab.Proofs.Proposal.Size
import DiceLab.Proofs.Generator.Room
import DiceLab.Proofs.Binary64.Monotone
import DiceLab.Proofs.Fit
import DiceLab.Proofs.Fit.Relation
import DiceLab.Proofs.Proposal.Nudging
import DiceLab.Proofs.Proposal.Centring
import DiceLab.Proofs.Generator.Covering
import DiceLab.Proofs.Console.Ends
import DiceLab.Proofs.Console.Session
import DiceLab.Proofs.Returns
import DiceLab.Proofs.Sheet
import DiceLab.Proofs.Sheet.Histogram
import DiceLab.Proofs.Sheet.Distribution
import DiceLab.Proofs.Settings
import DiceLab.Proofs.Settings.Loading
import DiceLab.Proofs.Settings.Overrides
import DiceLab.Proofs.Text.Words
import DiceLab.Proofs.Console
import DiceLab.Proofs.Binary64.Nearest
import DiceLab.Proofs.Formula.Regrouping
import DiceLab.Proofs.Formula.Refusal
import DiceLab.Proofs.Shape
import DiceLab.Proofs.Shape.Growth
import DiceLab.Proofs.Decimal.Runs
import DiceLab.Proofs.Formula.Append
import DiceLab.Proofs.Formula.Normal
import DiceLab.Proofs.Entries
import DiceLab.Proofs.Face.Reading
import DiceLab.Proofs.Value.Json
import DiceLab.Proofs.Catalog.Files
import DiceLab.Proofs.Catalog.Loading
import DiceLab.Proofs.Text.Replace
import DiceLab.Proofs.Catalog.Places
import DiceLab.Proofs.Catalog.Filling
import DiceLab.Proofs.Distribution
import DiceLab.Proofs.Distribution.Runs
import DiceLab.Proofs.Report.Quiet
import DiceLab.Proofs.Sheet.Title
import DiceLab.Proofs.Roll.Draws
import DiceLab.Proofs.Outcome
import DiceLab.Proofs.Decimal.Numeral
import DiceLab.Proofs.Value.Short
import DiceLab.Proofs.Coercion.Range
import DiceLab.Proofs.CommandLine.Reading
import DiceLab.Proofs.CommandLine.Shown
import DiceLab.Proofs.CommandLine
import DiceLab.Proofs.Binary64.Halves
import DiceLab.Proofs.Binary64.HalfUp
import DiceLab.Proofs.Proposal.HalfUp
import DiceLab.Proofs.Sorting.Order
import DiceLab.Proofs.Histogram
import DiceLab.Proofs.Sheet.Bar
import DiceLab.Proofs.Sheet.Counts
