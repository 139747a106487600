import Scorecard.Main
import Scorecard.Workspace.World
import Scorecard.Proofs.Formula.Cutting
import Scorecard.Proofs.Number.Bits
import Scorecard.Proofs.Number.Layout
import Scorecard.Proofs.Form.Operand
import Scorecard.Proofs.Formula.Arithmetic
import Scorecard.Proofs.Substitution
import Scorecard.Proofs.Form.Keys
import Scorecard.Proofs.Form.Warnings
import Scorecard.Proofs.Formula.Visible
import Scorecard.Proofs.Formula.Lexing
import Scorecard.Proofs.Formula.Building
import Scorecard.Proofs.Formula.Alike
import Scorecard.Proofs.Formula.Matching
import Scorecard.Proofs.Formula.Rewriting
import Scorecard.Proofs.Formula.Numeric
import Scorecard.Proofs.Formula.Answering
import Scorecard.Proofs.Formula.Opening
import Scorecard.Proofs.Formula.Phrase
import Scorecard.Proofs.Formula.Growth
import Scorecard.Proofs.Formula.Following
import Scorecard.Proofs.Formula.Runs
import Scorecard.Proofs.Formula.Accepted
import Scorecard.Proofs.Replacement
import Scorecard.Proofs.Answers
import Scorecard.Proofs.Unbound
import Scorecard.Proofs.Text.Padding
import Scorecard.Proofs.Text.Splitting
import Scorecard.Proofs.Text.Settled
import Scorecard.Proofs.Text.Retitled
import Scorecard.Proofs.Form.Lines
import Scorecard.Proofs.Form.Cells
import Scorecard.Proofs.Form.Segments
import Scorecard.Proofs.Form.Grammar
import Scorecard.Proofs.Form.Shadowing
import Scorecard.Proofs.Form.Dependence
import Scorecard.Proofs.Form.Printed
import Scorecard.Proofs.Form.Flags
import Scorecard.Proofs.Form.NormalForms
import Scorecard.Proofs.Pieces
import Scorecard.Proofs.Problems
import Scorecard.Proofs.Report.Records
import Scorecard.Proofs.Report.Markup
import Scorecard.Proofs.Number.Value
import Scorecard.Proofs.Report.Ranking
import Scorecard.Proofs.Report.Names
import Scorecard.Proofs.Workspace.Observed
import Scorecard.Proofs.Batch.Outcome
import Scorecard.Proofs.Number.Digits
import Scorecard.Proofs.Json.Numeral
import Scorecard.Proofs.Json.Written
import Scorecard.Proofs.Report.Saved
import Scorecard.Proofs.Number.Nearest
import Scorecard.Proofs.Number.Operations
import Scorecard.Proofs.Number.Conversion
import Scorecard.Proofs.Number.Shortest
import Scorecard.Proofs.Json.Rereading
import Scorecard.Proofs.Form.Spacing
import Scorecard.Proofs.LetterCase
import Scorecard.Proofs.Formula.LetterCase
import Scorecard.Proofs.Formula.Wordless
import Scorecard.Proofs.Json.Keys
import Scorecard.Proofs.Roster.Records
import Scorecard.Proofs.Roster.Directory
import Scorecard.Proofs.Report.Course
import Scorecard.Proofs.Settings.References
import Scorecard.Proofs.Batch.DefaultRanking
import Scorecard.Proofs.Formula.ByteLoops
import Scorecard.Proofs.Splicing
