import Reckoner.Expression.Grammar
import Reckoner.Main
import Reckoner.Text.Layout
import Reckoner.Text.Occurrence
import Reckoner.Token.Placement
import Reckoner.Proofs.Evaluation.Contract
import Reckoner.Proofs.Pushdown.Basic
import Reckoner.Proofs.Pushdown.Simulation
import Reckoner.Proofs.Expression.Fault
import Reckoner.Proofs.Pushdown.Derivation
import Reckoner.Proofs.Evaluation.Meaning
import Reckoner.Proofs.Pushdown.Placement
import Reckoner.Proofs.Text.Boundary
import Reckoner.Proofs.Text.Layout
import Reckoner.Proofs.Token.Layout
import Reckoner.Proofs.Request.Environment
import Reckoner.Proofs.Numeral.Decimal
import Reckoner.Proofs.Pushdown.Stop
import Reckoner.Proofs.Evaluation.ViablePrefix
import Reckoner.Proofs.Evaluation.Grouping
import Reckoner.Proofs.Token.Written
import Reckoner.Proofs.Text.Item
import Reckoner.Proofs.Request.Pairing
import Reckoner.Proofs.Request.Stages
import Reckoner.Proofs.Request.Simultaneous
import Reckoner.Proofs.Console.Arguments
import Reckoner.Proofs.Console.Line
import Reckoner.Proofs.Evaluation.Ending
import Reckoner.Proofs.Evaluation.Room
import Reckoner.Proofs.Evaluation.Levels
import Reckoner.Proofs.Evaluation.Pushback
import Reckoner.Proofs.Evaluation.Finality
import Reckoner.Proofs.Evaluation.NestingLimit
import Reckoner.Proofs.Console.Channel
import Reckoner.Proofs.Console.Needed
import Reckoner.Proofs.Text.Occurrence
import Reckoner.Proofs.Text.Overlap
import Reckoner.Proofs.Request.Unmixed
import Reckoner.Proofs.Request.Agreement
