import Reckoner.Text.Letter
import Reckoner.Text.Blank
import Reckoner.Text.Escape
import Reckoner.Number.Arithmetic
import Reckoner.Number.Numeral
import Reckoner.Number.Shortest
import Reckoner.Token.Scan
import Reckoner.Expr.Equality
import Reckoner.Program.Parse
import Reckoner.Session
import Reckoner.CommandLine
import Reckoner.Main
import Reckoner.Proofs.Evaluation.Turns
import Reckoner.Proofs.Scanning.Spacing
import Reckoner.Proofs.Scanning.Refusal
import Reckoner.Proofs.Sessions.Persistence
import Reckoner.Proofs.Parsing.Viability
import Reckoner.Proofs.Sessions.Layout
import Reckoner.Proofs.Environments.Sandbox
import Reckoner.Proofs.Environments.Answers
import Reckoner.Proofs.Evaluation.Substitution
import Reckoner.Proofs.Logs.Account
import Reckoner.Proofs.Prompting.Conversation
import Reckoner.Proofs.Execution.Isolation
import Reckoner.Proofs.Execution.Reordering
import Reckoner.Proofs.Evaluation.Blame
import Reckoner.Proofs.Chains.Reading
import Reckoner.Proofs.Execution.Renaming
import Reckoner.Proofs.Sessions.Faults
import Reckoner.Proofs.Parsing.Depth
import Reckoner.Proofs.Sessions.Names
import Reckoner.Proofs.Numbers.Reading
import Reckoner.Proofs.Formulas.Reading
import Reckoner.Proofs.Numbers.Remainder
import Reckoner.Proofs.Parsing.Locality
import Reckoner.Proofs.Parsing.Progress
import Reckoner.Proofs.Numbers.Text
