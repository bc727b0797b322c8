import DiceNotation.Evaluate
import DiceNotation.Number.Read
import DiceNotation.Data
import DiceNotation.Text.Lowercase
import DiceNotation.Statistics.Statistic
import DiceNotation.Yaml.Value
import DiceNotation.Yaml.Writer
import DiceNotation.Settings.File
import DiceNotation.Proofs.Random.Uniform
import DiceNotation.Proofs.Stack.Depth
import DiceNotation.Proofs.Evaluation.Range
import DiceNotation.Proofs.Random.Period
import DiceNotation.Proofs.Evaluation.Following
import DiceNotation.Proofs.Evaluation.Limit
import DiceNotation.Proofs.Evaluation.Outcome
import DiceNotation.Proofs.Evaluation.Sampling
import DiceNotation.Proofs.Grammar.OpenRuns
import DiceNotation.Proofs.Grammar.Offence
import DiceNotation.Proofs.Grammar.Acceptor
import DiceNotation.Proofs.Grammar.Viability
import DiceNotation.Proofs.Grammar.Refusal
import DiceNotation.Proofs.Grammar.Refusing
import DiceNotation.Proofs.Grammar.FirstOffence
import DiceNotation.Proofs.Lexing.Gluing
import DiceNotation.Proofs.Lexing.Spans
import DiceNotation.Proofs.Lexing.Layout
import DiceNotation.Proofs.Stack.Check
import DiceNotation.Proofs.Evaluation.Inquiry
import DiceNotation.Proofs.Evaluation.Replay
import DiceNotation.Proofs.Evaluation.Composition
import DiceNotation.Proofs.Evaluation.Dice
import DiceNotation.Proofs.Random.Rejection
import DiceNotation.Proofs.Yaml.Format
import DiceNotation.Proofs.Settings.RoundTrip
import DiceNotation.Proofs.Lexing.Tiling
import DiceNotation.Proofs.Lexing.Locality
import DiceNotation.Proofs.Evaluation.Budget
import DiceNotation.Proofs.Evaluation.Trace
import DiceNotation.Proofs.Except
import DiceNotation.Proofs.Stack.Bound
import DiceNotation.Proofs.Statistics.Tally
import DiceNotation.Proofs.Settings.Checking
import DiceNotation.Proofs.Statistics.Library
import DiceNotation.Proofs.Statistics.Mean
import DiceNotation.Proofs.Statistics.Asking
import DiceNotation.Proofs.Evaluation.Fixed
import DiceNotation.Proofs.Evaluation.Batches
import DiceNotation.Proofs.Grammar.LeadingZeros
import DiceNotation.Proofs.Grammar.Descent
import DiceNotation.Proofs.Grammar.Descending
import DiceNotation.Proofs.Random.Cycle
import DiceNotation.Proofs.Evaluation.Division
