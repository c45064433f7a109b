import TagTemplate.NamedStacks.Call
import TagTemplate.Session
import TagTemplate.Proofs.Binary64
import TagTemplate.Proofs.Numeral
import TagTemplate.Proofs.Document.Levels
import TagTemplate.Proofs.Token.Run
import TagTemplate.Proofs.Document.Grammar
import TagTemplate.Proofs.Token.Spelling
import TagTemplate.Proofs.Document.RoundTrip
import TagTemplate.Proofs.Execution.IntegerLoop
import TagTemplate.Proofs.Execution.Substitution
import TagTemplate.Proofs.Execution.Soundness
import TagTemplate.Proofs.Execution.Balance
import TagTemplate.Proofs.Document.Concatenation
import TagTemplate.Proofs.Render
import TagTemplate.Proofs.Evaluation
import TagTemplate.Proofs.Execution.Invariant
import TagTemplate.Proofs.Execution.Independence
import TagTemplate.Proofs.Execution.Interruption
import TagTemplate.Proofs.Execution.LoopLimit
import TagTemplate.Proofs.Execution.Termination
import TagTemplate.Proofs.Execution.Truncation
import TagTemplate.Proofs.Token.Driving
import TagTemplate.Proofs.NamedStacks
import TagTemplate.Proofs.StandardFunction.LastWrite
import TagTemplate.Proofs.Toml.Completeness
import TagTemplate.Proofs.Toml.Layout
import TagTemplate.Proofs.Settings
import TagTemplate.Proofs.Document.Failures
import TagTemplate.Proofs.Execution.Rounds
import TagTemplate.Proofs.Number
import TagTemplate.Proofs.Execution.LoopEntry
import TagTemplate.Proofs.Execution.LoopCounter
import TagTemplate.Proofs.Execution.Echo
import TagTemplate.Proofs.Value.Arithmetic
import TagTemplate.Proofs.Value.Text
import TagTemplate.Proofs.Value.Order
import TagTemplate.Proofs.DecimalPattern
import TagTemplate.Proofs.Document.Nesting
import TagTemplate.Proofs.Rounding
import TagTemplate.Proofs.Token.Factorization
import TagTemplate.Proofs.Token.Faults
import TagTemplate.Proofs.Token.Failures
import TagTemplate.Proofs.Token.Blanks
