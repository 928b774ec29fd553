import Hashlang.Evaluation.Builtin
import Hashlang.Evaluation.Session
import Hashlang.Main
import Hashlang.Proofs.Reading.Faithful
import Hashlang.Proofs.Text.Slice
import Hashlang.Proofs.Text.Places
import Hashlang.Proofs.Text.Bytes
import Hashlang.Proofs.Text.Quoted
import Hashlang.Proofs.Token.Grammar
import Hashlang.Proofs.Token.Reading
import Hashlang.Proofs.Token.Tiles
import Hashlang.Proofs.Token.Neighbours
import Hashlang.Proofs.Token.Tiling
import Hashlang.Proofs.Token.LongestMatch
import Hashlang.Proofs.Syntax.Derivation
import Hashlang.Proofs.Syntax.Execution
import Hashlang.Proofs.Syntax.Grammar
import Hashlang.Proofs.Decimal.Reading
import Hashlang.Proofs.Syntax.WellFormed
import Hashlang.Proofs.Syntax.Printing
import Hashlang.Proofs.Syntax.RoundTrip
import Hashlang.Proofs.Syntax.Fault
import Hashlang.Proofs.Syntax.Viable
import Hashlang.Proofs.Token.Spacing
import Hashlang.Proofs.Token.Blanking
import Hashlang.Proofs.Syntax.Headers
import Hashlang.Proofs.Token.Excerpt
import Hashlang.Proofs.Token.Lines
import Hashlang.Proofs.Syntax.Noise
import Hashlang.Proofs.Syntax.Excerpt
import Hashlang.Proofs.Syntax.Joining
import Hashlang.Proofs.Evaluation.Results
import Hashlang.Proofs.Evaluation.Machine
import Hashlang.Proofs.Evaluation.Likeness
import Hashlang.Proofs.Host.Execution
import Hashlang.Proofs.Host.Reprinting
import Hashlang.Proofs.Decimal.Rounding
import Hashlang.Proofs.Syntax.Location
import Hashlang.Proofs.Evaluation.Programs
import Hashlang.Proofs.Host.Alone
import Hashlang.Proofs.Evaluation.Denotation
import Hashlang.Proofs.Evaluation.Stack
import Hashlang.Proofs.Evaluation.Names
import Hashlang.Proofs.Evaluation.Chain
import Hashlang.Proofs.Evaluation.Sessions
import Hashlang.Proofs.Evaluation.Effect
import Hashlang.Proofs.Evaluation.Statements
import Hashlang.Proofs.Syntax.Culprit
import Hashlang.Proofs.Syntax.Resumption
import Hashlang.Proofs.Syntax.Consumption
import Hashlang.Proofs.Syntax.Readability
import Hashlang.Proofs.Evaluation.Identifiers
import Hashlang.Proofs.Evaluation.Unbound
import Hashlang.Proofs.Evaluation.Registrations
import Hashlang.Proofs.Host.Listing
import Hashlang.Proofs.Reading.Tracking
import Hashlang.Proofs.Reading.Undo
import Hashlang.Proofs.Syntax.Stopping
