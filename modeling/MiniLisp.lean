import MiniLisp.Fault
import MiniLisp.Binary.Parts
import MiniLisp.Binary.Remainder
import MiniLisp.Decimal.Shortest
import MiniLisp.Decimal.Notation
import MiniLisp.Decimal.Literal
import MiniLisp.Text.Printable
import MiniLisp.Text.Combining
import MiniLisp.Text.Blank
import MiniLisp.Text.Quoted
import MiniLisp.Syntax.Expr
import MiniLisp.Syntax.Token
import MiniLisp.Syntax.Reader
import MiniLisp.Eval.Value
import MiniLisp.Eval.Error
import MiniLisp.Eval.Store
import MiniLisp.Eval.Operator
import MiniLisp.Eval.Evaluate
import MiniLisp.Session
import MiniLisp.Json.Error
import MiniLisp.Json.Cursor
import MiniLisp.Json.Text
import MiniLisp.Json.Number
import MiniLisp.Json.Reader
import MiniLisp.Json.Writer
import MiniLisp.Cli.Similar
import MiniLisp.Cli.Usage
import MiniLisp.Cli.Request
import MiniLisp.Cli.Files
import MiniLisp.Cli.Program
import MiniLisp.Demo
import MiniLisp.Main
import MiniLisp.Proofs.Store
import MiniLisp.Proofs.Run
import MiniLisp.Proofs.Literal
import MiniLisp.Proofs.Lockstep
import MiniLisp.Proofs.Scoping
import MiniLisp.Proofs.Binary.Rounding
import MiniLisp.Proofs.Binary.Packing
import MiniLisp.Proofs.Binary.Arithmetic
import MiniLisp.Proofs.Decimal.Scientific
import MiniLisp.Proofs.Decimal.Shortest
import MiniLisp.Proofs.Decimal.NumberText
import MiniLisp.Proofs.Syntax.Lexing
import MiniLisp.Proofs.Syntax.Reading
import MiniLisp.Proofs.Syntax.Printing
import MiniLisp.Proofs.Syntax.Grammar
import MiniLisp.Proofs.Syntax.Progress
import MiniLisp.Proofs.Json.Values
import MiniLisp.Proofs.Json.RoundTrip
import MiniLisp.Proofs.CallTrace
import MiniLisp.Proofs.DepthLimit
import MiniLisp.Proofs.SessionSteps
import MiniLisp.Proofs.CallCounter
import MiniLisp.Proofs.Ghost
import MiniLisp.Proofs.Closed
import MiniLisp.Proofs.Unrolled.Stores
import MiniLisp.Proofs.Unrolled.Eval
import MiniLisp.Proofs.ChainedMap
import MiniLisp.Proofs.Dispatch
import MiniLisp.Proofs.WellFormed
import MiniLisp.Proofs.Creations
import MiniLisp.Proofs.Faults
