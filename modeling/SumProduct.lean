import SumProduct.Binary64.Basic
import SumProduct.Binary64.Shortest
import SumProduct.Binary64.Text
import SumProduct.Binary64.Reading
import SumProduct.Text.Class
import SumProduct.Text.Unprintable
import SumProduct.Text.Quoted
import SumProduct.Bindings
import SumProduct.Value
import SumProduct.Expr.Basic
import SumProduct.Expr.Walk
import SumProduct.Expr.Text
import SumProduct.Expr.Equality
import SumProduct.Expr.Evaluation
import SumProduct.Expr.Simplification
import SumProduct.Calculus
import SumProduct.Batch
import SumProduct.Numeral
import SumProduct.SyntaxError
import SumProduct.Token
import SumProduct.Parser.Limit
import SumProduct.Parser.Production
import SumProduct.Parser.Basic
import SumProduct.Construction
import SumProduct.Algebra.Scalar
import SumProduct.Algebra.Polynomial
import SumProduct.Algebra.Formula
import SumProduct.Algebra.Canonical
import SumProduct.Algebra.Equivalence
import SumProduct.Algebra.System
import SumProduct.Expr.Query
import SumProduct.Journal.Basic
import SumProduct.Request
import SumProduct.Journal.Tracing
import SumProduct.Session
import SumProduct.Proofs.Expr.Derivative
import SumProduct.Proofs.Expr.Simplification
import SumProduct.Proofs.Expr.PartialEvaluation
import SumProduct.Proofs.Batch.Rowwise
import SumProduct.Proofs.Token.Piece
import SumProduct.Proofs.Parser.Phrase
import SumProduct.Proofs.Parser.Reading
import SumProduct.Proofs.Parser.Completeness
import SumProduct.Proofs.Parser.Acceptance
import SumProduct.Proofs.Binary64.Rounding
import SumProduct.Proofs.Binary64.Shortest
import SumProduct.Proofs.Binary64.Written
import SumProduct.Proofs.Expr.Grouped
import SumProduct.Proofs.Expr.GroupedMinimal
import SumProduct.Proofs.Expr.LiteralText
import SumProduct.Proofs.Expr.Equality
import SumProduct.Proofs.Expr.SuccessiveSimplification
import SumProduct.Proofs.Expr.Rereading
import SumProduct.Proofs.Expr.DerivativeText
import SumProduct.Proofs.Parser.Continuation
import SumProduct.Proofs.Parser.Rejection
import SumProduct.Proofs.Parser.FirstImpossible
import SumProduct.Proofs.Parser.Progress
import SumProduct.Proofs.Parser.Cursor
import SumProduct.Proofs.Algebra.Entries
import SumProduct.Proofs.Algebra.Polynomial
import SumProduct.Proofs.Algebra.Equivalence
import SumProduct.Proofs.Expr.ExactFolding
import SumProduct.Proofs.Expr.SuccessiveDerivatives
import SumProduct.Proofs.Expr.SimplifiedDerivative
import SumProduct.Proofs.Parser.Loosening
import SumProduct.Proofs.Parser.RaisedLimit
import SumProduct.Proofs.Expr.Replacement
import SumProduct.Proofs.Token.Replacement
import SumProduct.Proofs.Expr.InOrder
import SumProduct.Proofs.Parser.Relocation
import SumProduct.Proofs.Token.FirstFault
import SumProduct.Proofs.Parser.History
import SumProduct.Proofs.Parser.Maximal
import SumProduct.Proofs.Expr.Fold
import SumProduct.Proofs.Expr.Position
import SumProduct.Proofs.Expr.Sharing
import SumProduct.Proofs.Expr.FirstFault
import SumProduct.Proofs.Expr.Unchanged
import SumProduct.Proofs.Journal.Delivery
import SumProduct.Proofs.Expr.Overflow
import SumProduct.Proofs.Batch.Overflow
import SumProduct.Proofs.Expr.VanishingDerivative
import SumProduct.Proofs.Binary64.Nearest
import SumProduct.Proofs.Binary64.Trimmed
import SumProduct.Proofs.Expr.Numeral
import SumProduct.Proofs.Expr.ConstantText
import SumProduct.Proofs.Algebra.Scalar
import SumProduct.Proofs.Algebra.FormulaReading
import SumProduct.Proofs.Expr.DerivativeSize
import SumProduct.Proofs.Expr.WalkOrder
import SumProduct.Proofs.Expr.Visit
import SumProduct.Proofs.Binary64.FullText
import SumProduct.Proofs.Expr.ConstructorText
import SumProduct.Proofs.Expr.Metrics
import SumProduct.Proofs.Journal.History
import SumProduct.Proofs.Journal.ChangedLevel
