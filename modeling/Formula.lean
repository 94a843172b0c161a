import Formula.Text.CharRange
import Formula.Text.Alphabetic
import Formula.Text.Blank
import Formula.Text.Lines
import Formula.Binary64
import Formula.Decimal
import Formula.Decimal.Shortest
import Formula.Decimal.Numeral
import Formula.Operator
import Formula.Token
import Formula.Token.Scanner
import Formula.Token.Postfix
import Formula.Expr
import Formula.Expr.Assembly
import Formula.Expr.Eval
import Formula.Expr.Read
import Formula.Expr.Render
import Formula.Failure
import Formula.Store
import Formula.Recent
import Formula.Calculator
import Formula.Dialogue
import Formula.Main
import Formula.Proofs.SignMagnitude
import Formula.Proofs.Nearest
import Formula.Proofs.Literal
import Formula.Proofs.Run
import Formula.Proofs.Grammar
import Formula.Proofs.Assembling
import Formula.Proofs.Precedence
import Formula.Proofs.Reordering
import Formula.Proofs.Placement
import Formula.Proofs.Juxtaposition
import Formula.Proofs.Characters
import Formula.Proofs.Words
import Formula.Proofs.Spelling
import Formula.Proofs.Normal
import Formula.Proofs.RoundTrip
import Formula.Proofs.Session
import Formula.Proofs.Transparency
import Formula.Proofs.Recency
import Formula.Proofs.ValueStack
import Formula.Proofs.Composition
import Formula.Proofs.Names
import Formula.Proofs.Streams
import Formula.Proofs.Turns
import Formula.Proofs.Causality
import Formula.Proofs.Exchanges
import Formula.Proofs.Listing
import Formula.Proofs.LongestMatch
import Formula.Proofs.Refusals
import Formula.Proofs.Substitution
import Formula.Proofs.Balance
import Formula.Proofs.Arity
import Formula.Proofs.Places
import Formula.Proofs.Faults
import Formula.Proofs.Dependence
import Formula.Proofs.Batches
import Formula.Proofs.Reuse
import Formula.Proofs.Layout
import Formula.Proofs.Iterations
import Formula.Proofs.Beginnings
import Formula.Proofs.SideTrack
