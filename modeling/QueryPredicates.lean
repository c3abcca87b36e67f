import QueryPredicates.Comparator
import QueryPredicates.Config.Absence
import QueryPredicates.Config.Decoding
import QueryPredicates.Config.Loading
import QueryPredicates.Config.Settings
import QueryPredicates.Config.Toml.Document
import QueryPredicates.Config.Toml.Item
import QueryPredicates.Config.Toml.Number
import QueryPredicates.Config.Toml.Reader
import QueryPredicates.Config.Toml.Strings
import QueryPredicates.Double.Basic
import QueryPredicates.Double.Order
import QueryPredicates.Double.Reading
import QueryPredicates.Double.Rounding
import QueryPredicates.Double.Shortest
import QueryPredicates.Double.Writing
import QueryPredicates.Evaluation.Basic
import QueryPredicates.Evaluation.Context
import QueryPredicates.Evaluation.Run
import QueryPredicates.Expr.Agreement
import QueryPredicates.Expr.Basic
import QueryPredicates.Expr.Leaf
import QueryPredicates.Expr.Operand
import QueryPredicates.Expr.Sql
import QueryPredicates.Expr.Walk
import QueryPredicates.Fusion
import QueryPredicates.Geometry.Basic
import QueryPredicates.Geometry.Box
import QueryPredicates.Geometry.Wkt
import QueryPredicates.Index.Access
import QueryPredicates.Index.Condition
import QueryPredicates.Index.Derivation
import QueryPredicates.Index.Storage
import QueryPredicates.Negation
import QueryPredicates.Operator
import QueryPredicates.Optimization.Basic
import QueryPredicates.Optimization.Checked
import QueryPredicates.Optimization.Node
import QueryPredicates.Proofs.Expr.Nodes
import QueryPredicates.Proofs.Value.Equations
import QueryPredicates.Proofs.Value.Reversal
import QueryPredicates.SqlType
import QueryPredicates.Telemetry.Note
import QueryPredicates.Telemetry.Program
import QueryPredicates.Telemetry.Recorder
import QueryPredicates.Telemetry.Register
import QueryPredicates.Telemetry.Tally
import QueryPredicates.Text.Blank
import QueryPredicates.Text.CaseTable
import QueryPredicates.Text.Digits
import QueryPredicates.Text.Lowercase
import QueryPredicates.Text.Quoted
import QueryPredicates.Text.Split
import QueryPredicates.Truth
import QueryPredicates.Value.Basic
import QueryPredicates.Value.Comparison
import QueryPredicates.Value.Conversion
import QueryPredicates.Value.Sql
import QueryPredicates.Proofs.Evaluation.Meaning
import QueryPredicates.Proofs.Index.Exactness
import QueryPredicates.Proofs.Optimization.Outcome
import QueryPredicates.Proofs.Optimization.Pass
import QueryPredicates.Proofs.Value.Adaptation
import QueryPredicates.Proofs.Optimization.Preservation
import QueryPredicates.Proofs.Optimization.Repetition
import QueryPredicates.Proofs.Optimization.Equations
import QueryPredicates.Proofs.Optimization.Negation
import QueryPredicates.Proofs.Optimization.NormalForm
import QueryPredicates.Proofs.Evaluation.Calls
import QueryPredicates.Proofs.Optimization.Effects
import QueryPredicates.Proofs.Text.Plain
import QueryPredicates.Proofs.Value.Reading
import QueryPredicates.Proofs.Value.Canonical
import QueryPredicates.Proofs.Value.Transitivity
import QueryPredicates.Proofs.Fusion.Soundness
import QueryPredicates.Proofs.Value.Accord
import QueryPredicates.Proofs.Value.Ranking
import QueryPredicates.Proofs.Fusion.Matching
import QueryPredicates.Proofs.Optimization.Checks
import QueryPredicates.Proofs.Optimization.Independence
import QueryPredicates.Proofs.Fusion.Membership
import QueryPredicates.Proofs.Expr.Leaves
import QueryPredicates.Proofs.Index.Bounds
import QueryPredicates.Proofs.Evaluation.Order
import QueryPredicates.Proofs.Telemetry.Counting
import QueryPredicates.Proofs.Telemetry.Routing
import QueryPredicates.Proofs.Evaluation.Negation
import QueryPredicates.Proofs.Fusion.Symmetry
import QueryPredicates.Proofs.Text.Digits
import QueryPredicates.Proofs.Value.Literal
import QueryPredicates.Proofs.Index.Collection
import QueryPredicates.Proofs.Index.Storage
import QueryPredicates.Proofs.Evaluation.Disjunction
import QueryPredicates.Proofs.Optimization.CaseBranch
import QueryPredicates.Proofs.Expr.Cost
import QueryPredicates.Proofs.Optimization.Cost
import QueryPredicates.Proofs.Optimization.Events
import QueryPredicates.Proofs.Optimization.Visits
import QueryPredicates.Proofs.Expr.Flags
import QueryPredicates.Proofs.Optimization.Reads
import QueryPredicates.Proofs.Optimization.Account
import QueryPredicates.Proofs.Index.Candidates
import QueryPredicates.Proofs.Text.Words
import QueryPredicates.Proofs.Geometry.RoundTrip
import QueryPredicates.Proofs.Value.Integers
import QueryPredicates.Proofs.Geometry.Overlap
import QueryPredicates.Proofs.Value.NaN
import QueryPredicates.Proofs.Config.Realms
import QueryPredicates.Proofs.Telemetry.Reports
import QueryPredicates.Proofs.Expr.Saturation
import QueryPredicates.Proofs.Expr.Columns
import QueryPredicates.Proofs.Evaluation.Renaming
import QueryPredicates.Proofs.Expr.Neutrality
