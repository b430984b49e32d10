import QueryPlan.Form.Operator
import QueryPlan.Join.KeyCondition
import QueryPlan.Join.Residual
import QueryPlan.Metadata.Session
import QueryPlan.Pass.Standard
import QueryPlan.Plan.Equality
import QueryPlan.Plan.Explain
import QueryPlan.Settings.Document
import QueryPlan.Proofs.Names
import QueryPlan.Proofs.Plan.Construction
import QueryPlan.Proofs.Standard
import QueryPlan.Proofs.StarColumns.Meaning
import QueryPlan.Proofs.StarColumns.Prefixing
import QueryPlan.Proofs.StarColumns.Provenance
import QueryPlan.Proofs.JoinNames.Conditions
import QueryPlan.Proofs.JoinNames.Insertion
import QueryPlan.Proofs.JoinNames.Rows
import QueryPlan.Proofs.StarColumns.Progress
import QueryPlan.Proofs.StarColumns.Unneeded
import QueryPlan.Proofs.StarColumns.Written
import QueryPlan.Proofs.Metadata.Consultation
import QueryPlan.Proofs.Metadata.Evaluation
import QueryPlan.Proofs.Metadata.Session
import QueryPlan.Proofs.Metadata.TableRequests
import QueryPlan.Proofs.StarColumns.Clashes
import QueryPlan.Proofs.Plan.Comparison
import QueryPlan.Proofs.StarColumns.Comparison
import QueryPlan.Proofs.Comparison
import QueryPlan.Proofs.Plan.Rebuilding
import QueryPlan.Proofs.Recomposition
import QueryPlan.Proofs.History
import QueryPlan.Proofs.JoinNames.Stability
import QueryPlan.Proofs.Metadata.Chronicle
import QueryPlan.Proofs.Expr.Conjunction
import QueryPlan.Proofs.Expr.Calls
import QueryPlan.Proofs.Join.Resolution
import QueryPlan.Proofs.Join.Readback
import QueryPlan.Proofs.Expr.Canonical
import QueryPlan.Proofs.Expr.Comparison
import QueryPlan.Proofs.Expr.Substitution
import QueryPlan.Proofs.Plan.Calls
import QueryPlan.Proofs.Plan.Organisation
import QueryPlan.Proofs.Plan.OtherInputs
import QueryPlan.Proofs.JoinNames.Ranges
import QueryPlan.Proofs.Join.Rendering
import QueryPlan.Proofs.Form.Operator
import QueryPlan.Proofs.Names.Case
import QueryPlan.Proofs.Names.Search
