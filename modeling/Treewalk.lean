import Treewalk.Domain
import Treewalk.Dynamic
import Treewalk.Environment
import Treewalk.Evaluation.Basic
import Treewalk.Evaluation.Context
import Treewalk.Evaluation.Event
import Treewalk.Evaluation.Machine
import Treewalk.Evaluation.Program
import Treewalk.Failure
import Treewalk.Graph.Basic
import Treewalk.Graph.Bindings
import Treewalk.Graph.Printer
import Treewalk.History
import Treewalk.Node.Basic
import Treewalk.Node.Builder
import Treewalk.Node.Issue
import Treewalk.Node.Kind
import Treewalk.Node.Operator
import Treewalk.Proofs.Adequacy
import Treewalk.Proofs.Bindings
import Treewalk.Proofs.Budget
import Treewalk.Proofs.Building
import Treewalk.Proofs.Calls
import Treewalk.Proofs.Commuting
import Treewalk.Proofs.Composition
import Treewalk.Proofs.Congruence
import Treewalk.Proofs.Contexts
import Treewalk.Proofs.Countdown
import Treewalk.Proofs.Coverage
import Treewalk.Proofs.Cutoff
import Treewalk.Proofs.Decision
import Treewalk.Proofs.Endings
import Treewalk.Proofs.EvalForm
import Treewalk.Proofs.Expressions
import Treewalk.Proofs.Footprint
import Treewalk.Proofs.Form
import Treewalk.Proofs.Framing
import Treewalk.Proofs.Functions
import Treewalk.Proofs.Height
import Treewalk.Proofs.Inclusion
import Treewalk.Proofs.Isolation
import Treewalk.Proofs.LatestWrite
import Treewalk.Proofs.Limits
import Treewalk.Proofs.Locating
import Treewalk.Proofs.Logs
import Treewalk.Proofs.Nesting
import Treewalk.Proofs.Offence
import Treewalk.Proofs.Preorder
import Treewalk.Proofs.Profile
import Treewalk.Proofs.Pruning
import Treewalk.Proofs.Reach
import Treewalk.Proofs.Realizing
import Treewalk.Proofs.Rebuilding
import Treewalk.Proofs.Renaming
import Treewalk.Proofs.Rules
import Treewalk.Proofs.Safety
import Treewalk.Proofs.ShapeCheck
import Treewalk.Proofs.Sharing
import Treewalk.Proofs.Simulation
import Treewalk.Proofs.Statements
import Treewalk.Proofs.Summarizing
import Treewalk.Proofs.Tallies
import Treewalk.Proofs.Tracing
import Treewalk.Proofs.Triple
import Treewalk.Proofs.Unfolding
import Treewalk.Proofs.Unread
import Treewalk.Proofs.Validator
import Treewalk.Proofs.Visiting
import Treewalk.Report
import Treewalk.Session
import Treewalk.Steps
import Treewalk.Table
import Treewalk.Text.Quoted
import Treewalk.Validation.Basic
import Treewalk.Validation.Location
import Treewalk.Validation.Shape
import Treewalk.Validation.Summary
