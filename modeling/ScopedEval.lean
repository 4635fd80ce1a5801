import ScopedEval.Arena
import ScopedEval.Bindings
import ScopedEval.Builder
import ScopedEval.Evaluation
import ScopedEval.Evaluation.Machine
import ScopedEval.Failure
import ScopedEval.Heap
import ScopedEval.Heap.Chain
import ScopedEval.Heap.Dump
import ScopedEval.Inspect.Code
import ScopedEval.Inspect.Record
import ScopedEval.Inspect.Scope
import ScopedEval.Inspect.Value
import ScopedEval.Interner
import ScopedEval.Machine
import ScopedEval.Node
import ScopedEval.Operator
import ScopedEval.Operator.Apply
import ScopedEval.Proofs.Acyclicity
import ScopedEval.Proofs.Adequacy
import ScopedEval.Proofs.Allocation
import ScopedEval.Proofs.Arithmetic
import ScopedEval.Proofs.Bracketing
import ScopedEval.Proofs.Calls
import ScopedEval.Proofs.Capture
import ScopedEval.Proofs.Clients
import ScopedEval.Proofs.Construction
import ScopedEval.Proofs.Dumping
import ScopedEval.Proofs.Effects
import ScopedEval.Proofs.Failures
import ScopedEval.Proofs.Footprints
import ScopedEval.Proofs.Growth
import ScopedEval.Proofs.Heaps
import ScopedEval.Proofs.Identity
import ScopedEval.Proofs.Inlining
import ScopedEval.Proofs.Interning
import ScopedEval.Proofs.Layout
import ScopedEval.Proofs.Legibility
import ScopedEval.Proofs.Naming
import ScopedEval.Proofs.Nesting
import ScopedEval.Proofs.NullGlobals
import ScopedEval.Proofs.Occasions
import ScopedEval.Proofs.OwnLevel
import ScopedEval.Proofs.Polynomials
import ScopedEval.Proofs.Printing
import ScopedEval.Proofs.RangeSafety
import ScopedEval.Proofs.Reachability
import ScopedEval.Proofs.Regions
import ScopedEval.Proofs.Relations
import ScopedEval.Proofs.Renaming
import ScopedEval.Proofs.ScopeChains
import ScopedEval.Proofs.Sequencing
import ScopedEval.Proofs.Simulation
import ScopedEval.Proofs.Spans
import ScopedEval.Proofs.Splitting
import ScopedEval.Proofs.Steps
import ScopedEval.Proofs.Storage
import ScopedEval.Proofs.Tables
import ScopedEval.Proofs.Termination
import ScopedEval.Proofs.Unfolding
import ScopedEval.Proofs.Unmentioned
import ScopedEval.Proofs.Viewpoints
import ScopedEval.Session
import ScopedEval.Sink
import ScopedEval.Text.Invisible
import ScopedEval.Text.Marks
import ScopedEval.Text.Quoted
import ScopedEval.Text.Ranges
import ScopedEval.Text.Unassigned
import ScopedEval.Trace
import ScopedEval.Tree
import ScopedEval.Value
import ScopedEval.World
