import ConcreteSyntax.Grammar.Outline
import ConcreteSyntax.Grammar.Violation
import ConcreteSyntax.Language
import ConcreteSyntax.Node.Walk
import ConcreteSyntax.Proofs.Approximation
import ConcreteSyntax.Proofs.GroupRuns
import ConcreteSyntax.Session
import ConcreteSyntax.Proofs.Orderly
import ConcreteSyntax.Proofs.SetOrders
import ConcreteSyntax.Proofs.Slices
import ConcreteSyntax.Proofs.Terminal.Content
import ConcreteSyntax.Proofs.Terminal.Reading
import ConcreteSyntax.Proofs.Backtracking
import ConcreteSyntax.Proofs.Grammar.Closure
import ConcreteSyntax.Proofs.Grammar.Rounds
import ConcreteSyntax.Proofs.Grammar.LeftCalls
import ConcreteSyntax.Proofs.Nullability
import ConcreteSyntax.Proofs.Termination
import ConcreteSyntax.Proofs.Outcomes
import ConcreteSyntax.Proofs.Derivation
import ConcreteSyntax.Proofs.ParsingExpression
import ConcreteSyntax.Proofs.Translation
import ConcreteSyntax.Proofs.Refinement
import ConcreteSyntax.Proofs.Exhaustion
import ConcreteSyntax.Proofs.Commitment
import ConcreteSyntax.Proofs.Grammar.LeastSets
import ConcreteSyntax.Proofs.Grammar.Relations
import ConcreteSyntax.Proofs.Grammar.Validity
import ConcreteSyntax.Proofs.Diagnoses
import ConcreteSyntax.Proofs.Unvalidated
import ConcreteSyntax.Proofs.EarlyCommitment
import ConcreteSyntax.Proofs.EndOfInput
import ConcreteSyntax.Proofs.Texts
import ConcreteSyntax.Proofs.Layout
import ConcreteSyntax.Proofs.Shifted
import ConcreteSyntax.Proofs.Mirrored
import ConcreteSyntax.Proofs.Terminal.Mirrored
import ConcreteSyntax.Proofs.Correspondence
import ConcreteSyntax.Proofs.PathIndependence
import ConcreteSyntax.Proofs.LookAhead
import ConcreteSyntax.Proofs.Unreachable
import ConcreteSyntax.Proofs.Faultless
import ConcreteSyntax.Proofs.SetPreference
import ConcreteSyntax.Proofs.Promotion
import ConcreteSyntax.Proofs.CharRanges
import ConcreteSyntax.Proofs.Terminal.Delimitation
import ConcreteSyntax.Proofs.Terminal.Escapes
import ConcreteSyntax.Proofs.Productivity
import ConcreteSyntax.Proofs.Repetition
import ConcreteSyntax.Proofs.Terminal.Permuted
import ConcreteSyntax.Proofs.Terminal.RoundTrips
import ConcreteSyntax.Proofs.CanonicalRanges
import ConcreteSyntax.Proofs.Terminal.Windows
import ConcreteSyntax.Proofs.Grammar.Grounding
import ConcreteSyntax.Proofs.Steps
import ConcreteSyntax.Proofs.Unrolling
import ConcreteSyntax.Proofs.Grouping
import ConcreteSyntax.Proofs.Checkpoints
import ConcreteSyntax.Proofs.Walks
