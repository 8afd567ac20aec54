import Wiring.Application
import Wiring.Config.Document
import Wiring.Scenario.Drill
import Wiring.Scenario.Transcript
import Wiring.Proofs.Lifecycle
import Wiring.Proofs.Search
import Wiring.Proofs.Ordering
import Wiring.Proofs.Progress
import Wiring.Proofs.Effects
import Wiring.Proofs.Completeness
import Wiring.Proofs.Recovery
import Wiring.Proofs.Precedence
import Wiring.Proofs.Transparency
import Wiring.Proofs.Settled
import Wiring.Proofs.Agreement
import Wiring.Proofs.Endurance
import Wiring.Proofs.Simulation
import Wiring.Proofs.Moments
import Wiring.Proofs.Constancy
import Wiring.Proofs.Retries
import Wiring.Proofs.Supply
import Wiring.Proofs.Restart
import Wiring.Proofs.Duplicates
import Wiring.Proofs.Collisions
import Wiring.Proofs.Rounds
import Wiring.Proofs.Diagnosis
import Wiring.Proofs.Arrangement
import Wiring.Proofs.Phases
import Wiring.Proofs.Stack
import Wiring.Proofs.Consistency
import Wiring.Proofs.Distinctness
import Wiring.Proofs.Grammar
import Wiring.Proofs.Invocation
import Wiring.Proofs.Regularity
import Wiring.Proofs.Representation
import Wiring.Proofs.Waves
import Wiring.Proofs.Snapshots
import Wiring.Proofs.Rooted
import Wiring.Proofs.Ancestry
import Wiring.Proofs.Verbatim
import Wiring.Proofs.Access
import Wiring.Proofs.Attribution
import Wiring.Proofs.Drawings
