import Supervision.Audience
import Supervision.Interrupt
import Supervision.Proofs.Scheduling
import Supervision.Scenario
import Supervision.Proofs.Changes
import Supervision.Proofs.Chains
import Supervision.Proofs.Evolution
import Supervision.Proofs.ActiveRuns
import Supervision.Proofs.Stopping
import Supervision.Proofs.Restarts
import Supervision.Proofs.Outcomes
import Supervision.Proofs.Draining
import Supervision.Proofs.Conduct
import Supervision.Proofs.SingleTeardown
import Supervision.Proofs.Successes
import Supervision.Proofs.Triggers
import Supervision.Proofs.Courses
import Supervision.Proofs.Joining
import Supervision.Proofs.GraceReport
import Supervision.Proofs.Lifecycles
import Supervision.Proofs.Burdens
import Supervision.Proofs.Loads
import Supervision.Proofs.Feedback
import Supervision.Proofs.Deadlines
import Supervision.Proofs.Histories
import Supervision.Proofs.Hearing
import Supervision.Proofs.ListenerEnd
import Supervision.Proofs.Acceptance
import Supervision.Proofs.Streaks
import Supervision.Proofs.Omissions
import Supervision.Proofs.Counterparts
import Supervision.Proofs.Containment
import Supervision.Proofs.RedundantCalls
import Supervision.Proofs.PendingDelays
import Supervision.Proofs.PendingTasks
import Supervision.Proofs.Cancellations
import Supervision.Proofs.Accounts
import Supervision.Proofs.Instants
import Supervision.Proofs.Standings
import Supervision.Proofs.Requests
import Supervision.Proofs.RestartCounts
import Supervision.Proofs.Endurance
import Supervision.Proofs.Independence
import Supervision.Proofs.VariedDelays
import Supervision.Proofs.Throttling
import Supervision.Proofs.Ceilings
import Supervision.Proofs.SeparateIds
