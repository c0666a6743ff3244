import CommitteeSync.Config.Lookup
import CommitteeSync.Fatal.Waits
import CommitteeSync.Guard.Registry
import CommitteeSync.Proofs.Deferral
import CommitteeSync.Proofs.EpochCommit
import CommitteeSync.Proofs.History
import CommitteeSync.Proofs.Monotone
import CommitteeSync.Proofs.Override
import CommitteeSync.Scenario.Script
import CommitteeSync.Store.Pool
import CommitteeSync.Proofs.TaskCalls
import CommitteeSync.Proofs.Cancellation
import CommitteeSync.Proofs.TxProtocol
import CommitteeSync.Proofs.StartupTurns
import CommitteeSync.Proofs.StartupCourse
import CommitteeSync.Proofs.CorruptRecord
import CommitteeSync.Proofs.Isolation
import CommitteeSync.Proofs.ListenerFold
import CommitteeSync.Proofs.Tally
import CommitteeSync.Proofs.AllOrNothing
import CommitteeSync.Proofs.Visits
import CommitteeSync.Proofs.PassCourse
import CommitteeSync.Proofs.AbortIsolation
import CommitteeSync.Proofs.Driven
import CommitteeSync.Proofs.PassAlone
import CommitteeSync.Proofs.Targets
import CommitteeSync.Proofs.MovingHead
import CommitteeSync.Proofs.RunnerCalls
import CommitteeSync.Proofs.RunnerLifecycle
import CommitteeSync.Proofs.WriteCounts
import CommitteeSync.Proofs.EpochSlice
import CommitteeSync.Proofs.TwoPaths
import CommitteeSync.Proofs.HeadOutcomes
import CommitteeSync.Proofs.TornRecord
import CommitteeSync.Proofs.EpochSpans
import CommitteeSync.Proofs.PastLastSlot
import CommitteeSync.Proofs.FirstError
import CommitteeSync.Proofs.Configuration
import CommitteeSync.Proofs.GateFamilies
import CommitteeSync.Proofs.OpenChoices
