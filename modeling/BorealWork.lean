import BorealWork.AcyclicityCheckers
import BorealWork.DependencyReport
import BorealWork.AcceptanceIsolation
import BorealWork.RollupOrder
import BorealWork.TimePolicyTimers
import BorealWork.StatusTimers
import BorealWork.ExpiredProgress
import BorealWork.Notifications
import BorealWork.ConcurrentDispatch
import BorealWork.HostElection
import BorealWork.TransportRoundTrip
import BorealWork.BundleScope
import BorealWork.IndexRepair
import BorealWork.ManifestPublication
import BorealWork.MemoryBundleRoundTrip
import BorealWork.JobLifecycle
import BorealWork.LeaseKeeping
import BorealWork.PlannedHierarchy
import BorealWork.RequestSeparation
import BorealWork.PayloadRedaction
import BorealWork.RestoreRevocation
import BorealWork.WaitTransitions
import BorealWork.DispositionHistory
import BorealWork.WeeklyRecurrence
import BorealWork.CycleCommitments
import BorealWork.CloseDecision
import BorealWork.ManagerRelationships
import BorealWork.RollupAccounting
import BorealWork.TzifExactness
import BorealWork.RetryDelays
import BorealWork.ExternalWaitScopes
import BorealWork.SecureDigest
import BorealWork.ReasonOrder
import BorealWork.TemplateTexts
import BorealWork.HierarchyQuarantine
import BorealWork.SchedulingPayload
import BorealWork.BackupRoundTrip
import BorealWork.NextActions
import BorealWork.AttemptFencing
