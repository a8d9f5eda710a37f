import LeagueSync.Http.Crowd
import LeagueSync.Main
import LeagueSync.Throttle.Limiter
import LeagueSync.Proofs.TimedBucket
import LeagueSync.Proofs.TokenAccount
import LeagueSync.Proofs.PoolSchedule
import LeagueSync.Proofs.BatchAgreement
import LeagueSync.Proofs.Generations
import LeagueSync.Proofs.RetryBudget
import LeagueSync.Proofs.RequestCourse
import LeagueSync.Proofs.PermitAccount
import LeagueSync.Proofs.SharedLimiter
import LeagueSync.Proofs.CrowdSchedule
import LeagueSync.Proofs.WorkerSchedule
import LeagueSync.Proofs.EntrySchedule
import LeagueSync.Proofs.GameweekAgreement
import LeagueSync.Proofs.EagerCache
import LeagueSync.Proofs.BulkReads
import LeagueSync.Proofs.ReadThrough
import LeagueSync.Proofs.RunHistory
import LeagueSync.Proofs.StoredTimes
import LeagueSync.Proofs.GameweekStaleness
import LeagueSync.Proofs.BatchRefresh
import LeagueSync.Proofs.SharedCache
import LeagueSync.Proofs.RetryWaits
import LeagueSync.Proofs.BulkReadThrough
import LeagueSync.Proofs.RefusedAttempts
import LeagueSync.Proofs.RequestedWait
import LeagueSync.Proofs.EntryUpserts
import LeagueSync.Proofs.GameweekUpserts
import LeagueSync.Proofs.SyncEffects
import LeagueSync.Proofs.RunListing
import LeagueSync.Proofs.RecordRoundTrips
import LeagueSync.Proofs.StoreAccounts
import LeagueSync.Proofs.JobMetrics
import LeagueSync.Proofs.SeasonNames
import LeagueSync.Proofs.ReferenceExpansion
import LeagueSync.Proofs.ConfigDefaults
import LeagueSync.Proofs.SchedulerRate
import LeagueSync.Proofs.RouteLabels
