import Notifkit.Foundations.Runs
import Notifkit.Foundations.Outcome
import Notifkit.Foundations.Tables
import Notifkit.Api.PathGuards
import Notifkit.Pipeline.CallerKeys
import Notifkit.Pipeline.Fused
import Notifkit.Delivery.SendOnce
import Notifkit.Workflow.Sleeps
import Notifkit.Workflow.Flushes
import Notifkit.Workflow.Outputs
import Notifkit.Workflow.Answers
import Notifkit.Workflow.Endings
import Notifkit.Workflow.Locks
import Notifkit.Workflow.Definitions
import Notifkit.Foundations.KeyedRows
import Notifkit.Scheduler.Parking
import Notifkit.Scheduler.Poll
import Notifkit.Scheduler.Rebuild
import Notifkit.Scheduler.World
import Notifkit.Scheduler.Rebuilds
import Notifkit.Scheduler.Moves
import Notifkit.Scheduler.SendTimes
import Notifkit.Scheduler.Cancels
import Notifkit.Scheduler.Parked
import Notifkit.Scheduler.ParkedRuns
import Notifkit.Scheduler.KeptTasks
import Notifkit.Workflow.Waits
import Notifkit.Workflow.WaitMoves
import Notifkit.Workflow.WaitPolls
import Notifkit.Workflow.Watched
import Notifkit.Workflow.KeptWaits
import Notifkit.Workflow.SoloRuns
import Notifkit.Workflow.SuspendedWaits
import Notifkit.Workflow.Executions
import Notifkit.Workflow.StepsOnce
import Notifkit.Foundations.SlidingWindows
import Notifkit.RateLimiter.UserThrottle
import Notifkit.Workflow.DirectRuns
import Notifkit.Foundations.Doubles
import Notifkit.RateLimiter.ApiRateLimiter
import Notifkit.RateLimiter.TokenLeases
import Notifkit.Pipeline.Gates
import Notifkit.Scheduler.SendGate
import Notifkit.Delivery.MessageLogs
import Notifkit.Api.Webhooks
import Notifkit.Pipeline.Suppressions
import Notifkit.Pipeline.ParkingTimes
import Notifkit.Foundations.Cascades
import Notifkit.Pipeline.TaskRuns
import Notifkit.Pipeline.TaskOrigins
import Notifkit.Pipeline.Uncopied
import Notifkit.Pipeline.RunEnds
import Notifkit.Pipeline.FusedAgreement
import Notifkit.Queue.StreamGroup
import Notifkit.Workers.BaseWorker
import Notifkit.Workers.Dispositions
import Notifkit.Delivery.DispatchRows
import Notifkit.IdempotencyOwners
import Notifkit.Workers.Rejections
import Notifkit.Foundations.JsonPaths
import Notifkit.Workflow.Criteria
import Notifkit.Workflow.WaitResults
import Notifkit.Pipeline.QuietEnds
import Notifkit.Delivery.Budgets
import Notifkit.Delivery.RetryDecisions
import Notifkit.Delivery.Trips
import Notifkit.Delivery.TripBoards
import Notifkit.Delivery.TripRuns
import Notifkit.Foundations.Walks
import Notifkit.Pipeline.FallbackPlaces
import Notifkit.Pipeline.FallbackChains
import Notifkit.Pipeline.RepeatedDeliveries
import Notifkit.Shared.CircuitBreaker
import Notifkit.RateLimiter.Refusals
import Notifkit.Shared.LruCache
import Notifkit.Templates.TemplateCache
import Notifkit.Api.AuthCache
import Notifkit.Foundations.Upserts
import Notifkit.RateLimiter.ProjectSettingsCache
import Notifkit.Repositories.UserTables
import Notifkit.Repositories.UserUpserts
import Notifkit.Repositories.ContactTables
import Notifkit.Repositories.ContactUpserts
import Notifkit.Repositories.UserUpdates
import Notifkit.Repositories.ConcurrentUpdates
import Notifkit.Repositories.UserRecords
import Notifkit.Repositories.ContactCache
import Notifkit.Foundations.Base64url
import Notifkit.Foundations.GroupedPages
import Notifkit.Pipeline.DedupeIds
import Notifkit.Unsubscribe.Tokens
import Notifkit.Foundations.SortedSets
import Notifkit.Queue.DeadLetters
import Notifkit.Scheduler.PollScript
import Notifkit.Foundations.Placeholders
import Notifkit.Templates.Render
import Notifkit.Templates.Escapes
import Notifkit.Api.NotificationLogs
import Notifkit.Api.LogPages
import Notifkit.Api.UserPages
import Notifkit.Unsubscribe.OptOuts
import Notifkit.Foundations.BatchLoaders
import Notifkit.Pipeline.FanOuts
import Notifkit.Pipeline.FanOutRuns
import Notifkit.Api.ClientAddress
import Notifkit.Foundations.Promises
import Notifkit.Shared.BatchProcessor
import Notifkit.Delivery.LiveEvents
import Notifkit.Events.LogBooks
import Notifkit.Events.LogRuns
import Notifkit.Queue.PendingScanner
import Notifkit.Queue.ProducerBooks
import Notifkit.Queue.ProducerRuns
import Notifkit.Shared.BatchRuns
import Notifkit.Workers.HandOuts
import Notifkit.Ai.AiJobs
import Notifkit.Ai.AiRuns
import Notifkit.Pipeline.SuppressionLookups
import Notifkit.Auth.Sessions
import Notifkit.Queue.DeadLetterRuns
import Notifkit.Scheduler.Retention
import Notifkit.Delivery.Outbox
import Notifkit.Api.EventStreams
import Notifkit.Workers.Shutdown
