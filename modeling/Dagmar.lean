import Dagmar.Library.Calendar
import Dagmar.Library.Table
import Dagmar.Library.Outcome
import Dagmar.Library.Pairing
import Dagmar.Library.Interleaving
import Dagmar.Library.History
import Dagmar.Library.Paging
import Dagmar.Library.Routing
import Dagmar.Text
import Dagmar.IsoText
import Dagmar.Json
import Dagmar.JsonText
import Dagmar.Base64
import Dagmar.CmlAssertion
import Dagmar.CmlWeb
import Dagmar.CmlNonces
import Dagmar.Routes
import Dagmar.CmlProfiles
import Dagmar.OAuthTransactions
import Dagmar.Lockout
import Dagmar.PragueTime
import Dagmar.Schema
import Dagmar.TimeIntervals
import Dagmar.TimeMetrics
import Dagmar.MonthSummary
import Dagmar.DailyMetrics
import Dagmar.Access
import Dagmar.DayStatus
import Dagmar.EventMutations
import Dagmar.EventApi
import Dagmar.IntegrationLists
import Dagmar.ShiftPlanApi
import Dagmar.EmploymentApi
import Dagmar.LockApi
import Dagmar.Requests
import Dagmar.Transactions
import Dagmar.Credentials
import Dagmar.ResetDelivery
import Dagmar.Proofs.Pairs
import Dagmar.Proofs.DayWalls
import Dagmar.Proofs.Summaries
import Dagmar.Proofs.MetricRows
import Dagmar.Proofs.CachedSummaries
import Dagmar.Proofs.RebuildScript
import Dagmar.Proofs.PlanUpserts
import Dagmar.Proofs.EventInterfaces
import Dagmar.Proofs.Pauses
import Dagmar.Proofs.Sessions
import Dagmar.Proofs.EventEffects
import Dagmar.Proofs.DayEffects
import Dagmar.Proofs.AdminEffects
import Dagmar.Proofs.Transitions
import Dagmar.Proofs.PeriodContainment
import Dagmar.Proofs.DayExclusivity
import Dagmar.Proofs.LockSafety
import Dagmar.Proofs.LockOrder
import Dagmar.Proofs.MetricsInvariant
import Dagmar.Proofs.AutomaticPauses
import Dagmar.Proofs.Backfilling
import Dagmar.Proofs.Revocation
import Dagmar.Proofs.ResetTokens
import Dagmar.Proofs.Pagination
import Dagmar.Proofs.ScopeIsolation
import Dagmar.Proofs.Assertions
import Dagmar.Proofs.SingleUse
import Dagmar.Proofs.CentralConfinement
import Dagmar.Proofs.RouteAgreement
import Dagmar.Proofs.Provisioning
import Dagmar.Proofs.OneTimeLogins
import Dagmar.Proofs.FailureCounts
import Dagmar.SessionCookies
import Dagmar.Proofs.CookieSafety
import Dagmar.Library.Attempts
import Dagmar.Reminders
import Dagmar.Proofs.ReminderOrder
import Dagmar.IntegrationSecrets
import Dagmar.Proofs.SingleSecret
import Dagmar.EmploymentGroups
import Dagmar.Proofs.GroupSizes
import Dagmar.AdvisoryLocks
import Dagmar.Proofs.AdvisorySafety
import Dagmar.Proofs.StatusRepeats
import Dagmar.Library.Coverage
import Dagmar.Proofs.BreakPieces
import Dagmar.Proofs.MinuteCounting
import Dagmar.Proofs.PlanTexts
import Dagmar.TimeInput
import Dagmar.Proofs.TimeFields
import Dagmar.Proofs.RealTime
import Dagmar.MonthPayloads
import Dagmar.PlanPayloads
import Dagmar.Proofs.PlannedTotals
import Dagmar.Proofs.NeighbourDeletion
import Dagmar.Proofs.DeletionPartners
import Dagmar.Proofs.StatusReplacement
import Dagmar.Proofs.PeriodChanges
import Dagmar.Proofs.AutoLocks
import Dagmar.Proofs.PairedCreation
import Dagmar.Proofs.PausePlacement
import Dagmar.Proofs.FailureWindows
import Dagmar.RateLimits
import Dagmar.Proofs.RateWindows
import Dagmar.LoginWindow
import Dagmar.Proofs.LoginSelection
import Dagmar.PortalAccounts
import Dagmar.Proofs.PasswordRoundTrip
import Dagmar.Proofs.CredentialFilter
import Dagmar.CursorTexts
import Dagmar.Proofs.ListAnswers
import Dagmar.Proofs.SessionTotality
import Dagmar.EventMigration
import Dagmar.Proofs.MigratedEvents
import Dagmar.Library.Csv
import Dagmar.CsvExport
import Dagmar.Proofs.ExportedFacts
import Dagmar.Library.Slug
import Dagmar.BulkExport
import Dagmar.Proofs.BulkNames
import Dagmar.Proofs.PairingLaws
import Dagmar.Library.Computus
import Dagmar.HolidayCalendars
import Dagmar.Proofs.HolidayLabels
import Dagmar.Library.FileTree
import Dagmar.Library.Retention
import Dagmar.ReleaseCleanup
import Dagmar.Proofs.ReleaseRetention
import Dagmar.ExternalAuth
import Dagmar.Proofs.IdentityHistory
import Dagmar.Proofs.LinkedIdentities
import Dagmar.JsonValues
import Dagmar.Proofs.CursorRoundTrip
import Dagmar.Library.Wrapping
import Dagmar.Library.Boxes
import Dagmar.PrintLayout
import Dagmar.Proofs.PrintedTexts
import Dagmar.Proofs.ReportPages
import Dagmar.Proofs.PrintedPages
import Dagmar.Proofs.GroupViews
import Dagmar.Library.SortedSets
import Dagmar.IntegrationAdmin
import Dagmar.Proofs.ClientForms
import Dagmar.Proofs.ListedMonths
import Dagmar.CsrfTokens
import Dagmar.Proofs.CsrfSafety
import Dagmar.MonthOverviews
import Dagmar.Proofs.MonthViews
import Dagmar.OfflineQueue
import Dagmar.Proofs.OfflineReplay
import Dagmar.GroupDirectory
import Dagmar.Proofs.GroupNames
