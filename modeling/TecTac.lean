import TecTac.Lib.Timeline
import TecTac.Lib.Calendar
import TecTac.Lib.Entries
import TecTac.Lib.Zone
import TecTac.Lib.Text
import TecTac.Lib.Json
import TecTac.Lib.Dict
import TecTac.Lib.Raise
import TecTac.Lib.Steps
import TecTac.Lib.DepthFirst
import TecTac.Schedule
import TecTac.Occurrence
import TecTac.Visibility
import TecTac.Run
import TecTac.Dispatch
import TecTac.RunSystem
import TecTac.World
import TecTac.EligibleDate
import TecTac.Lemmas.Occurrence
import TecTac.Lemmas.Dispatch
import TecTac.Theorems.NotEarly
import TecTac.Lemmas.Run
import TecTac.Theorems.Terminal
import TecTac.Theorems.BoundedHandler
import TecTac.Theorems.Completion
import TecTac.Theorems.StaleRecovery
import TecTac.Lemmas.World
import TecTac.Theorems.SkipConcurrency
import TecTac.Theorems.OncePerDate
import TecTac.Theorems.Baseline
import TecTac.EventJob
import TecTac.EventJobSystem
import TecTac.Lemmas.EventJob
import TecTac.Theorems.EventJobInvariant
import TecTac.Theorems.LateAttempt
import TecTac.Publish
import TecTac.Theorems.NoLostEvent
import TecTac.Payload
import TecTac.ScheduleEdit
import TecTac.Reconcile
import TecTac.ScheduleWriters
import TecTac.Lemmas.Payload
import TecTac.Lemmas.ScheduleEdit
import TecTac.Theorems.StoredShape
import TecTac.Theorems.OwnershipFollows
import TecTac.Theorems.PersonSchedule
import TecTac.Replacement
import TecTac.JobHelper
import TecTac.Theorems.ReplacementTwin
import TecTac.Lemmas.JobHelper
import TecTac.Theorems.NeverBothEnabled
import TecTac.ModuleManager
import TecTac.Lemmas.ModuleManager
import TecTac.Theorems.DependencyClosure
import TecTac.InstallPlan
import TecTac.InstallJob
import TecTac.Lemmas.InstallJob
import TecTac.Theorems.FailedInstall
import TecTac.Lemmas.InstallPlan
import TecTac.Intake
import TecTac.Theorems.IntakesAgree
import TecTac.PlanOutcome
import TecTac.Lemmas.PlanOutcome
import TecTac.Theorems.PlanKeepsDependencies
import TecTac.Lib.Document
import TecTac.SignedPlan
import TecTac.Theorems.OnlySigned
import TecTac.FilterSets
import TecTac.Lemmas.FilterSets
import TecTac.Theorems.FilterTotal
import TecTac.FilterEval
import TecTac.Theorems.FilterTwins
import TecTac.Lib.Machine
import TecTac.SessionSecurity
import TecTac.Lemmas.SessionSecurity
import TecTac.Theorems.RefusalFinal
import TecTac.Theorems.RevokedStays
import TecTac.Lib.Ranges
import TecTac.SystemActions
import TecTac.Lemmas.SystemActions
import TecTac.Theorems.SentOnce
import TecTac.SystemCommands
import TecTac.Theorems.CommandOnce
import TecTac.Delegation
import TecTac.DelegationSystem
import TecTac.Lemmas.Delegation
import TecTac.Theorems.OneRun
import TecTac.DelegationLedger
import TecTac.Lib.History
import TecTac.Theorems.NeverWidens
import TecTac.Repository
import TecTac.Version
import TecTac.Lemmas.Version
import TecTac.Theorems.AcceptedIndex
import TecTac.Theorems.OneOrder
import TecTac.EndpointTransport
import TecTac.Theorems.TakeoverConverges
import TecTac.ServerJobHooks
import TecTac.Theorems.HandedOnce
import TecTac.Lib.Cipher
import TecTac.SecretStore
import TecTac.Theorems.SecretMap
import TecTac.MfaBackup
import TecTac.Theorems.OneSet
import TecTac.Hotfix
import TecTac.Theorems.HotfixChain
import TecTac.ReleaseTree
import TecTac.Theorems.ReadersAgree
import TecTac.HotfixInspection
import TecTac.Theorems.InspectionPredicts
import TecTac.Lib.FileTree
import TecTac.RestoreRollback
import TecTac.Theorems.FailedRestore
import TecTac.RecoveryPayload
import TecTac.Theorems.PayloadInside
import TecTac.PublisherTrust
import TecTac.RestoreSecurity
import TecTac.Theorems.TrustKept
import TecTac.BackupDestination
import TecTac.RestoreValidation
import TecTac.Theorems.BoundEndpoint
import TecTac.Theorems.RestorePredicted
import TecTac.LegacyFormula
import TecTac.Theorems.LegacyMeaning
import TecTac.Lib.Layers
import TecTac.Theorems.InstallOrder
import TecTac.Theorems.CascadeClosure
import TecTac.IntakeSidecars
import TecTac.Theorems.SidecarsPaired
import TecTac.DelegationTargets
import TecTac.Theorems.ResolveTells
import TecTac.CommandTemplates
import TecTac.Theorems.SlotsStaySlots
import TecTac.ClientAddress
import TecTac.Theorems.ForgedAddress
import TecTac.AuditRecord
import TecTac.Theorems.ProvenanceKept
import TecTac.SystemWrites
import TecTac.Theorems.WritesAudited
import TecTac.Lib.FirstBest
import TecTac.OnlineCatalog
import TecTac.Theorems.ShownIsStaged
import TecTac.BackupJob
import TecTac.Theorems.JobGate
import TecTac.Lib.AddressClass
import TecTac.RemoteFetch
import TecTac.Theorems.GuardedFetch
import TecTac.EventCounters
import TecTac.Theorems.CountsKept
import TecTac.Lib.JsonText
import TecTac.EventIntake
import TecTac.Theorems.IntakeGrammar
import TecTac.ElapsedSeconds
import TecTac.Theorems.OccurrenceArithmetic
import TecTac.RecoveryCopies
import TecTac.Theorems.CopyKept
import TecTac.PluginInventory
import TecTac.Theorems.PluginsUnchanged
import TecTac.SchedulerTargets
import TecTac.Lemmas.SchedulerTargets
import TecTac.Theorems.OneScopeChannel
import TecTac.Theorems.CanonicalTargets
import TecTac.Lib.LinkTree
import TecTac.ArchiveLinks
import TecTac.Theorems.LinksInside
import TecTac.Retention
import TecTac.Theorems.RetentionOrder
import TecTac.TerminalTickets
import TecTac.Theorems.TicketOnce
import TecTac.AccountGuard
import TecTac.Theorems.NoEscalation
import TecTac.Lib.LongestPrefix
import TecTac.TacticalOperations
import TecTac.Theorems.RouteOwners
import TecTac.Lib.RollingCap
import TecTac.FailureEmails
import TecTac.Theorems.EmailsOnce
import TecTac.OperationRecord
import TecTac.Theorems.SecretsUnseen
import TecTac.SsoGuard
import TecTac.Theorems.SignInPossible
import TecTac.RemovedSchedules
import TecTac.Theorems.RemovedStays
