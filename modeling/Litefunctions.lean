import Litefunctions.AcceptedRequests
import Litefunctions.ActionTitles
import Litefunctions.ActivatedFunctions
import Litefunctions.AddressedHandlers
import Litefunctions.AddressedProjects
import Litefunctions.AddressedRows
import Litefunctions.AdmittedMembers
import Litefunctions.Agreements
import Litefunctions.Arrangements
import Litefunctions.AskedWrites
import Litefunctions.BrokerQueues
import Litefunctions.BrokerRequests
import Litefunctions.BuildBadges
import Litefunctions.BuiltRuntimes
import Litefunctions.ChallengeSessions
import Litefunctions.ChunkedRequests
import Litefunctions.CleanupOutcomes
import Litefunctions.CleanupPasses
import Litefunctions.CleanupReconciles
import Litefunctions.ClonedDirectories
import Litefunctions.ClosedChannels
import Litefunctions.ClusterCalls
import Litefunctions.CoherentRequests
import Litefunctions.CoherentRows
import Litefunctions.ConcurrentActivations
import Litefunctions.CreatedPaths
import Litefunctions.CreationRaces
import Litefunctions.CurrentSteps
import Litefunctions.DecimalText
import Litefunctions.EndedConsumers
import Litefunctions.EndpointPages
import Litefunctions.EnforcedMethods
import Litefunctions.ExecSubscriptions
import Litefunctions.ExecutionSubjects
import Litefunctions.FailedDeletions
import Litefunctions.FunctionController
import Litefunctions.FunctionCreations
import Litefunctions.FunctionFiles
import Litefunctions.FunctionIdentity
import Litefunctions.FunctionMirrors
import Litefunctions.FunctionObjects
import Litefunctions.FunctionRefreshes
import Litefunctions.FunctionService
import Litefunctions.GrantedLeases
import Litefunctions.HeldSubscriptions
import Litefunctions.HexText
import Litefunctions.HookSubjects
import Litefunctions.InterleavedPrograms
import Litefunctions.InterleavedRows
import Litefunctions.JoinRaces
import Litefunctions.JoinTransactions
import Litefunctions.LabelSelectors
import Litefunctions.Languages
import Litefunctions.LeakedSubscriptions
import Litefunctions.LeaseRenewals
import Litefunctions.LeftmostMatches
import Litefunctions.ListedCreations
import Litefunctions.LuaCopies
import Litefunctions.LuaHttp
import Litefunctions.LuaPatterns
import Litefunctions.MessageBroker
import Litefunctions.ModuleCaches
import Litefunctions.ModuleReloads
import Litefunctions.NatsFrames
import Litefunctions.NatsPolling
import Litefunctions.OperatorRuns
import Litefunctions.PagedFunctions
import Litefunctions.PartialSends
import Litefunctions.PasskeyBindings
import Litefunctions.PathTexts
import Litefunctions.PercentText
import Litefunctions.PlatformCalls
import Litefunctions.PlatformRuns
import Litefunctions.PortalCalls
import Litefunctions.PortalDatabase
import Litefunctions.PortalEndpoints
import Litefunctions.PortalFunctions
import Litefunctions.PortalPasskeys
import Litefunctions.PortalProjects
import Litefunctions.PortalQueries
import Litefunctions.PortalRequests
import Litefunctions.PortalRoutes
import Litefunctions.PortalSpecs
import Litefunctions.PrioritySearches
import Litefunctions.ProgramExpansions
import Litefunctions.ProgramSpecs
import Litefunctions.Programs
import Litefunctions.ProjectCookies
import Litefunctions.ProjectMembers
import Litefunctions.ProjectOwners
import Litefunctions.ProjectRoles
import Litefunctions.ProxiedBodies
import Litefunctions.ProxiedRequests
import Litefunctions.PublishedFiles
import Litefunctions.PublishedRequests
import Litefunctions.PythonConsumers
import Litefunctions.PythonModules
import Litefunctions.QueuedResults
import Litefunctions.QuotedCommands
import Litefunctions.ReconcileEffects
import Litefunctions.ReconciledSubscriptions
import Litefunctions.RefusedCreations
import Litefunctions.RegisteredFunctions
import Litefunctions.RejectedRequests
import Litefunctions.RelayedResults
import Litefunctions.RememberedRows
import Litefunctions.RepeatedDeliveries
import Litefunctions.RepeatedReconciles
import Litefunctions.ReplyDelivery
import Litefunctions.RepositoryContents
import Litefunctions.RepositoryUrls
import Litefunctions.RepositoryWalks
import Litefunctions.RequestHandlers
import Litefunctions.RequestedUpdates
import Litefunctions.ResultChannels
import Litefunctions.ResultOrigins
import Litefunctions.RoleChanges
import Litefunctions.RoleKeepingHandlers
import Litefunctions.RoleRequests
import Litefunctions.RouterPaths
import Litefunctions.RuntimeConsumers
import Litefunctions.RuntimeDeletions
import Litefunctions.RuntimeNames
import Litefunctions.RuntimeProcesses
import Litefunctions.RuntimeSelectors
import Litefunctions.SavedSessions
import Litefunctions.SelectedProjects
import Litefunctions.SeparatedText
import Litefunctions.SerializedRequests
import Litefunctions.SharedRuntimes
import Litefunctions.ShellWords
import Litefunctions.ShownFiles
import Litefunctions.StaleReads
import Litefunctions.StatusLeases
import Litefunctions.StoreCalls
import Litefunctions.SubjectOwners
import Litefunctions.SubjectPatterns
import Litefunctions.SubscriptionClients
import Litefunctions.SyncAnswers
import Litefunctions.SyncedFunctions
import Litefunctions.SystemRuns
import Litefunctions.Tables
import Litefunctions.TestedEndpoints
import Litefunctions.TokenRegistries
import Litefunctions.TouchedProjects
import Litefunctions.TsResults
import Litefunctions.UrlTexts
import Litefunctions.UserSessions
import Litefunctions.Utf8Text
import Litefunctions.VendorClients
import Litefunctions.VendorConflicts
import Litefunctions.VersionedStore
import Litefunctions.WebUrls
import Litefunctions.WorkflowImages
import Litefunctions.WorkflowReferences
import Litefunctions.WriteLogs
