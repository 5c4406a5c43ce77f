import CarbonMessaging.RegistryClient
import CarbonMessaging.QpidAuthorizationHandler
import CarbonMessaging.ReferenceLedger
import CarbonMessaging.RegistryConfinement
import CarbonMessaging.QueueReferenceCounts
import CarbonMessaging.FaultyTriples
import CarbonMessaging.QueueManagementBeans
import CarbonMessaging.QueueManagerServiceImpl
import CarbonMessaging.RegistrationErasure
import CarbonMessaging.RefusedRequests
import CarbonMessaging.CellHistory
import CarbonMessaging.PermissionHistory
import CarbonMessaging.TenantIsolation
import CarbonMessaging.GrantHistory
import CarbonMessaging.PermissionAgreement
import CarbonMessaging.CarbonBasedPrincipalDatabase
import CarbonMessaging.LoginContext
import CarbonMessaging.QpidAuthorizationPlugin
import CarbonMessaging.WireUserNames
import CarbonMessaging.AuthenticationOutcome
import CarbonMessaging.OperationMediation
import CarbonMessaging.InterleavedUpdates
import CarbonMessaging.ConcurrentSharing
import CarbonMessaging.CreationFailures
import CarbonMessaging.CreateDeleteInverse
import CarbonMessaging.AdminConfinement
import CarbonMessaging.DomainFilters
import CarbonMessaging.QueueListings
import CarbonMessaging.SubscriptionListings
import CarbonMessaging.PathChildren
import CarbonMessaging.RegistryListings
import CarbonMessaging.SubscriptionKeys
import CarbonMessaging.QueueDirectory
import CarbonMessaging.FilteredLists
import CarbonMessaging.UriComponent
import CarbonMessaging.RolePermissionForm
import CarbonMessaging.JavaScriptNumbers
import CarbonMessaging.ConditionalRuns
import CarbonMessaging.MessageRatePage
import CarbonMessaging.ChartCompleteness
import CarbonMessaging.ChartSelection
import CarbonMessaging.MessageStatusPage
import CarbonMessaging.OverlappingPages
import CarbonMessaging.StatusPaging
import CarbonMessaging.SharedConnection
import CarbonMessaging.MessageContent
import CarbonMessaging.BrokerPorts
import CarbonMessaging.ConsoleOutcome
import CarbonMessaging.TopicWildcards
import CarbonMessaging.TenantPrefixes
import CarbonMessaging.QueueIdentity
import CarbonMessaging.AdminNotions
import CarbonMessaging.QueueVisibility
import CarbonMessaging.CreatorAccess
import CarbonMessaging.PageRequests
import CarbonMessaging.SinglePrecision
import CarbonMessaging.NodeQueuePages
import CarbonMessaging.TopicSubscriptionPages
import CarbonMessaging.PermissionUpdates
import CarbonMessaging.AdminListings
import CarbonMessaging.BackendRoles
import CarbonMessaging.BrowsedMessages
import CarbonMessaging.SubscriptionRecords
import CarbonMessaging.ContentCompleteness
import CarbonMessaging.StatusRange
import CarbonMessaging.DefaultSort
import CarbonMessaging.RateSeries
import CarbonMessaging.ChartAssembly
import CarbonMessaging.CountLabel
import CarbonMessaging.DomainOwnership
import CarbonMessaging.UserLookup
import CarbonMessaging.OptionMarkup
import CarbonMessaging.RerouteDialog
import CarbonMessaging.PostedTables
import CarbonMessaging.SavedTable
import CarbonMessaging.DeadLetterSelection
import CarbonMessaging.BrokerService
import CarbonMessaging.ServiceStartup
import CarbonMessaging.MessageSender
import CarbonMessaging.TwoRuns
import CarbonMessaging.TenantViews
import CarbonMessaging.TenantBlindness
import CarbonMessaging.RequestFrames
import CarbonMessaging.TenantNoninterference
import CarbonMessaging.SubscriptionBoard
import CarbonMessaging.StatusFilter
import CarbonMessaging.ChangedControls
