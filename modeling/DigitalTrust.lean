import DigitalTrust.IssueOnce
import DigitalTrust.TenantUsers
import DigitalTrust.ServiceListings
import DigitalTrust.DefaultConnector
import DigitalTrust.StatusCascade
import DigitalTrust.SessionBinding
import DigitalTrust.InviteClaims
import DigitalTrust.AdapterRegistry
import DigitalTrust.LogAccess
import DigitalTrust.TractionTokens
import DigitalTrust.IssuanceProfiles
import DigitalTrust.UserChanges
import DigitalTrust.ClientChanges
import DigitalTrust.ConnectorUpdates
import DigitalTrust.RoleScopes
import DigitalTrust.ProtocolOutcomes
import DigitalTrust.ExchangeProgress
import DigitalTrust.TractionRequests
import DigitalTrust.WebhookRegistration
import DigitalTrust.RegistrationWorker
import DigitalTrust.OperationViews
import DigitalTrust.CredentialRevoke
import DigitalTrust.SessionLimit
import DigitalTrust.SessionGrants
import DigitalTrust.WebhookAgreement
import DigitalTrust.RateLimits
import DigitalTrust.ProfileReferences
import DigitalTrust.TokenScopes
import DigitalTrust.OidcPurge
import DigitalTrust.BatchPoll
import DigitalTrust.UpstreamTokens
import DigitalTrust.AuthClient
import DigitalTrust.ConnectionEvents
import DigitalTrust.ConnectionStates
import DigitalTrust.DeferredMetrics
import DigitalTrust.TenantUserListing
import DigitalTrust.PresentationDefinitions
import DigitalTrust.OperationExpiry
import DigitalTrust.ConnectorUrlGuard
import DigitalTrust.FormatValidators
import DigitalTrust.AuditExport
import DigitalTrust.RegistrationErrors
import DigitalTrust.AuditPartitions
