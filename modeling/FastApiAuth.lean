import FastApiAuth.Library.Runs
import FastApiAuth.Library.Tables
import FastApiAuth.Library.ExpiringStore
import FastApiAuth.Library.Processes
import FastApiAuth.Library.Linearization
import FastApiAuth.Library.Ladders
import FastApiAuth.Library.PyInt
import FastApiAuth.Library.FixedWindow
import FastApiAuth.Library.Base64
import FastApiAuth.Library.SortedByKey
import FastApiAuth.Library.TiedOrders
import FastApiAuth.Library.Chunks
import FastApiAuth.Library.PyCsv
import FastApiAuth.Library.Separators
import FastApiAuth.Library.PyStr
import FastApiAuth.Library.PyJson
import FastApiAuth.Library.JsonLimits
import FastApiAuth.Library.Utf8
import FastApiAuth.Library.CsvLineEnds
import FastApiAuth.Library.RaisingLoop
import FastApiAuth.Models
import FastApiAuth.Jwt
import FastApiAuth.TokenBlacklist
import FastApiAuth.Revocation
import FastApiAuth.Schemas
import FastApiAuth.Server
import FastApiAuth.Auth
import FastApiAuth.OAuth
import FastApiAuth.Users
import FastApiAuth.Admin
import FastApiAuth.Api
import FastApiAuth.Pagination
import FastApiAuth.FileValidation
import FastApiAuth.Files
import FastApiAuth.Middleware
import FastApiAuth.WebSockets
import FastApiAuth.Dependencies
import FastApiAuth.HandlerRules
import FastApiAuth.Effects
import FastApiAuth.Origins
import FastApiAuth.RedisKeys
import FastApiAuth.TokenBinding
import FastApiAuth.ResetRace
import FastApiAuth.OAuthGates
import FastApiAuth.Verification
import FastApiAuth.Provenance
import FastApiAuth.Privileges
import FastApiAuth.SignInMethods
import FastApiAuth.UnlinkRace
import FastApiAuth.OAuthFlow
import FastApiAuth.SignIns
import FastApiAuth.CanonicalEmails
import FastApiAuth.Cleanup
import FastApiAuth.StableIdentity
import FastApiAuth.UnlinkLockout
import FastApiAuth.Migrations
import FastApiAuth.AlembicWalks
import FastApiAuth.RateLimiting
import FastApiAuth.RateLimitFaults
import FastApiAuth.CursorWalk
import FastApiAuth.OffsetWalk
import FastApiAuth.ClientBuckets
import FastApiAuth.FileAtomicity
import FastApiAuth.FileCorrespondence
import FastApiAuth.FileIsolation
import FastApiAuth.FileRaces
import FastApiAuth.RedisIsolation
import FastApiAuth.ResponseStamps
import FastApiAuth.HubMoves
import FastApiAuth.Causes
import FastApiAuth.Deliveries
import FastApiAuth.Settlement
import FastApiAuth.Authenticity
import FastApiAuth.SocketAuthorization
import FastApiAuth.Search
import FastApiAuth.StreamValidation
import FastApiAuth.CsvSamples
import FastApiAuth.ContentTypes
import FastApiAuth.CallbackAtomicity
import FastApiAuth.UnlinkCompleteness
import FastApiAuth.Publishing
import FastApiAuth.ListenerFaults
import FastApiAuth.FrameProtocol
import FastApiAuth.RegistrationAtomicity
import FastApiAuth.EmailRace
import FastApiAuth.AccountOracle
import FastApiAuth.DeprecationLinks
import FastApiAuth.EndpointLimits
import FastApiAuth.Failures
import FastApiAuth.RbacSeeding
import FastApiAuth.DefaultRole
import FastApiAuth.RoleRaces
import FastApiAuth.AccountAccess
import FastApiAuth.AccountDirectory
import FastApiAuth.CleanupRace
import FastApiAuth.CleanupSchedule
import FastApiAuth.TokenStamps
import FastApiAuth.Sessions
import FastApiAuth.MailedTokens
import FastApiAuth.TokenFamilies
import FastApiAuth.ConnectionManager
import FastApiAuth.CursorCodec
import FastApiAuth.StorageKeys
import FastApiAuth.Passwords
import FastApiAuth.LogStream
