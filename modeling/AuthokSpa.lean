import AuthokSpa.Machine
import AuthokSpa.Expiring
import AuthokSpa.Storage
import AuthokSpa.Client.SessionCookies
import AuthokSpa.Js.Uri
import AuthokSpa.Js.Base64
import AuthokSpa.Js.Format
import AuthokSpa.Cache.Provenance
import AuthokSpa.Cache.ManifestSync
import AuthokSpa.Cache.Completeness
import AuthokSpa.Cache.Isolation
import AuthokSpa.Js.Json
import AuthokSpa.Client.Config
import AuthokSpa.Client.Requests
import AuthokSpa.Client.OptionFlow
import AuthokSpa.Js.Date
import AuthokSpa.Jwt
import AuthokSpa.Jwt.Issue
import AuthokSpa.Jwt.Leeway
import AuthokSpa.Client.Flows
import AuthokSpa.Client.Acceptance
import AuthokSpa.Client.Organization
import AuthokSpa.Client.MaxAge
import AuthokSpa.Client.CodeFlow
import AuthokSpa.Client.Keys
import AuthokSpa.Worker
import AuthokSpa.Client.Silent
import AuthokSpa.Client.Coalesce
import AuthokSpa.Client.Logout
import AuthokSpa.Client.Locking
import AuthokSpa.LockLog
import AuthokSpa.Cache.Async
import AuthokSpa.Client.LogoutRace
import AuthokSpa.Js.Form
import AuthokSpa.Worker.Messages
import AuthokSpa.Http
import AuthokSpa.Client.Grants
import AuthokSpa.Windows
import AuthokSpa.Worker.Slots
import AuthokSpa.Jwt.Valid
import AuthokSpa.Cache.Lifetime
import AuthokSpa.Client.Detailed
import AuthokSpa.Client.Transactions
import AuthokSpa.Client.Login
import AuthokSpa.Commit
import AuthokSpa.Client.Visibility
import AuthokSpa.Cache.Reads
import AuthokSpa.Cache.Eviction
import AuthokSpa.Cache.Backends
import AuthokSpa.Client.Failures
import AuthokSpa.SinglePromise
import AuthokSpa.Js.JsonRound
import AuthokSpa.Jwt.Decode
import AuthokSpa.Js.UriRound
import AuthokSpa.Client.Callback
import AuthokSpa.Js.FormRound
import AuthokSpa.Client.Bodies
import AuthokSpa.Client.Queries
import AuthokSpa.Cache.Clearing
import AuthokSpa.Client.Storing
import AuthokSpa.Follow
import AuthokSpa.Client.Calls
import AuthokSpa.Client.CheckSession
import AuthokSpa.Client.Provider
import AuthokSpa.Client.Completion
import AuthokSpa.Client.Users
import AuthokSpa.Fibers
import AuthokSpa.Client.Handover
import AuthokSpa.Client.Guessing
import AuthokSpa.Client.LogoutUrl
