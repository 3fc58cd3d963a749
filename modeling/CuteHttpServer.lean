import CuteHttpServer.RoundTrip
import CuteHttpServer.IncrementalParse
import CuteHttpServer.AcceptanceSoundness
import CuteHttpServer.BodyFraming
import CuteHttpServer.RequestIsolation
import CuteHttpServer.DispatchHistory
import CuteHttpServer.RequestDelivery
import CuteHttpServer.SessionContinuity
import CuteHttpServer.SessionSafety
import CuteHttpServer.ResponseLength
import CuteHttpServer.CorsPolicy
import CuteHttpServer.StatusLines
import CuteHttpServer.RouteWildcards
import CuteHttpServer.ReverseRouting
import CuteHttpServer.SessionCreation
import CuteHttpServer.ErrorResponses
import CuteHttpServer.MiddlewareBracketing
import CuteHttpServer.ConnectionField
import CuteHttpServer.HeaderSpelling
import CuteHttpServer.RequestLineForm
import CuteHttpServer.RouteReach
import CuteHttpServer.SessionExpiry
import CuteHttpServer.CredentialPolicy
import CuteHttpServer.QueryStrings
import CuteHttpServer.ParseBounds
import CuteHttpServer.SessionStorage
import CuteHttpServer.SslConnections
import CuteHttpServer.UnitQueue
import CuteHttpServer.RequestService
import CuteHttpServer.RequestOrder
import CuteHttpServer.ConnectionIsolation
import CuteHttpServer.StreamAccounting
import CuteHttpServer.SessionIds
import CuteHttpServer.SessionLife
import CuteHttpServer.ResponseSetters
import CuteHttpServer.CookieExchange
import CuteHttpServer.SslContext
import CuteHttpServer.SslPointers
import CuteHttpServer.StateTriple
import CuteHttpServer.HandlingRules
import CuteHttpServer.ResponseStream
import CuteHttpServer.ParseWork
import CuteHttpServer.StuckConnection
import CuteHttpServer.RequestExchange
import CuteHttpServer.ServerFacade
import CuteHttpServer.ResourceExchange
import CuteHttpServer.HandlerOrder
import CuteHttpServer.SessionService
