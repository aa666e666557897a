import PyCommon.Lib.Runs
import PyCommon.Lib.Outcomes
import PyCommon.Lib.Separated
import PyCommon.Lib.Numerals
import PyCommon.Lib.Recency
import PyCommon.Lib.Windows
import PyCommon.Lib.Leases
import PyCommon.Lib.Keyset
import PyCommon.Lib.Slices
import PyCommon.Lib.Base64
import PyCommon.Lib.CodePoints
import PyCommon.Lib.Json
import PyCommon.Lib.JsonTexts
import PyCommon.Lib.JsonScalars
import PyCommon.Lib.IsoTimes
import PyCommon.Lib.PythonValues
import PyCommon.Lib.PythonJson
import PyCommon.Lib.PythonEquality
import PyCommon.Lib.PythonReprs
import PyCommon.Lib.Phrases
import PyCommon.Lib.Glob
import PyCommon.Lib.Handles
import PyCommon.Lib.HeaderLists
import PyCommon.Lib.Dictionaries
import PyCommon.Lib.Html
import PyCommon.Lib.Coroutines
import PyCommon.Lib.PercentEncoding
import PyCommon.Lib.QueryStrings
import PyCommon.Lib.Interpolation
import PyCommon.Lib.StableSorts
import PyCommon.Problem
import PyCommon.Utils.CircuitBreaker
import PyCommon.Utils.BreakerRuns
import PyCommon.Utils.BreakerProbes
import PyCommon.Utils.BreakerFailures
import PyCommon.Utils.Ids
import PyCommon.Runtime.GrpcChannelPool
import PyCommon.Runtime.Draining
import PyCommon.Runtime.Lifespan
import PyCommon.Runtime.GrpcServing
import PyCommon.Runtime.GrpcInterceptors
import PyCommon.Runtime.GrpcCalls
import PyCommon.Runtime.Correlation
import PyCommon.Testing.Routes
import PyCommon.Testing.Fakes
import PyCommon.Testing.Repository
import PyCommon.Cache.RateLimit
import PyCommon.Cache.FixedWindow
import PyCommon.Cache.ParseRate
import PyCommon.Cache.FixedWindowBound
import PyCommon.Cache.StackedRates
import PyCommon.Cache.Agreement
import PyCommon.Cache.Lock
import PyCommon.Cache.LockExit
import PyCommon.Cache.CacheAside
import PyCommon.Cache.FactoryRuns
import PyCommon.Cache.FailOpen
import PyCommon.Cache.Stampede
import PyCommon.Cache.Invalidation
import PyCommon.Cache.Clear
import PyCommon.Cache.JsonSerializer
import PyCommon.Cache.CachedKeys
import PyCommon.Http.Idempotency.Identity
import PyCommon.Http.Idempotency.Answers
import PyCommon.Http.Idempotency.Body
import PyCommon.Http.Idempotency.Recorder
import PyCommon.Http.Idempotency.Protocol
import PyCommon.Http.Idempotency.Steps
import PyCommon.Http.Idempotency.Reservation
import PyCommon.Http.Idempotency.Stranding
import PyCommon.Http.Idempotency.Records
import PyCommon.Http.Idempotency.Sharing
import PyCommon.Http.Idempotency.Delivery
import PyCommon.Http.Idempotency.Replay
import PyCommon.Http.Idempotency.Transparency
import PyCommon.Http.Middleware.Layers
import PyCommon.Http.Middleware.Nest
import PyCommon.Http.Middleware.BodyLimit
import PyCommon.Http.Middleware.OneResponse
import PyCommon.Http.Middleware.SecurityHeaders
import PyCommon.Http.Middleware.Metrics
import PyCommon.Http.Stack
import PyCommon.Http.RequestIds
import PyCommon.Http.ErrorHandlers
import PyCommon.Http.ProblemPages
import PyCommon.Http.Middleware.RateLimit
import PyCommon.Http.Health
import PyCommon.Http.MaskedQuery
import PyCommon.Http.Pagination
import PyCommon.Http.JsonResponse
import PyCommon.Security.Keycloak
import PyCommon.Testing.Tokens
import PyCommon.Security.ServiceToken
import PyCommon.Config.Environment
import PyCommon.Config.Dsn
import PyCommon.Security.Requirements
import PyCommon.Security.Describe
import PyCommon.Security.Grants
import PyCommon.Persistence.Pagination
import PyCommon.Persistence.CursorKeys
import PyCommon.Persistence.KeyTypes
import PyCommon.Persistence.KeyTexts
import PyCommon.Persistence.KeysetWalk
import PyCommon.Persistence.OffsetWalk
import PyCommon.Persistence.UnitOfWork
import PyCommon.Persistence.QueryLogging
import PyCommon.Telemetry.Providers
import PyCommon.Storage.Client
