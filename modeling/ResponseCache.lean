import ResponseCache.Lru.Basic
import ResponseCache.Store.Basic
import ResponseCache.Operation
import ResponseCache.Json.Parser
import ResponseCache.Json.Printer
import ResponseCache.Text.Blank
import ResponseCache.Text.Quoted
import ResponseCache.Text.Percent
import ResponseCache.Text.Timestamp
import ResponseCache.Key.Sections
import ResponseCache.Packing
import ResponseCache.Settings
import ResponseCache.Validator
import ResponseCache.Program
import ResponseCache.Service.Basic
import ResponseCache.Http.Template
import ResponseCache.Route.Rule
import ResponseCache.Middleware
import ResponseCache.Admin
import ResponseCache.App
import ResponseCache.Simulation.Session
import ResponseCache.Proofs.Lru.Refinement
import ResponseCache.Proofs.Lru.Inclusion
import ResponseCache.Proofs.Middleware.Transparent
import ResponseCache.Proofs.Store.Account
import ResponseCache.Proofs.Store.Locks
import ResponseCache.Proofs.Store.Retention
import ResponseCache.Proofs.Pool.Sessions
import ResponseCache.Proofs.Middleware.Replay
import ResponseCache.Proofs.Middleware.Exclusion
import ResponseCache.Proofs.Middleware.Keys
import ResponseCache.Proofs.Middleware.Procedure
import ResponseCache.Proofs.Middleware.Storing
import ResponseCache.Proofs.Middleware.Leaks
import ResponseCache.Proofs.Middleware.Once
import ResponseCache.Proofs.Pool.Tally
import ResponseCache.Proofs.Validator.Interning
import ResponseCache.Proofs.Json.Same
import ResponseCache.Proofs.Key.Congruence
import ResponseCache.Proofs.Store.Invalidation
import ResponseCache.Proofs.Store.Sweeping
import ResponseCache.Proofs.Decimal.Rounding
import ResponseCache.Proofs.Json.Number
import ResponseCache.Proofs.Validator.Requests
import ResponseCache.Proofs.Program.Timeline
import ResponseCache.Proofs.Service.Waiting
import ResponseCache.Proofs.Store.Cleanup
import ResponseCache.Proofs.Middleware.PassThrough
import ResponseCache.Proofs.Gzip.Extent
import ResponseCache.Proofs.Gzip.Integrity
import ResponseCache.Proofs.Middleware.Marks
import ResponseCache.Proofs.Middleware.Releases
import ResponseCache.Proofs.Service.Mutations
import ResponseCache.Proofs.Settings.Environment
import ResponseCache.Proofs.Json.Canonical
import ResponseCache.Proofs.Rates
