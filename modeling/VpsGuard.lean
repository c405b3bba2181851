import VpsGuard.Effect.Prog
import VpsGuard.Effect.Machine
import VpsGuard.Effect.Pool
import VpsGuard.Effect.Restart
import VpsGuard.Effect.Exclusive
import VpsGuard.Effect.Host
import VpsGuard.Effect.Fallible
import VpsGuard.Auth.RecoveryCode
import VpsGuard.Auth.PamMfa
import VpsGuard.Auth.PamDiscipline
import VpsGuard.Auth.PamFiles
import VpsGuard.Auth.PamCalls
import VpsGuard.Auth.PamEnrollment
import VpsGuard.Auth.PamStored
import VpsGuard.Auth.PamRecovery
import VpsGuard.Auth.SessionStore
import VpsGuard.Auth.Login
import VpsGuard.Auth.Enrollment
import VpsGuard.Auth.LoginRecovery
import VpsGuard.Auth.Recovery
import VpsGuard.Auth.Sessions
import VpsGuard.Budget.Layers
import VpsGuard.Core.Detection
import VpsGuard.Core.State
import VpsGuard.Core.Hysteresis
import VpsGuard.Core.Correlation
import VpsGuard.Core.Policy
import VpsGuard.Control.Update
import VpsGuard.System.AtomicStore
import VpsGuard.Provider.Transaction
import VpsGuard.Provider.History
import VpsGuard.Provider.Progress
import VpsGuard.Provider.Controller
import VpsGuard.Provider.World
import VpsGuard.Provider.Outcome
import VpsGuard.Provider.Durability
import VpsGuard.Protection.Manager
import VpsGuard.Protection.Files
import VpsGuard.Edge.PolicyRuntime
import VpsGuard.Edge.RateLimit
import VpsGuard.Edge.Counting
import VpsGuard.Edge.Limits
import VpsGuard.Edge.Isolation
import VpsGuard.Protection.Versions
import VpsGuard.Protection.Recovery
import VpsGuard.Protection.Publication
import VpsGuard.Protection.Abstract
import VpsGuard.Protection.Linearization
import VpsGuard.Protection.Enforcement
import VpsGuard.Protection.HeldLimits
import VpsGuard.Control.App
import VpsGuard.Control.Actions
import VpsGuard.Control.DetectionLoop
import VpsGuard.Control.Restartable
import VpsGuard.Control.Hold
import VpsGuard.Control.PublishedMode
import VpsGuard.Control.ProviderAgreement
import VpsGuard.Control.Idempotence
import VpsGuard.System.Path
import VpsGuard.System.Operation
import VpsGuard.System.Engine
import VpsGuard.System.Ledger
import VpsGuard.System.CrashSafety
import VpsGuard.Text.Basic
import VpsGuard.Text.Words
import VpsGuard.System.Ufw
import VpsGuard.System.UfwHost
import VpsGuard.System.UfwChanges
import VpsGuard.System.UfwGrammar
import VpsGuard.System.OriginFirewall
import VpsGuard.System.Ownership
import VpsGuard.Control.Firewall
import VpsGuard.Effect.Succession
import VpsGuard.Provider.Cloudflare
import VpsGuard.Provider.OriginLock
import VpsGuard.Edge.Capacity
import VpsGuard.Profiles
import VpsGuard.Core.Crawler
import VpsGuard.Window.Ring
import VpsGuard.Control.Telemetry
import VpsGuard.Control.LiveTraffic
import VpsGuard.Store.Table
import VpsGuard.Store.Rollup
import VpsGuard.Control.Rollups
import VpsGuard.Control.TrafficQueue
import VpsGuard.Control.Retention
import VpsGuard.Control.Quiet
import VpsGuard.Control.Services
import VpsGuard.Edge.Request
import VpsGuard.Edge.Framing
import VpsGuard.Edge.Clearance
import VpsGuard.Edge.Filter
import VpsGuard.Edge.Observation
import VpsGuard.Edge.Identity
import VpsGuard.Edge.Paths
import VpsGuard.Edge.Supervisor
import VpsGuard.System.TlsReload
