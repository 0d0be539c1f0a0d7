import Uranus.Foundation.Path
import Uranus.Foundation.ByteOrder
import Uranus.Foundation.Table
import Uranus.Foundation.Weighted
import Uranus.Foundation.NestedTable
import Uranus.Foundation.Inverse
import Uranus.Foundation.Channel
import Uranus.Foundation.Program
import Uranus.Foundation.History
import Uranus.Foundation.CallStack
import Uranus.Foundation.Interleaving
import Uranus.Foundation.Rounding
import Uranus.Foundation.FixedWidth
import Uranus.Internal.Packet
import Uranus.Internal.PacketCodec
import Uranus.Internal.Framing
import Uranus.Internal.PacketLength
import Uranus.Internal.HeaderCodec
import Uranus.Base.ByteArray
import Uranus.Base.Module
import Uranus.Base.Recycler
import Uranus.Base.RecyclerSpec
import Uranus.Base.ShrinkBounds
import Uranus.Base.Acquisition
import Uranus.Base.RecyclerLock
import Uranus.Base.RecycleHandle
import Uranus.Base.HandleEffect
import Uranus.Base.PoolConsistency
import Uranus.Base.HandleCount
import Uranus.Base.PoolConservation
import Uranus.Base.Growth
import Uranus.Base.FailedAcquire
import Uranus.Base.ControlCount
import Uranus.Base.ControlBlock
import Uranus.Base.Reacquisition
import Uranus.Internal.PacketRecycling
import Uranus.Base.AgentBase
import Uranus.Base.MailboxOrder
import Uranus.Base.MailboxExit
import Uranus.Base.IdentAllocator
import Uranus.Base.IdentUniqueness
import Uranus.Base.UsageCount
import Uranus.Internal.ServiceFactory
import Uranus.Factory.ServiceHandle
import Uranus.Database.DataAccess
import Uranus.Database.Workers
import Uranus.Server.Server
import Uranus.Server.Shutdown
import Uranus.Gateway.State
import Uranus.Gateway.Agent
import Uranus.Gateway.Gateway
import Uranus.Gateway.LoginAuth
import Uranus.Gateway.Registry
import Uranus.Gateway.Registration
import Uranus.Gateway.Operation
import Uranus.Gateway.Ownership
import Uranus.Gateway.LoginOutcome
import Uranus.Gateway.Throttle
import Uranus.Gateway.UniqueKeys
import Uranus.Gateway.LoginRace
import Uranus.Gateway.CacheCollection
import Uranus.Gateway.Connection
import Uranus.Gateway.Leak
import Uranus.Gateway.Notification
import Uranus.Gateway.PlayerExit
import Uranus.Gateway.Logout
import Uranus.Gateway.Session
import Uranus.Gateway.Watchdog
import Uranus.Service.State
import Uranus.Service.ServiceAgent
import Uranus.Service.ServiceModule
import Uranus.Service.Registry
import Uranus.Service.ServiceCall
import Uranus.Service.ServiceIds
import Uranus.Service.Consistency
import Uranus.Service.Lookup
import Uranus.Service.Tickers
import Uranus.Service.Lifecycle
import Uranus.Service.UpdateLoop
import Uranus.Service.Shutdown
import Uranus.Service.CleanUp
import Uranus.Service.ShutdownPaths
import Uranus.Service.CoreStart
import Uranus.Service.CoreTickers
import Uranus.Timer.Timer
import Uranus.Timer.TimerManager
import Uranus.Timer.Cancellation
import Uranus.Timer.Registry
import Uranus.Timer.StaleIds
import Uranus.Timer.Schedule
import Uranus.Timer.Course
import Uranus.Timer.Progress
import Uranus.Timer.CancelAll
import Uranus.Route.RouteModule
import Uranus.Route.Confinement
import Uranus.Event.EventModule
import Uranus.Event.Delivery
import Uranus.Event.Runtime
import Uranus.Event.Reentrancy
import Uranus.Utils.RandomDraw
import Uranus.Foundation.Calendar
import Uranus.Utils.Dates
import Uranus.Base.SharedLibrary
import Uranus.Internal.LibraryPaths
import Uranus.Script.Generator
import Uranus.Config.Config
import Uranus.Logger.LoggerModule
import Uranus.Foundation.RoundRobin
import Uranus.Base.MultiIOContextPool
import Uranus.Database.DequeWait
import Uranus.Database.TaskTurns
import Uranus.Base.MailboxOnce
import Uranus.Foundation.Courier
import Uranus.Route.Exchange
import Uranus.Route.Letters
import Uranus.Route.Stations
import Uranus.Route.Delivery
import Uranus.Route.Addressing
import Uranus.Route.Isolation
import Uranus.Base.MailboxDrain
import Uranus.Route.Progress
import Uranus.Base.FreshObjects
import Uranus.Service.Hooks
import Uranus.Service.AgentMail
import Uranus.Service.TickSchedule
