import TinyServer.Lib.Overlay
import TinyServer.Lib.Keeps
import TinyServer.Lib.Simulate
import TinyServer.Lib.Run
import TinyServer.Lib.Range
import TinyServer.Lib.Machine
import TinyServer.Lib.Twin
import TinyServer.Lib.OrdSet
import TinyServer.Lib.Cut
import TinyServer.Lib.AssocList
import TinyServer.Lib.LastSet
import TinyServer.Lib.Varint
import TinyServer.Lib.BitCount
import TinyServer.ByteArray.Basic
import TinyServer.ByteArray.Typed
import TinyServer.ByteArray.Iovecs
import TinyServer.ByteArray.Files
import TinyServer.ByteArray.Proofs.Inv
import TinyServer.ByteArray.Proofs.Runs
import TinyServer.ByteArray.Proofs.Flat
import TinyServer.ByteArray.Proofs.Iovecs
import TinyServer.ByteArray.Proofs.Growth
import TinyServer.ByteArray.Proofs.ByteOrder
import TinyServer.ByteArray.Proofs.Reads
import TinyServer.ByteArray.Proofs.Atomic
import TinyServer.ByteArray.Proofs.Positional
import TinyServer.ByteArray.Proofs.Wire
import TinyServer.ByteArray.Proofs.Varints
import TinyServer.ByteArray.Proofs.Scalars
import TinyServer.ByteArray.Proofs.RoundTrip
import TinyServer.ByteArray.Proofs.Strings
import TinyServer.ByteArray.Proofs.Buffers
import TinyServer.ByteArray.Proofs.Files
import TinyServer.Stream.Basic
import TinyServer.Stream.Proofs.FixSize
import TinyServer.Scheduler.Basic
import TinyServer.IOManager.Basic
import TinyServer.IOManager.Growth
import TinyServer.IOManager.Proofs.Sections
import TinyServer.IOManager.Proofs.Mirror
import TinyServer.IOManager.Proofs.Slots
import TinyServer.IOManager.Proofs.Dispatch
import TinyServer.IOManager.Proofs.Growth
import TinyServer.Scheduler.Proofs.Conserve
import TinyServer.Scheduler.Proofs.Exclusive
import TinyServer.Http.Basic
import TinyServer.Http.RequestTable
import TinyServer.Http.RequestParser
import TinyServer.Http.Stream
import TinyServer.Http.Session
import TinyServer.Http.Tokens
import TinyServer.Http.Proofs.Scan
import TinyServer.Http.Proofs.Replay
import TinyServer.Http.Proofs.Stream
import TinyServer.Http.Proofs.Receive
import TinyServer.Http.Proofs.Segments
import TinyServer.Http.Proofs.Refusals
import TinyServer.Http.Proofs.KeepAlive
import TinyServer.Http.ClientTable
import TinyServer.Http.ResponseParser
import TinyServer.Http.Connection
import TinyServer.Http.Limits
import TinyServer.Http.Proofs.Limits
import TinyServer.Http.Proofs.Number
import TinyServer.Http.Proofs.ResponseHeader
import TinyServer.Http.Proofs.ChunkReads
import TinyServer.Http.Proofs.Chunked
import TinyServer.Http.Reading
import TinyServer.Http.Grammar
import TinyServer.Http.Proofs.Reading
import TinyServer.Http.Proofs.Headers
import TinyServer.Http.Proofs.Grammar
import TinyServer.Http.Proofs.WellFormed
import TinyServer.Http.Proofs.Methods
import TinyServer.Http.Proofs.Dump
import TinyServer.Http.Proofs.Framing
import TinyServer.Http.Proofs.Body
import TinyServer.Http.Proofs.Versions
import TinyServer.Http.Stores
import TinyServer.Http.Proofs.Stores
import TinyServer.Http.Uninit
import TinyServer.Http.Proofs.Uninit
import TinyServer.Http.Servlet
import TinyServer.Http.Proofs.Servlet
import TinyServer.Timer.Basic
import TinyServer.Timer.Proofs.Inv
import TinyServer.Timer.Proofs.LifeCycle
import TinyServer.Timer.Proofs.Threads
import TinyServer.Timer.Clock
import TinyServer.Timer.Proofs.Expiry
import TinyServer.Timer.Proofs.Deadlines
import TinyServer.IOManager.Poll
import TinyServer.Config.Basic
import TinyServer.Config.Proofs.Observers
import TinyServer.Hook.Basic
import TinyServer.Hook.Proofs.Nonblock
import TinyServer.Hook.Proofs.Reuse
import TinyServer.Hook.Wait
import TinyServer.Hook.Proofs.Wait
import TinyServer.Hook.Sleep
import TinyServer.Hook.Retry
import TinyServer.Hook.Proofs.Retry
import TinyServer.Pool.Basic
import TinyServer.Pool.Proofs.Accounting
import TinyServer.Pool.Proofs.Limits
import TinyServer.Pool.Proofs.Age
import TinyServer.Log.Basic
import TinyServer.Log.Proofs.Reload
import TinyServer.Log.Proofs.History
import TinyServer.Log.File
import TinyServer.Log.Proofs.Loss
import TinyServer.Log.Yaml
import TinyServer.Log.Proofs.RoundTrip
import TinyServer.Uri.Table
import TinyServer.Uri.Basic
import TinyServer.Http.Outgoing
import TinyServer.Http.Proofs.Outgoing
import TinyServer.Uri.Phases
import TinyServer.Uri.Reference
import TinyServer.Uri.Proofs.Follow
import TinyServer.Uri.Proofs.Accepted
import TinyServer.Uri.Proofs.Regions
import TinyServer.Uri.Proofs.Authority
import TinyServer.Uri.Proofs.Stored
import TinyServer.Uri.Proofs.Faithful
import TinyServer.Uri.Proofs.Dump
import TinyServer.Shutdown.Basic
import TinyServer.Shutdown.Proofs.Resting
import TinyServer.Shutdown.Proofs.Quiescent
import TinyServer.Hook.View
import TinyServer.Hook.Proofs.View
import TinyServer.Log.Attach
import TinyServer.Log.Proofs.Attach
import TinyServer.Log.Pattern
import TinyServer.Log.Proofs.Scan
import TinyServer.Log.Proofs.Pattern
import TinyServer.Log.Format
import TinyServer.Log.Proofs.Escape
import TinyServer.Config.Registry
import TinyServer.Config.Proofs.Registry
import TinyServer.Config.Load
import TinyServer.Config.Proofs.Load
import TinyServer.Config.ConfDir
import TinyServer.Config.Proofs.ConfDir
import TinyServer.Scheduler.Enqueue
import TinyServer.Scheduler.Proofs.Enqueue
import TinyServer.Scheduler.Proofs.Steps
import TinyServer.Scheduler.Proofs.Entered
import TinyServer.Scheduler.Pins
import TinyServer.Scheduler.Proofs.Pins
import TinyServer.Scheduler.Proofs.Resume
import TinyServer.Log.Dump
import TinyServer.Log.Proofs.Dump
import TinyServer.Address.Basic
import TinyServer.Address.Proofs.Masks
import TinyServer.Address.Proofs.Network
import TinyServer.Address.Lookup
import TinyServer.Address.Proofs.Lookup
import TinyServer.Address.Text
import TinyServer.Address.Proofs.Text
import TinyServer.Address.Unix
import TinyServer.Address.Proofs.Unix
import TinyServer.Address.Interfaces
import TinyServer.Address.Proofs.Interfaces
import TinyServer.Uri.Address
import TinyServer.Uri.Proofs.Address
import TinyServer.Socket.Basic
import TinyServer.Socket.Proofs.Follow
import TinyServer.Socket.Server
import TinyServer.Socket.Proofs.Server
import TinyServer.Env.Basic
import TinyServer.Env.Proofs.Init
import TinyServer.Scheduler.Proofs.Order
import TinyServer.Lib.Cover
import TinyServer.Http.ClientReading
import TinyServer.Http.Proofs.ClientReading
import TinyServer.Http.Proofs.ClientNames
import TinyServer.Http.Proofs.ResponseDump
import TinyServer.Http.Server
import TinyServer.Http.Proofs.Server
import TinyServer.Lib.Coroutine
import TinyServer.Fiber.Basic
import TinyServer.Fiber.System
import TinyServer.Fiber.Proofs.Switch
import TinyServer.Fiber.Proofs.Steps
import TinyServer.Lib.Measure
import TinyServer.Thread.Basic
import TinyServer.Scheduler.Life
import TinyServer.Scheduler.Proofs.Life
import TinyServer.Scheduler.Proofs.Ends
import TinyServer.Lib.Sections
import TinyServer.Thread.Lock
import TinyServer.Scheduler.Ranges
import TinyServer.Thread.Proofs.Lock
import TinyServer.Scheduler.Proofs.Ranges
