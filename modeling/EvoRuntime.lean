import EvoRuntime.Assertions.EqualTables
import EvoRuntime.CommandLine.Registry
import EvoRuntime.CommandLine.TestCommand
import EvoRuntime.Crypto.Argon2
import EvoRuntime.Crypto.Argon2Decode
import EvoRuntime.Crypto.Argon2Encode
import EvoRuntime.Crypto.Base64Text
import EvoRuntime.Crypto.CompactBase64
import EvoRuntime.Crypto.KeyDerivation
import EvoRuntime.Crypto.ModularCryptFormat
import EvoRuntime.Etrace.EventLog
import EvoRuntime.Etrace.EventTrace
import EvoRuntime.Etrace.Subscriptions
import EvoRuntime.Extensions.Tablex
import EvoRuntime.FileSystem.AsyncFileReader
import EvoRuntime.FileSystem.ChunkedReads
import EvoRuntime.FileSystem.ConcurrentRequests
import EvoRuntime.FileSystem.DirectoryTree
import EvoRuntime.FileSystem.FileRequests
import EvoRuntime.FileSystem.RequestViews
import EvoRuntime.Iconv.Conversions
import EvoRuntime.Images.Encoders
import EvoRuntime.Library.BackwardScan
import EvoRuntime.Library.Chains
import EvoRuntime.Library.FallibleSort
import EvoRuntime.Library.Iteration
import EvoRuntime.Library.Joining
import EvoRuntime.Library.Packing
import EvoRuntime.Library.Pairing
import EvoRuntime.Library.Raising
import EvoRuntime.Library.Rearranging
import EvoRuntime.Library.Regrouping
import EvoRuntime.Library.Runs
import EvoRuntime.Library.SegmentWalk
import EvoRuntime.Library.Shifting
import EvoRuntime.Library.Tiling
import EvoRuntime.Library.WalkLevels
import EvoRuntime.Lua.Numbers
import EvoRuntime.Lua.Strings
import EvoRuntime.Lua.Transform
import EvoRuntime.Lua.V8
import EvoRuntime.Miniz.Uncompress
import EvoRuntime.Oop.Classes
import EvoRuntime.Oop.Heap
import EvoRuntime.Oop.Inheritance
import EvoRuntime.Oop.Mixins
import EvoRuntime.Oop.SharedMixins
import EvoRuntime.Path.Basename
import EvoRuntime.Path.Comparing
import EvoRuntime.Path.Dirname
import EvoRuntime.Path.Extname
import EvoRuntime.Path.JoinLaws
import EvoRuntime.Path.Normalize
import EvoRuntime.Path.NormalizeString
import EvoRuntime.Path.Posix
import EvoRuntime.Path.Relative
import EvoRuntime.Path.ResolveLaws
import EvoRuntime.Path.Win32
import EvoRuntime.Path.Win32Join
import EvoRuntime.Path.Win32Relative
import EvoRuntime.Path.Win32Resolve
import EvoRuntime.Rml.RenderEvents
import EvoRuntime.Rml.RenderInterface
import EvoRuntime.Server.DeferredPayload
import EvoRuntime.Server.HttpLifecycle
import EvoRuntime.Server.Interleavings
import EvoRuntime.Server.Lifecycles
import EvoRuntime.Server.StepHistory
import EvoRuntime.Server.TrackedRequests
import EvoRuntime.Server.DeliveredEvents
import EvoRuntime.Server.WebServer
import EvoRuntime.Server.WebSocketLifecycle
import EvoRuntime.Testing.Bdd
import EvoRuntime.Testing.BlockRuns
import EvoRuntime.Testing.Calls
import EvoRuntime.Testing.CompletedRuns
import EvoRuntime.Testing.FailedTests
import EvoRuntime.Testing.HookScoping
import EvoRuntime.Testing.LaterRuns
import EvoRuntime.Testing.Scopes
import EvoRuntime.Timer.Coroutines
import EvoRuntime.Timer.Deferral
import EvoRuntime.Timer.Handles
import EvoRuntime.Vfs.AppBundle
import EvoRuntime.Vfs.Decoding
import EvoRuntime.Vfs.ZipApp
import EvoRuntime.Vm.LuaVirtualMachine
import EvoRuntime.Vm.StackDiscipline
import EvoRuntime.Library.Patterns
import EvoRuntime.Lua.Patterns
import EvoRuntime.Server.RequestHeaders
import EvoRuntime.Extensions.Stringx
import EvoRuntime.Git.Modules
import EvoRuntime.Library.Deletion
import EvoRuntime.Lua.Strip
import EvoRuntime.Lua.ColoredText
import EvoRuntime.Json.Encoder
import EvoRuntime.Etrace.EventLists
import EvoRuntime.FileSystem.FileTree
import EvoRuntime.FileSystem.MakeDirectories
import EvoRuntime.Vfs.Dlopen
import EvoRuntime.Library.Simulations
import EvoRuntime.Library.Mailboxes
import EvoRuntime.Server.Messaging
import EvoRuntime.Server.WebSocketServer
import EvoRuntime.Lua.Require
import EvoRuntime.Vfs.StandaloneApps
import EvoRuntime.Path.Win32Dirname
import EvoRuntime.Library.Heaps
import EvoRuntime.Extensions.DeepCopy
import EvoRuntime.FileSystem.FileStore
import EvoRuntime.BuildTools.NinjaFile
import EvoRuntime.BuildTools.NinjaManifest
import EvoRuntime.Library.Schedules
import EvoRuntime.BuildTools.BuildTarget
import EvoRuntime.BuildTools.Builds
import EvoRuntime.Repl.Dotty
import EvoRuntime.Repl.Sessions
import EvoRuntime.Repl.StackRuns
import EvoRuntime.Repl.Refinement
import EvoRuntime.Library.Sessions
import EvoRuntime.Server.Exchanges
import EvoRuntime.Server.Isolation
