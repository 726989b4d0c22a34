import LuaNet.Tls.BioRx
import LuaNet.Tls.Cache
import LuaNet.Tls.CacheRefinement
import LuaNet.Tls.Session
import LuaNet.Socket.Lifecycle
import LuaNet.Socket.Callbacks
import LuaNet.Socket.Ownership
import LuaNet.Tls.SocketIo
import LuaNet.Tls.SocketWrite
import LuaNet.Lib.Turns
import LuaNet.Tls.Sendfile
import LuaNet.Tls.SendfileExact
import LuaNet.Lib.Reentrant
import LuaNet.Tls.Context
import LuaNet.Tls.ContextSafety
import LuaNet.Lib.Retry
import LuaNet.Socket.Constants
import LuaNet.Socket.Send
import LuaNet.Lib.Raising
import LuaNet.Socket.Cmsg
import LuaNet.Socket.CmsgDecode
import LuaNet.Socket.CmsgRoundTrip
import LuaNet.Lib.Exclusive
import LuaNet.Socket.Sendmsg
import LuaNet.Socket.SyncWrite
import LuaNet.Socket.CmsgKernel
import LuaNet.Socket.Recvmsg
import LuaNet.Socket.RightsCustody
import LuaNet.Tls.CacheFaults
import LuaNet.Lib.Lifetime
import LuaNet.Tls.BioLifetime
import LuaNet.Tls.BioLifetimeSafety
import LuaNet.Tls.SessionRefs
import LuaNet.Lib.Traced
import LuaNet.Tls.SocketLoops
import LuaNet.Tls.SocketTiming
import LuaNet.Lib.Walk
import LuaNet.Socket.CmsgBounds
import LuaNet.Tls.HandshakeState
import LuaNet.Tls.ServerSelect
import LuaNet.Lib.Slice
import LuaNet.Socket.SendfilePortable
import LuaNet.Socket.SendfileSplits
import LuaNet.Connect.AddrTable
import LuaNet.Connect.AddrSearch
import LuaNet.Connect.InetConnect
import LuaNet.Connect.InetFailover
import LuaNet.Socket.GcfnCalls
import LuaNet.Socket.GcfnAtomic
import LuaNet.Socket.GcfnDrain
import LuaNet.Socket.GcfnHandles
import LuaNet.Tls.CacheKeys
import LuaNet.Tls.KeyMeaning
import LuaNet.Addrinfo.Options
import LuaNet.Lib.History
import LuaNet.Shared.Pcall
import LuaNet.Shared.PcallApi
import LuaNet.Shared.PcallHook
import LuaNet.Shared.PcallVersions
import LuaNet.Tls.AlpnTable
import LuaNet.Tls.DeadlineDiscipline
import LuaNet.Tls.OptSpecs
import LuaNet.Tls.ServerNameExt
import LuaNet.Tls.ZringRuns
import LuaNet.Lib.Link
import LuaNet.Tls.Transport
import LuaNet.Lib.Coroutine
import LuaNet.Tls.SocketClose
import LuaNet.Tls.SocketCloseSafety
import LuaNet.Connect.NewClient
import LuaNet.Socket.Poller
import LuaNet.Socket.PollerSafety
import LuaNet.Lib.Served
import LuaNet.Socket.SyncRead
import LuaNet.Socket.Accept
import LuaNet.Socket.AcceptCustody
import LuaNet.Lib.Protect
import LuaNet.Addrinfo.Objects
import LuaNet.Addrinfo.ObjectsKept
import LuaNet.Addrinfo.ObjectCalls
import LuaNet.Addrinfo.Resolve
import LuaNet.Addrinfo.ResolveSafety
import LuaNet.Addrinfo.InetAddr
import LuaNet.Device.Ifaddrs
import LuaNet.Device.IfaddrsExact
