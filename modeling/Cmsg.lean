import Cmsg.Base.Bytes
import Cmsg.Base.Changes
import Cmsg.Base.Files
import Cmsg.Base.GrowArray
import Cmsg.Base.HashTable
import Cmsg.Base.Heap
import Cmsg.Base.Layout
import Cmsg.Base.Lists
import Cmsg.Base.Members
import Cmsg.Base.Routes
import Cmsg.Base.Runs
import Cmsg.Base.Search
import Cmsg.Base.Sums
import Cmsg.Client.ApiInvoke
import Cmsg.Client.Broadcast
import Cmsg.Client.Composite
import Cmsg.Client.CompositeStatus
import Cmsg.Client.Discovery
import Cmsg.Client.Encrypted
import Cmsg.Client.OwnThread
import Cmsg.Client.QueueDiscard
import Cmsg.Client.QueuedCalls
import Cmsg.Client.Receive
import Cmsg.Client.ReplyDecoding
import Cmsg.Client.Reporting
import Cmsg.Client.Send
import Cmsg.Client.SendQueue
import Cmsg.Client.Session
import Cmsg.Crypto.FrameLengths
import Cmsg.Crypto.Frames
import Cmsg.Message.FileDump
import Cmsg.Message.RepeatedField
import Cmsg.Protoc.AutoValidation
import Cmsg.Protoc.HttpProxy
import Cmsg.Protoc.Validation
import Cmsg.Protoc.ValidationMeaning
import Cmsg.Proxy.BodyValue
import Cmsg.Proxy.Clients
import Cmsg.Proxy.Gateway
import Cmsg.Proxy.Hidden
import Cmsg.Proxy.Index
import Cmsg.Proxy.Input
import Cmsg.Proxy.Json
import Cmsg.Proxy.LoadOrder
import Cmsg.Proxy.Lookup
import Cmsg.Proxy.Numerals
import Cmsg.Proxy.Object
import Cmsg.Proxy.Output
import Cmsg.Proxy.Precedence
import Cmsg.Proxy.Query
import Cmsg.Proxy.Request
import Cmsg.Proxy.ResponseBody
import Cmsg.Proxy.ResponseJson
import Cmsg.Proxy.Routing
import Cmsg.Proxy.Service
import Cmsg.Proxy.StreamData
import Cmsg.Proxy.StreamLifecycle
import Cmsg.Proxy.Streaming
import Cmsg.Proxy.Strings
import Cmsg.Proxy.Tree
import Cmsg.Proxy.TreeShape
import Cmsg.Psd.Agreement
import Cmsg.Psd.Cleanup
import Cmsg.Psd.Data
import Cmsg.Psd.Entries
import Cmsg.Psd.LocalSubscriptions
import Cmsg.Psd.Orphans
import Cmsg.Psd.Publisher
import Cmsg.Psd.Publishers
import Cmsg.Psd.Refinement
import Cmsg.Psd.RemoteAgreement
import Cmsg.Psd.RemoteSync
import Cmsg.Psd.SendThread
import Cmsg.Psd.Subscribers
import Cmsg.Psd.UpdateHandlers
import Cmsg.Psd.Updates
import Cmsg.Rpc.AtMostOnce
import Cmsg.Rpc.Correspondence
import Cmsg.Rpc.Encryption
import Cmsg.Rpc.Loopback
import Cmsg.Rpc.RoundTrip
import Cmsg.Rpc.SecureSession
import Cmsg.Server.Dispatch
import Cmsg.Server.DrainLoop
import Cmsg.Server.DropFilter
import Cmsg.Server.Encrypted
import Cmsg.Server.EventLoop
import Cmsg.Server.Filter
import Cmsg.Server.Forwarding
import Cmsg.Server.ListPoll
import Cmsg.Server.Lookup
import Cmsg.Server.Multithreaded
import Cmsg.Server.Ordering
import Cmsg.Server.Queue
import Cmsg.Server.QueueState
import Cmsg.Server.QueueThreads
import Cmsg.Server.Receive
import Cmsg.Server.ReceiveSafety
import Cmsg.Server.Replies
import Cmsg.Server.Service
import Cmsg.Server.Session
import Cmsg.Server.SocketTrace
import Cmsg.Server.ThreadPoll
import Cmsg.Server.TlvParser
import Cmsg.Sld.Api
import Cmsg.Sld.ApiDelivery
import Cmsg.Sld.ApiRuns
import Cmsg.Sld.Data
import Cmsg.Sld.EndpointIdentity
import Cmsg.Sld.EntryRun
import Cmsg.Sld.ExitedProcess
import Cmsg.Sld.HostRemoval
import Cmsg.Sld.Listeners
import Cmsg.Sld.ProcessWatch
import Cmsg.Sld.Registrations
import Cmsg.Sld.RemoteSync
import Cmsg.Sld.Replication
import Cmsg.Sld.SyncKeys
import Cmsg.Sld.Table
import Cmsg.Sld.Unlisten
import Cmsg.Sld.WaitForServer
import Cmsg.Transport.Info
import Cmsg.Transport.InfoRoundTrip
import Cmsg.Transport.Overlay
import Cmsg.Transport.Recv
import Cmsg.Transport.Socket
import Cmsg.Transport.TcpCache
import Cmsg.Wire.Header
import Cmsg.Wire.Packet
import Cmsg.Wire.Tlv
import Cmsg.Wire.TlvGrammar
