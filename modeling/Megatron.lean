import Megatron.Corelib.BigInt
import Megatron.Corelib.BitStreamRoundTrip
import Megatron.Corelib.InBufferNothrow
import Megatron.Corelib.Mtimespec
import Megatron.Corelib.ObufSafety
import Megatron.Corelib.Ref
import Megatron.Corelib.RouteOrder
import Megatron.Corelib.UriParser
import Megatron.ErrorDispatcher.Service
import Megatron.Events.AddressSafety
import Megatron.Http.HeaderCase
import Megatron.Http.ResponseFraming
import Megatron.Http.WebSocketFrames
import Megatron.Listener.Handling
import Megatron.Listener.Shutdown
import Megatron.Main.ConfigObj
import Megatron.Main.StartOrder
import Megatron.Mysql.Binding
import Megatron.Mysql.Source
import Megatron.Mysql.Transaction
import Megatron.ObjectProxy.Handlers
import Megatron.Oscar.InputBound
import Megatron.Rpc.Answers
import Megatron.Rpc.Outgoing
import Megatron.Rpc.PassCache
import Megatron.Rpc.ReceivedRoutes
import Megatron.Rpc.Subscribers
import Megatron.Rpc.Transport
import Megatron.Socket.Closing
import Megatron.Socket.Protocol
import Megatron.Socket.Tls
import Megatron.Telnet.Completion
import Megatron.Telnet.Directories
import Megatron.Telnet.Editor
import Megatron.Telnet.History
import Megatron.Telnet.Safety
import Megatron.Timer.Idling
import Megatron.Timer.Progress
import Megatron.Utils.Base64
import Megatron.Utils.Hex
import Megatron.Utils.ReplaceVals
import Megatron.Utils.UrlEncoding
