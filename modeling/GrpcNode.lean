import GrpcNode.HealthCheck.Service
import GrpcNode.Js.Uri
import GrpcNode.JsCore.CallStreamEnd
import GrpcNode.JsCore.CallStreamFallback
import GrpcNode.JsCore.CallStreamStatus
import GrpcNode.JsCore.CallStreamTruncation
import GrpcNode.JsCore.CallStreamWrites
import GrpcNode.JsCore.ChannelClose
import GrpcNode.JsCore.ChannelConnect
import GrpcNode.JsCore.ChannelCredentials
import GrpcNode.JsCore.ChannelMetadata
import GrpcNode.JsCore.ChannelRequests
import GrpcNode.JsCore.ChannelState
import GrpcNode.JsCore.ChannelWaits
import GrpcNode.JsCore.ClientCalls
import GrpcNode.JsCore.ComposedMetadata
import GrpcNode.JsCore.DeadlineTimeout
import GrpcNode.JsCore.DeadlineTimers
import GrpcNode.JsCore.DuplexStream
import GrpcNode.JsCore.MetadataWire
import GrpcNode.JsCore.ReadableStream
import GrpcNode.JsCore.StatusCode
import GrpcNode.JsCore.TrailingMetadata
import GrpcNode.JsCore.UnaryResponse
import GrpcNode.NativeCore.AddonCalls
import GrpcNode.NativeCore.AddonQueue
import GrpcNode.NativeCore.AddonRequests
import GrpcNode.NativeCore.AddonServers
import GrpcNode.NativeCore.AsyncCallbacks
import GrpcNode.NativeCore.BatchMemory
import GrpcNode.NativeCore.CallCredentials
import GrpcNode.NativeCore.ChannelArgs
import GrpcNode.NativeCore.ClientCompletion
import GrpcNode.NativeCore.ClientReadStatus
import GrpcNode.NativeCore.ClientWrites
import GrpcNode.NativeCore.Dispatch
import GrpcNode.NativeCore.MetadataAgreement
import GrpcNode.NativeCore.MetadataRoundTrip
import GrpcNode.NativeCore.RemoteCall
import GrpcNode.NativeCore.RequestStream
import GrpcNode.NativeCore.ServerHandlers
import GrpcNode.NativeCore.ServerStatus
import GrpcNode.NativeCore.ServerWriteStream
import GrpcNode.NativeCore.SharedOptions
import GrpcNode.NativeCore.StatusDetails
import GrpcNode.NativeCore.StreamHandler
import GrpcNode.NativeCore.StreamedCall
import GrpcNode.NativeCore.Timeval
import GrpcNode.NativeCore.WaitForReady
