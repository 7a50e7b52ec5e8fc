import Iwand.Common.Bytes
import Iwand.Common.Go
import Iwand.Common.Run
import Iwand.Common.Interleave
import Iwand.Common.Refine
import Iwand.Common.Syscall
import Iwand.Common.Netdev
import Iwand.Common.BsdNetdev
import Iwand.Common.CString
import Iwand.Common.Slots
import Iwand.Common.Wire
import Iwand.Crypto.MD5
import Iwand.Crypto.AES
import Iwand.Client.Md5
import Iwand.Client.Aes
import Iwand.Client.State
import Iwand.Client.Packets
import Iwand.Client.Recv
import Iwand.Client.Openack
import Iwand.Client.Outcomes
import Iwand.Client.Machine
import Iwand.Client.Moves
import Iwand.Client.Invariant
import Iwand.Client.Deadline
import Iwand.Client.Recovery
import Iwand.Client.Hooks
import Iwand.Client.HookMtu
import Iwand.Client.ConfigFile
import Iwand.Client.EventLoop
import Iwand.Client.InitScript
import Iwand.Client.Fragments
import Iwand.Client.Reassembly
import Iwand.Client.Delivery
import Iwand.Client.Completeness
import Iwand.Client.Decrypt
import Iwand.Client.SegmentRouting
import Iwand.Client.Echo
import Iwand.Client.Interface
import Iwand.Client.TunLinux
import Iwand.Client.TunFreebsd
import Iwand.Server.Ip
import Iwand.Server.Protocol
import Iwand.Server.Config
import Iwand.Server.Normalize
import Iwand.Server.Server
import Iwand.Server.Sessions
import Iwand.Server.Outcomes
import Iwand.Server.Table
import Iwand.Server.Isolation
import Iwand.Server.Concurrent
import Iwand.Server.Registry
import Iwand.Server.Strangers
import Iwand.Server.Tun
import Iwand.Server.OpenGrammar
import Iwand.EndToEnd.Open
import Iwand.EndToEnd.OpenAck
import Iwand.EndToEnd.Relay
import Iwand.EndToEnd.Handshake
import Iwand.EndToEnd.Codec
import Iwand.EndToEnd.Keepalive
import Iwand.EndToEnd.Lifecycle
