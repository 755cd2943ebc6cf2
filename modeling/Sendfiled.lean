import Sendfiled.DeferredList
import Sendfiled.Cancellation
import Sendfiled.Isolation
import Sendfiled.Range
import Sendfiled.Datagrams
import Sendfiled.StaleBytes
import Sendfiled.Registrations
import Sendfiled.Expiry
import Sendfiled.StatusChannel
import Sendfiled.Endings
import Sendfiled.Wakeups
import Sendfiled.Guards
import Sendfiled.Closes
import Sendfiled.Leaks
import Sendfiled.Limits
import Sendfiled.Supply
import Sendfiled.Draining
import Sendfiled.Delivery
import Sendfiled.Responses
import Sendfiled.Truncation
import Sendfiled.Progress
import Sendfiled.TableFill
import Sendfiled.Messages
import Sendfiled.Grammar
import Sendfiled.MainLoop
import Sendfiled.RespRegs
import Sendfiled.TimerRegs
import Sendfiled.Faults
import Sendfiled.Notices
import Sendfiled.Retries
import Sendfiled.Disposals
import Sendfiled.Txnids
import Sendfiled.OpenFiles
import Sendfiled.ReadStream
import Sendfiled.Client.Handshake
import Sendfiled.Startup.Sockets
import Sendfiled.Startup.Options
import Sendfiled.Startup.Main
import Sendfiled.Startup.Spawn
import Sendfiled.FreeBsd.Transfer
import Sendfiled.FreeBsd.Streams
import Sendfiled.FreeBsd.Splice
import Sendfiled.FreeBsd.Buffer
import Sendfiled.FreeBsd.Sendfile
import Sendfiled.FreeBsd.Overflow
import Sendfiled.Ancillary
