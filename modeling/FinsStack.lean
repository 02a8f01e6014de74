import FinsStack.Tcp.Window
import FinsStack.Tcp.Timer
import FinsStack.Daemon.Endpoint
import FinsStack.Tcp.FinAgain
import FinsStack.Tcp.Transfer
import FinsStack.Tcp.RecvCredit
import FinsStack.Daemon.CallTables
import FinsStack.Daemon.Isolation
import FinsStack.Tcp.Wakeup
import FinsStack.Tcp.Deadlock
import FinsStack.Tcp.RefSafety
import FinsStack.Tcp.Requested
import FinsStack.Tcp.Backlog
import FinsStack.Net.Echo
import FinsStack.Net.Ownership
import FinsStack.Wedge.Netlink
import FinsStack.Daemon.Arrival
import FinsStack.Wedge.Replies
import FinsStack.Tcp.GbnPass
import FinsStack.Tcp.Refusal
import FinsStack.Arp.Interrupt
import FinsStack.Arp.Cache
import FinsStack.Net.Routes
import FinsStack.Net.Transport
import FinsStack.Rtm.Consoles
import FinsStack.Daemon.Sendmsg
import FinsStack.Tcp.Freshness
import FinsStack.Daemon.Ifconf
import FinsStack.Net.ListJoin
import FinsStack.Rtm.Params
