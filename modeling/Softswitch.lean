import Softswitch.Verify.Asserts
import Softswitch.Verify.ComputeSearch
import Softswitch.Verify.Tracking
import Softswitch.Verify.HostBuffer
import Softswitch.Verify.MainIdle
import Softswitch.Verify.ExactlyOnce
import Softswitch.Verify.BarrierThreads
import Softswitch.Verify.CachedFlags
import Softswitch.Verify.FairSending
import Softswitch.Verify.FairComputing
import Softswitch.Verify.Mailbox
import Softswitch.Verify.MailboxMessages
import Softswitch.Verify.AddressList
import Softswitch.Verify.Records
import Softswitch.Verify.Deadlock
import Softswitch.Verify.FastPath
import Softswitch.Verify.TrueTinsel
import Softswitch.Verify.EdgeLookup
import Softswitch.Verify.LogPacking
import Softswitch.Verify.RingThreads
import Softswitch.Verify.EdgePropsThreads
import Softswitch.Verify.CycleAccounting
import Softswitch.Verify.SendOpportunity
import Softswitch.Verify.InterconnectRefinement
import Softswitch.Verify.MemorySafety
import Softswitch.Verify.ConnectedApps
import Softswitch.Verify.FabricProgress
import Softswitch.Verify.Rounds
import Softswitch.Verify.HostMessages
import Softswitch.Verify.Uart
import Softswitch.Verify.Strings
