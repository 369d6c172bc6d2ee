import Tsm.Proofs.Delivery
import Tsm.Proofs.Works
import Tsm.Proofs.Lifetime
import Tsm.Proofs.DelayList
import Tsm.Proofs.ZeroDelay
import Tsm.Proofs.Wakeup
import Tsm.Proofs.Flags
import Tsm.Proofs.Failures
import Tsm.Proofs.Storage
import Tsm.Proofs.Revoke
import Tsm.Proofs.Deadlock
import Tsm.Proofs.Registry
import Tsm.Proofs.Installs
import Tsm.Proofs.Teardown
import Tsm.Proofs.SizeLimit
import Tsm.Proofs.Delays
import Tsm.Proofs.SharedBuffer
import Tsm.Proofs.Buffers
import Tsm.Proofs.ManagerAlive
import Tsm.Proofs.Uninitialized
import Tsm.Proofs.GroupFree
import Tsm.Proofs.BarrierRest
import Tsm.Proofs.DeviceRest
import Tsm.Proofs.Exchange
import Tsm.Proofs.Files
import Tsm.Proofs.Isolation
import Tsm.Proofs.Processes
import Tsm.Proofs.Retrieval
