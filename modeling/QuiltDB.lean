import QuiltDB.Comm.System
import QuiltDB.Properties.ReceiverExit
import QuiltDB.Properties.PropagatorExit
import QuiltDB.Properties.Termination
import QuiltDB.Properties.RegisterFirst
import QuiltDB.Properties.Contiguity
import QuiltDB.Properties.NodeRanges
import QuiltDB.Properties.Removal
import QuiltDB.Properties.Sockets
import QuiltDB.Properties.Batching
import QuiltDB.Properties.Lifecycle
import QuiltDB.Properties.Handshake
import QuiltDB.Properties.Prefix
import QuiltDB.Properties.Delivery
import QuiltDB.Properties.ExactlyOnce
import QuiltDB.Properties.RangeTable
import QuiltDB.Properties.FlatBuffer
import QuiltDB.Properties.ThreadReg
import QuiltDB.Properties.Load
import QuiltDB.Properties.VSlice
import QuiltDB.Properties.Settled
import QuiltDB.Properties.Work
import QuiltDB.Properties.StartupProgress
import QuiltDB.Properties.FlatHop
import QuiltDB.Properties.SafeForest
import QuiltDB.Properties.Grid
