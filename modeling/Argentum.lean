import Argentum.Lib.Bitmap
import Argentum.Lib.AlignedBlock
import Argentum.Lib.LinkedChain
import Argentum.Lib.FilterCount
import Argentum.Lib.DeadlineQueue
import Argentum.Lib.CacheScan
import Argentum.Lib.WordBytes
import Argentum.Lib.OffsetChain
import Argentum.Lib.RingQueue
import Argentum.Lib.Gregorian
import Argentum.Lib.Decimal
import Argentum.Lib.ByteOrder
import Argentum.Core.Timeout
import Argentum.Core.Sched
import Argentum.Core.Sync
import Argentum.Core.Cpu
import Argentum.Core.Mailbox
import Argentum.Mm.Page
import Argentum.Mm.PageInvariant
import Argentum.Mm.PageLoops
import Argentum.Mm.PageRun
import Argentum.Mm.ObjectPool
import Argentum.Mm.ObjectPoolInvariant
import Argentum.Mm.ObjectPoolOps
import Argentum.Mm.ObjectPoolRun
import Argentum.Mm.ObjectPoolSafety
import Argentum.Mm.Vm
import Argentum.Mm.VmOps
import Argentum.Mm.VmRefCount
import Argentum.Mm.VmSafety
import Argentum.Mm.VmFrame
import Argentum.Mm.VmIsolation
import Argentum.Mm.VmCheck
import Argentum.Mm.VmSpace
import Argentum.Ipc.Transfer
import Argentum.Net.Socket
import Argentum.Proc.Process
import Argentum.Proc.Signal
import Argentum.Proc.Lifecycle
import Argentum.Proc.Tree
import Argentum.Fs.Permission
import Argentum.Fs.Errno
import Argentum.Fs.Buf
import Argentum.Fs.InodeCache
import Argentum.Fs.Path
import Argentum.Fs.PathComponents
import Argentum.Fs.Ext2Dir
import Argentum.Fs.Ext2Alloc
import Argentum.Fs.Ext2File
import Argentum.Fs.Ext2BlockTree
import Argentum.Fs.Ext2Symlink
import Argentum.Kernel.Tty
import Argentum.Kernel.Pipe
import Argentum.Kernel.Screen
import Argentum.Libc.Time
import Argentum.Libc.Inet
import Argentum.Libc.Strtol
import Argentum.Libc.Printf
import Argentum.Lib.ListCount
import Argentum.Lib.OptionFold
import Argentum.Net.Connection
import Argentum.Net.SocketCalls
import Argentum.Proc.LoadElf
import Argentum.Proc.Exec
import Argentum.Lib.Leb128
import Argentum.Kernel.Kdebug
import Argentum.Kernel.DebugLine
import Argentum.Ipc.Stream
import Argentum.Ipc.Request
import Argentum.Lib.PointUpdate
import Argentum.Kernel.ScreenEdit
import Argentum.Fs.Lookup
import Argentum.User.ShParse
