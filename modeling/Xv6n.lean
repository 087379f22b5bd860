import Xv6n.Log.Drain
import Xv6n.Log.Crash
import Xv6n.Sched.Kill
import Xv6n.Sched.Wait
import Xv6n.Sched.Wakeup
import Xv6n.Sched.Read
import Xv6n.Bio.Pinned
import Xv6n.Virtio.Protocol
import Xv6n.Ftable.Calls
import Xv6n.Fs.Balanced
import Xv6n.Sched.Pid
import Xv6n.Sh.Run
import Xv6n.Sh.Words
import Xv6n.Umalloc.Overflow
import Xv6n.Fs.ReadWrite
import Xv6n.Vm.Clone
import Xv6n.Vm.ArgBlock
import Xv6n.Kalloc.Starve
import Xv6n.Vm.ReadOnly
import Xv6n.Memmove
import Xv6n.Mkfs.TooMany
import Xv6n.Fs.FreeMap
import Xv6n.Printf
import Xv6n.Sched.Ticks
import Xv6n.Grep.Lines
import Xv6n.Umalloc.Request
import Xv6n.Intr
import Xv6n.Console.Read
import Xv6n.Sleeplock
import Xv6n.Uart
