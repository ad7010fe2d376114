import LazyWriter.Basic
import LazyWriter.Ring
import LazyWriter.State
import LazyWriter.Scheduler
import LazyWriter.Scan
import LazyWriter.Worker
import LazyWriter.System
import LazyWriter.Inversion
import LazyWriter.Pool
import LazyWriter.Budget
import LazyWriter.Rescan
import LazyWriter.Frame
import LazyWriter.Idle
import LazyWriter.Cursor
import LazyWriter.Places
import LazyWriter.Walk
import LazyWriter.Ownership
import LazyWriter.Hold
import LazyWriter.Resume
import LazyWriter.PushForward
import LazyWriter.Lock
import LazyWriter.DirtyList
import LazyWriter.Barrier
import LazyWriter.Timer
import LazyWriter.Waiters
import LazyWriter.Interference
import LazyWriter.Requeue
