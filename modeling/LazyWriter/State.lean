import LazyWriter.Basic

/-!
# System state

The state of the lazy writer and of the threads that run it. The globals of `lazyrite.c` are
fields of `State`: those the master lock protects (`LazyWriter.ScanActive`, `LazyWriter.OtherWork`,
the budget counters, `CcPostTickWorkQueue`, the dirty list and its streams), those the work-queue
lock protects (the two work queues, `CcIdleWorkerThreadList`, `CcNumberActiveWorkerThreads`,
`CcQueueThrottle`), and the master lock itself. Work-queue entries are identified by allocation, so
`nextEntry` is the allocator and `freed` the entries `CcFreeWorkQueueEntry` has returned.
`callers` are the `EventSet` entries that callers of `CcWaitForCurrentLazyWriterActivity` have
allocated (line 98) and not yet put on `CcPostTickWorkQueue` (line 110), and `dpcs` the
`LazyWriteScan` entries that activations of `CcScanDpc` have allocated (line 70) and not yet posted
(line 78).

A thread is one invocation of `CcWorkerThread`: `Thread` is its program counter together with the
locals its loop carries from one iteration to the next (`WorkerLocals`), and a scan it runs keeps
the locals of `CcLazyWriteScan` (`Scan`). Three fields of `Scan` are history variables that no step
reads: `visited`, `drained` and `posted` record which nodes the walk inspected, what it took from
`CcPostTickWorkQueue`, and what it queued.
-/

namespace LazyWriter

/-- The due time `CcScheduleLazyWriteScan` gives the scan timer: `CcNoDelay`, `CcIdleDelay` or
`CcFirstDelay`. -/
inductive Delay
  | noDelay
  | idleDelay
  | firstDelay
deriving DecidableEq, Repr

/-- Values this module reads but never writes: `CcDirtyPageTarget`, whether
`CcCapturedSystemSize == MmSmallSystem`, and `MAX_WRITE_BEHIND / PAGE_SIZE`, which `cc.h` defines
outside the source. -/
structure Tunables where
  dirtyPageTarget : ULONG
  smallSystem : Bool
  maxWriteBehindPages : ULONG

/-- What `CcWorkerThread` finds after its call of `CcWriteBehind`: whether `IoStatus.Status` is a
success code and whether `IoStatus.Information` is `CC_REQUEUE`, the only two things it tests, and
whether the call left by an exception that `CcExceptionFilter` accepted (lines 536-543) rather than
by returning. -/
structure IoStatus where
  success : Bool
  requeue : Bool
  raised : Bool
deriving DecidableEq, Repr

/-- The locals of `CcWorkerThread` that live from one loop iteration to the next. `requeue` holds
`WorkQueueEntry` and the `WorkQueue` it came from while `IoStatus.Information == CC_REQUEUE`. -/
structure WorkerLocals where
  rescanOk : Bool
  dropThrottle : Bool
  requeue : Option (Entry × Queue)
deriving DecidableEq, Repr

/-- The locals as `CcWorkerThread` initializes them (lines 463-468). -/
def WorkerLocals.init : WorkerLocals := ⟨false, false, none⟩

/-- Where a `CcLazyWriteScan` activation is. `loop` and `drain` hold the master lock; `alloc`,
`posting` and `courtesy` have released it while the current stream is pinned by `WRITE_QUEUED`;
`posting e` holds the entry `e` that `CcAllocateWorkQueueEntry` returned. -/
inductive ScanPc
  | top
  | loop
  | alloc
  | posting (e : Entry)
  | courtesy
  | drain
  | poke
  | done
deriving DecidableEq, Repr

/-- The locals of one `CcLazyWriteScan` activation, and three history variables. -/
structure Scan where
  pc : ScanPc
  pagesToWrite : ULONG
  loopsWithLockHeld : ULONG
  alreadyMoved : Bool
  moveBehindCursor : Bool
  sharedCacheMap : Nat
  firstVisited : Option Nat
  postTickWorkQueue : List Entry
  visited : List Nat
  drained : Option (List Entry)
  posted : List (Entry × Queue)
deriving DecidableEq, Repr

/-- A scan about to run its first line. -/
def Scan.init : Scan :=
  ⟨.top, 0, 0, false, false, ccLazyWriterCursor, none, [], [], none, []⟩

/-- The program counter of one invocation of `CcWorkerThread`. `loop`, `exec` and `scan` hold the
worker item the thread was started with; after the loop it is back on the idle list (`exited`),
and the thread may still run the rescan of line 557. -/
inductive Thread
  | loop (item : Nat) (w : WorkerLocals)
  | exec (item : Nat) (w : WorkerLocals) (e : Entry) (q : Queue)
  | scan (item : Nat) (w : WorkerLocals) (e : Entry) (q : Queue) (sc : Scan)
  | exited (rescanOk : Bool)
  | rescan (sc : Scan)
  | done
deriving DecidableEq, Repr

/-- The globals of the lazy writer and its worker pool, with the running threads. -/
structure State where
  masterLock : Bool
  scanActive : Bool
  otherWork : Bool
  timer : Option Delay
  totalDirtyPages : ULONG
  pagesWrittenLastTime : ULONG
  dirtyPagesLastScan : ULONG
  pagesYetToWrite : ULONG
  deferredWrites : Bool
  postTick : List Entry
  links : Links
  maps : Nat → SharedCacheMap
  express : List Entry
  regular : List Entry
  idle : List Nat
  active : Nat
  throttle : Bool
  threads : List Thread
  nextEntry : Nat
  freed : List Nat
  signaled : List Nat
  callers : List Entry
  dpcs : List Entry

namespace State

/-- The work queue `q`. -/
def queue (s : State) : Queue → List Entry
  | .express => s.express
  | .regular => s.regular

/-- Replace the work queue `q`. -/
def setQueue (s : State) : Queue → List Entry → State
  | .express, l => { s with express := l }
  | .regular, l => { s with regular := l }

/-- Apply `f` to the stream at `x`. -/
def updateMap (s : State) (x : Nat) (f : SharedCacheMap → SharedCacheMap) : State :=
  { s with maps := Function.update s.maps x (f (s.maps x)) }

@[simp] lemma queue_express (s : State) : s.queue .express = s.express := rfl
@[simp] lemma queue_regular (s : State) : s.queue .regular = s.regular := rfl

@[simp] lemma setQueue_queue (s : State) (q : Queue) (l : List Entry) :
    (s.setQueue q l).queue q = l := by cases q <;> rfl

lemma setQueue_queue_of_ne (s : State) {q q' : Queue} (l : List Entry) (h : q' ≠ q) :
    (s.setQueue q l).queue q' = s.queue q' := by
  cases q <;> cases q' <;> simp_all [setQueue, queue]

end State

namespace SharedCacheMap

/-- `SetFlag (Flags, WRITE_QUEUED); DirtyPages += 1`: the pin the scan takes before releasing the
master lock. -/
def pin (m : SharedCacheMap) : SharedCacheMap :=
  { m with flags := { m.flags with writeQueued := true }, dirtyPages := m.dirtyPages + 1 }

/-- `ClearFlag (Flags, WRITE_QUEUED); DirtyPages -= 1`: the pin released. -/
def unpin (m : SharedCacheMap) : SharedCacheMap :=
  { m with flags := { m.flags with writeQueued := false }, dirtyPages := m.dirtyPages - 1 }

/-- `DirtyPages -= 1` with `WRITE_QUEUED` kept: the pin handed over to a `WriteBehind` entry. -/
def unbias (m : SharedCacheMap) : SharedCacheMap :=
  { m with dirtyPages := m.dirtyPages - 1 }

@[simp] lemma pin_writeQueued (m : SharedCacheMap) : m.pin.flags.writeQueued = true := rfl
@[simp] lemma unpin_writeQueued (m : SharedCacheMap) : m.unpin.flags.writeQueued = false := rfl
@[simp] lemma unbias_flags (m : SharedCacheMap) : m.unbias.flags = m.flags := rfl
@[simp] lemma pin_dirtyPages (m : SharedCacheMap) : m.pin.dirtyPages = m.dirtyPages + 1 := rfl
@[simp] lemma unpin_dirtyPages (m : SharedCacheMap) : m.unpin.dirtyPages = m.dirtyPages - 1 := rfl
@[simp] lemma unbias_dirtyPages (m : SharedCacheMap) : m.unbias.dirtyPages = m.dirtyPages - 1 :=
  rfl

end SharedCacheMap

end LazyWriter
