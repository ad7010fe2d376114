import LazyWriter.State

/-!
# Scheduling and work queues

`CcScheduleLazyWriteScan` and the timer routine `CcScanDpc` (lines 27-80),
`CcWaitForCurrentLazyWriterActivity` (lines 83-118) and `CcPostWorkQueue` (lines 414-448), with the
pool allocator they use. `CcScheduleLazyWriteScan` runs under the master lock and `CcPostWorkQueue`
under the work-queue lock, each as one atomic step. The other two allocate an entry without a lock
and queue it later, so each is cut there: `waitAllocate` (lines 98-105) and `waitInsert`
(lines 109-115, under the master lock) for `CcWaitForCurrentLazyWriterActivity`, `scanDpcAllocate`
(lines 68-77) and the `CcPostWorkQueue` of line 78 for `CcScanDpc`. Between the two halves the entry
is held by its caller (`State.callers`, `State.dpcs`), and other threads run. The routines
themselves are the two halves run back to back. Allocation failure is an input:
`CcAllocateWorkQueueEntry` either fails or returns a fresh entry.

Waking a worker (`ExQueueWorkItem`) starts a new invocation of `CcWorkerThread` on the worker item
taken from the idle list, so `ccPostWorkQueue` may append a thread.
-/

namespace LazyWriter

/-- `CcAllocateWorkQueueEntry` when it succeeds: a fresh entry. -/
def ccAllocateWorkQueueEntry (w : Work) (s : State) : Entry × State :=
  (⟨s.nextEntry, w⟩, { s with nextEntry := s.nextEntry + 1 })

/-- `CcFreeWorkQueueEntry`. -/
def ccFreeWorkQueueEntry (e : Entry) (s : State) : State :=
  { s with freed := s.freed ++ [e.addr] }

/-- Lines 435-445 of `CcPostWorkQueue`: unless throttled, take an idle worker item and start a
thread on it. -/
def wakeWorker (s : State) : State :=
  match s.throttle, s.idle with
  | false, i :: rest =>
    { s with idle := rest, active := s.active + 1, threads := s.threads ++ [.loop i .init] }
  | _, _ => s

/-- `CcPostWorkQueue (WorkQueueEntry, WorkQueue)`. -/
def ccPostWorkQueue (e : Entry) (q : Queue) (s : State) : State :=
  wakeWorker (s.setQueue q (s.queue q ++ [e]))

/-- `CcScheduleLazyWriteScan (FastScan)`. -/
def ccScheduleLazyWriteScan (fastScan : Bool) (s : State) : State :=
  if fastScan then { s with scanActive := true, timer := some .noDelay }
  else if s.scanActive then { s with timer := some .idleDelay }
  else { s with scanActive := true, timer := some .firstDelay }

/-- `CcScanDpc`, run when the scan timer expires; `allocOk` is whether the allocation succeeds. -/
def ccScanDpc (allocOk : Bool) (s : State) : State :=
  let s := { s with timer := none }
  if allocOk then
    let (e, s) := ccAllocateWorkQueueEntry .lazyWriteScan s
    ccPostWorkQueue e .regular s
  else { s with scanActive := false }

/-- Lines 68-77 of `CcScanDpc` when the allocation succeeds: the timer has expired and the DPC holds
a fresh `LazyWriteScan` entry, which it posts at line 78. -/
def scanDpcAllocate (s : State) : State :=
  let (e, s) := ccAllocateWorkQueueEntry .lazyWriteScan { s with timer := none }
  { s with dpcs := s.dpcs ++ [e] }

/-- Lines 109-115 of `CcWaitForCurrentLazyWriterActivity`, under the master lock: the caller's
entry `e` goes to the tail of `CcPostTickWorkQueue`, `OtherWork` is set, and a fast scan is
scheduled unless one is active. -/
def waitInsert (e : Entry) (s : State) : State :=
  let s := { s with postTick := s.postTick ++ [e], otherWork := true }
  if !s.scanActive then ccScheduleLazyWriteScan true s else s

/-- `CcWaitForCurrentLazyWriterActivity` up to its wait, when the allocation succeeds (when it
fails the routine returns `STATUS_INSUFFICIENT_RESOURCES` and changes nothing). -/
def ccWaitForCurrentLazyWriterActivity (s : State) : State :=
  let (e, s) := ccAllocateWorkQueueEntry .eventSet s
  waitInsert e s

/-- Lines 98-105 of `CcWaitForCurrentLazyWriterActivity` when the allocation succeeds: the caller
holds a fresh `EventSet` entry, which it queues at line 110. -/
def waitAllocate (s : State) : State :=
  let (e, s) := ccAllocateWorkQueueEntry .eventSet s
  { s with callers := s.callers ++ [e] }

section Frame

variable (s : State)

@[simp] lemma wakeWorker_maps : (wakeWorker s).maps = s.maps := by
  unfold wakeWorker; split <;> rfl
@[simp] lemma wakeWorker_links : (wakeWorker s).links = s.links := by
  unfold wakeWorker; split <;> rfl
@[simp] lemma wakeWorker_express : (wakeWorker s).express = s.express := by
  unfold wakeWorker; split <;> rfl
@[simp] lemma wakeWorker_regular : (wakeWorker s).regular = s.regular := by
  unfold wakeWorker; split <;> rfl
@[simp] lemma wakeWorker_throttle : (wakeWorker s).throttle = s.throttle := by
  unfold wakeWorker; split <;> rfl
@[simp] lemma wakeWorker_postTick : (wakeWorker s).postTick = s.postTick := by
  unfold wakeWorker; split <;> rfl
@[simp] lemma wakeWorker_otherWork : (wakeWorker s).otherWork = s.otherWork := by
  unfold wakeWorker; split <;> rfl
@[simp] lemma wakeWorker_scanActive : (wakeWorker s).scanActive = s.scanActive := by
  unfold wakeWorker; split <;> rfl
@[simp] lemma wakeWorker_timer : (wakeWorker s).timer = s.timer := by
  unfold wakeWorker; split <;> rfl
@[simp] lemma wakeWorker_masterLock : (wakeWorker s).masterLock = s.masterLock := by
  unfold wakeWorker; split <;> rfl
@[simp] lemma wakeWorker_nextEntry : (wakeWorker s).nextEntry = s.nextEntry := by
  unfold wakeWorker; split <;> rfl
@[simp] lemma wakeWorker_freed : (wakeWorker s).freed = s.freed := by
  unfold wakeWorker; split <;> rfl
@[simp] lemma wakeWorker_signaled : (wakeWorker s).signaled = s.signaled := by
  unfold wakeWorker; split <;> rfl
@[simp] lemma wakeWorker_deferredWrites : (wakeWorker s).deferredWrites = s.deferredWrites := by
  unfold wakeWorker; split <;> rfl
@[simp] lemma wakeWorker_totalDirtyPages : (wakeWorker s).totalDirtyPages = s.totalDirtyPages := by
  unfold wakeWorker; split <;> rfl
@[simp] lemma wakeWorker_callers : (wakeWorker s).callers = s.callers := by
  unfold wakeWorker; split <;> rfl
@[simp] lemma wakeWorker_dpcs : (wakeWorker s).dpcs = s.dpcs := by
  unfold wakeWorker; split <;> rfl

/-- What waking a worker does to the pool: nothing while throttled or with no idle item, or one
idle item starts a thread. -/
lemma wakeWorker_cases :
    (wakeWorker s = s ∧ (s.throttle = true ∨ s.idle = [])) ∨
    ∃ i rest, s.throttle = false ∧ s.idle = i :: rest ∧
      wakeWorker s =
        { s with
          idle := rest
          active := s.active + 1
          threads := s.threads ++ [.loop i .init] } := by
  unfold wakeWorker
  split
  · next i rest h1 h2 => exact .inr ⟨i, rest, h1, h2, rfl⟩
  · next h =>
    refine .inl ⟨rfl, ?_⟩
    cases hth : s.throttle
    · cases hi : s.idle with
      | nil => exact .inr rfl
      | cons i rest => exact (h i rest hth hi).elim
    · exact .inl rfl

@[simp] lemma setQueue_maps (q : Queue) (l : List Entry) : (s.setQueue q l).maps = s.maps := by
  cases q <;> rfl
@[simp] lemma setQueue_links (q : Queue) (l : List Entry) : (s.setQueue q l).links = s.links := by
  cases q <;> rfl
@[simp] lemma setQueue_throttle (q : Queue) (l : List Entry) :
    (s.setQueue q l).throttle = s.throttle := by cases q <;> rfl
@[simp] lemma setQueue_idle (q : Queue) (l : List Entry) : (s.setQueue q l).idle = s.idle := by
  cases q <;> rfl
@[simp] lemma setQueue_active (q : Queue) (l : List Entry) :
    (s.setQueue q l).active = s.active := by cases q <;> rfl
@[simp] lemma setQueue_threads (q : Queue) (l : List Entry) :
    (s.setQueue q l).threads = s.threads := by cases q <;> rfl
@[simp] lemma setQueue_postTick (q : Queue) (l : List Entry) :
    (s.setQueue q l).postTick = s.postTick := by cases q <;> rfl
@[simp] lemma setQueue_otherWork (q : Queue) (l : List Entry) :
    (s.setQueue q l).otherWork = s.otherWork := by cases q <;> rfl
@[simp] lemma setQueue_scanActive (q : Queue) (l : List Entry) :
    (s.setQueue q l).scanActive = s.scanActive := by cases q <;> rfl
@[simp] lemma setQueue_timer (q : Queue) (l : List Entry) : (s.setQueue q l).timer = s.timer := by
  cases q <;> rfl
@[simp] lemma setQueue_masterLock (q : Queue) (l : List Entry) :
    (s.setQueue q l).masterLock = s.masterLock := by cases q <;> rfl
@[simp] lemma setQueue_nextEntry (q : Queue) (l : List Entry) :
    (s.setQueue q l).nextEntry = s.nextEntry := by cases q <;> rfl
@[simp] lemma setQueue_freed (q : Queue) (l : List Entry) : (s.setQueue q l).freed = s.freed := by
  cases q <;> rfl
@[simp] lemma setQueue_signaled (q : Queue) (l : List Entry) :
    (s.setQueue q l).signaled = s.signaled := by cases q <;> rfl
@[simp] lemma setQueue_deferredWrites (q : Queue) (l : List Entry) :
    (s.setQueue q l).deferredWrites = s.deferredWrites := by cases q <;> rfl
@[simp] lemma setQueue_totalDirtyPages (q : Queue) (l : List Entry) :
    (s.setQueue q l).totalDirtyPages = s.totalDirtyPages := by cases q <;> rfl
@[simp] lemma setQueue_callers (q : Queue) (l : List Entry) :
    (s.setQueue q l).callers = s.callers := by cases q <;> rfl
@[simp] lemma setQueue_dpcs (q : Queue) (l : List Entry) : (s.setQueue q l).dpcs = s.dpcs := by
  cases q <;> rfl

@[simp] lemma ccScheduleLazyWriteScan_callers (f : Bool) :
    (ccScheduleLazyWriteScan f s).callers = s.callers := by
  unfold ccScheduleLazyWriteScan; split_ifs <;> rfl
@[simp] lemma ccScheduleLazyWriteScan_dpcs (f : Bool) : (ccScheduleLazyWriteScan f s).dpcs = s.dpcs := by
  unfold ccScheduleLazyWriteScan; split_ifs <;> rfl
@[simp] lemma ccPostWorkQueue_callers (e : Entry) (q : Queue) :
    (ccPostWorkQueue e q s).callers = s.callers := by simp [ccPostWorkQueue]
@[simp] lemma ccPostWorkQueue_dpcs (e : Entry) (q : Queue) : (ccPostWorkQueue e q s).dpcs = s.dpcs := by
  simp [ccPostWorkQueue]
@[simp] lemma ccPostWorkQueue_masterLock (e : Entry) (q : Queue) :
    (ccPostWorkQueue e q s).masterLock = s.masterLock := by
  simp [ccPostWorkQueue]
@[simp] lemma ccScheduleLazyWriteScan_freed (f : Bool) : (ccScheduleLazyWriteScan f s).freed = s.freed := by
  unfold ccScheduleLazyWriteScan; split_ifs <;> rfl
@[simp] lemma waitInsert_freed (e : Entry) : (waitInsert e s).freed = s.freed := by
  dsimp only [waitInsert]; split_ifs <;> simp
@[simp] lemma waitInsert_callers (e : Entry) : (waitInsert e s).callers = s.callers := by
  dsimp only [waitInsert]; split_ifs <;> simp
@[simp] lemma waitInsert_dpcs (e : Entry) : (waitInsert e s).dpcs = s.dpcs := by
  dsimp only [waitInsert]; split_ifs <;> simp
@[simp] lemma ccWaitForCurrentLazyWriterActivity_dpcs : (ccWaitForCurrentLazyWriterActivity s).dpcs = s.dpcs :=
  waitInsert_dpcs _ _
@[simp] lemma ccScanDpc_dpcs (ok : Bool) : (ccScanDpc ok s).dpcs = s.dpcs := by
  cases ok <;> simp [ccScanDpc, ccAllocateWorkQueueEntry]

@[simp] lemma setQueue_express_regular (l : List Entry) :
    (s.setQueue .express l).regular = s.regular := rfl
@[simp] lemma setQueue_regular_express (l : List Entry) :
    (s.setQueue .regular l).express = s.express := rfl
@[simp] lemma setQueue_express_express (l : List Entry) :
    (s.setQueue .express l).express = l := rfl
@[simp] lemma setQueue_regular_regular (l : List Entry) :
    (s.setQueue .regular l).regular = l := rfl

end Frame

end LazyWriter
