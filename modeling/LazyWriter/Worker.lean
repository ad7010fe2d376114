import LazyWriter.Scan

/-!
# Worker threads

`CcWorkerThread` (lines 452-559) as steps of one thread. `workerTop` is the head of the loop under
the work-queue lock: drop the throttle after an `EventSet`, re-queue the entry of a `CC_REQUEUE`
execution at the tail of the queue it came from, pick the express queue before the regular one,
throttle on an `EventSet` at the head while other workers are active, and either pop the head or
leave the loop and put the worker item back on the idle list. `workerDispatch` is the `switch` on
the popped entry; a `LazyWriteScan` entry starts a scan that runs as steps of its own. `workerExit`
is the test of line 556 that starts the rescan.

`CcWriteBehind` is not in the source. It is modelled from what the spec says of it: it fills in an
`IoStatus` and returns or raises, and when `IoStatus.Information` is not `CC_REQUEUE` it has cleared
`WRITE_QUEUED` of its stream under the master lock, however the call ends. When it raises, the
`except` clause of lines 536-543 takes over from line 521: `RescanOk` keeps its value, and the entry
is freed or re-queued by `IoStatus.Information` as after a return. The clause itself clears only
the `MemoryMaker` flag of the thread, which the model does not keep: a dispatch is one step, and the
flag is clear at its start and at its end on both paths.
-/

namespace LazyWriter

/-- Lines 551-553: put the worker item back on the idle list and count one active worker less. -/
def idleWorker (item : Nat) (s : State) : State :=
  { s with idle := s.idle ++ [item], active := s.active - 1 }

/-- Lines 476-484 of `CcWorkerThread`, under the work-queue lock: drop the throttle after an
`EventSet`, and put the entry of a `CC_REQUEUE` execution back at the tail of its queue. -/
def workerRequeue (w : WorkerLocals) (s : State) : State × WorkerLocals :=
  let s := if w.dropThrottle then { s with throttle := false } else s
  let w := { w with dropThrottle := false }
  match w.requeue with
  | some (e, q) => (s.setQueue q (s.queue q ++ [e]), { w with requeue := none })
  | none => (s, w)

/-- Lines 486-495: the express queue before the regular one; the queue picked, its head and the
rest. -/
def workerPick (s : State) : Option (Queue × Entry × List Entry) :=
  match s.express, s.regular with
  | e :: rest, _ => some (.express, e, rest)
  | [], e :: rest => some (.regular, e, rest)
  | [], [] => none

section Requeue

variable {s : State} {w : WorkerLocals}

/-- The state after lines 476-484. -/
lemma workerRequeue_fst : (workerRequeue w s).1 =
    match w.requeue with
    | some (e, q) => { s with throttle := s.throttle && !w.dropThrottle }.setQueue q (s.queue q ++ [e])
    | none => { s with throttle := s.throttle && !w.dropThrottle } := by
  dsimp only [workerRequeue]
  cases w.dropThrottle <;> split <;> simp_all [State.setQueue, State.queue]

@[simp] lemma workerRequeue_snd :
    (workerRequeue w s).2 = { w with dropThrottle := false, requeue := none } := by
  dsimp only [workerRequeue]; split <;> simp_all

@[simp] lemma workerRequeue_idle : (workerRequeue w s).1.idle = s.idle := by
  rw [workerRequeue_fst]; split <;> simp
@[simp] lemma workerRequeue_active : (workerRequeue w s).1.active = s.active := by
  rw [workerRequeue_fst]; split <;> simp
@[simp] lemma workerRequeue_threads : (workerRequeue w s).1.threads = s.threads := by
  rw [workerRequeue_fst]; split <;> simp
@[simp] lemma workerRequeue_throttle :
    (workerRequeue w s).1.throttle = (s.throttle && !w.dropThrottle) := by
  rw [workerRequeue_fst]; split <;> simp

/-- The queues after lines 476-484: the re-queued entry is at the tail of its queue. -/
lemma workerRequeue_queue (q : Queue) : (workerRequeue w s).1.queue q =
    match w.requeue with
    | some (e, q') => if q' = q then s.queue q ++ [e] else s.queue q
    | none => s.queue q := by
  rw [workerRequeue_fst]
  split
  · next e q' _ =>
    split_ifs with hq
    · subst hq; simp [State.queue]; cases q' <;> rfl
    · rw [State.setQueue_queue_of_ne _ _ (Ne.symm hq)]; cases q <;> rfl
  · cases q <;> rfl

end Requeue

/-- What the pick of lines 486-495 finds. -/
lemma workerPick_eq_none {s : State} : workerPick s = none ↔ s.express = [] ∧ s.regular = [] := by
  unfold workerPick; split <;> simp_all

lemma workerPick_eq_some {s : State} {q : Queue} {e : Entry} {rest : List Entry}
    (h : workerPick s = some (q, e, rest)) :
    s.queue q = e :: rest ∧ (q = .regular → s.express = []) := by
  unfold workerPick at h
  split at h <;> cases h <;> simp_all

/-- Lines 486-506, under the work-queue lock: throttle on an `EventSet` at the head while other
workers are active, and either pop the head or leave the loop. -/
def workerTake (item : Nat) (w : WorkerLocals) (s : State) : State × Thread :=
  match workerPick s with
  | none => (idleWorker item s, .exited w.rescanOk)
  | some (q, e, rest) =>
    if e.isEventSet && decide (s.active > 1) then
      (idleWorker item { s with throttle := true }, .exited w.rescanOk)
    else (s.setQueue q rest, .exec item w e q)

@[simp] lemma workerTake_fst_threads (item : Nat) (w : WorkerLocals) (s : State) :
    (workerTake item w s).1.threads = s.threads := by
  unfold workerTake; split <;> (try split_ifs) <;> simp [idleWorker]

/-- A thread leaves the head of the loop either gone idle or executing a popped entry. -/
lemma workerTake_snd (item : Nat) (w : WorkerLocals) (s : State) :
    (workerTake item w s).2 = .exited w.rescanOk ∨ ∃ e q, (workerTake item w s).2 = .exec item w e q := by
  unfold workerTake; split <;> (try split_ifs) <;> simp

/-- The head of the loop of `CcWorkerThread` (lines 473-506). -/
def workerTop (item : Nat) (w : WorkerLocals) (s : State) : State × Thread :=
  let (s, w) := workerRequeue w s
  workerTake item w s

/-- `workerTake` does not read the threads. -/
lemma workerTake_threads (item : Nat) (w : WorkerLocals) (s : State) (l : List Thread) :
    workerTake item w { s with threads := l } =
      ({ (workerTake item w s).1 with threads := l }, (workerTake item w s).2) := by
  have hp : workerPick { s with threads := l } = workerPick s := rfl
  unfold workerTake
  rw [hp]
  rcases workerPick s with _ | ⟨q, e, rest⟩
  · rfl
  · dsimp only
    split_ifs
    · rfl
    · cases q <;> rfl

/-- Modelled from the spec: `CcWriteBehind (SharedCacheMap, &IoStatus)` is not in the source. What
this module relies on is that a call ending, by a return or by an exception, without `CC_REQUEUE`
has cleared `WRITE_QUEUED` of its stream under the master lock; its I/O and any lazy close are the
collaborators' work. -/
def ccWriteBehind (S : Nat) (io : IoStatus) (s : State) : State :=
  if io.requeue then s
  else s.updateMap S fun m => { m with flags := { m.flags with writeQueued := false } }

/-- Line 521, which runs only when `CcWriteBehind` has returned: `RescanOk` becomes the success of
its status. After an exception the `except` clause runs instead and `RescanOk` keeps its value. -/
def WorkerLocals.afterWriteBehind (w : WorkerLocals) (io : IoStatus) : WorkerLocals :=
  if io.raised then w else { w with rescanOk := io.success }

@[simp] lemma WorkerLocals.afterWriteBehind_dropThrottle (w : WorkerLocals) (io : IoStatus) :
    (w.afterWriteBehind io).dropThrottle = w.dropThrottle := by
  unfold afterWriteBehind; split <;> rfl

@[simp] lemma WorkerLocals.afterWriteBehind_requeue (w : WorkerLocals) (io : IoStatus) :
    (w.afterWriteBehind io).requeue = w.requeue := by
  unfold afterWriteBehind; split <;> rfl

@[simp] lemma WorkerLocals.afterWriteBehind_rescanOk (w : WorkerLocals) (io : IoStatus) :
    (w.afterWriteBehind io).rescanOk = if io.raised then w.rescanOk else io.success := by
  unfold afterWriteBehind; split <;> rfl

/-- The `try` of lines 509-535 on the popped entry `e`, its `except` clause (lines 536-543) and the
free of line 546. `io` is what `CcWriteBehind` leaves if it is called. -/
def workerDispatch (item : Nat) (w : WorkerLocals) (e : Entry) (q : Queue) (io : IoStatus)
    (s : State) : State × Thread :=
  match e.work with
  | .readAhead => (ccFreeWorkQueueEntry e s, .loop item w)
  | .writeBehind S =>
    let s := ccWriteBehind S io s
    let w := w.afterWriteBehind io
    if io.requeue then (s, .loop item { w with requeue := some (e, q) })
    else (ccFreeWorkQueueEntry e s, .loop item w)
  | .eventSet =>
    (ccFreeWorkQueueEntry e { s with signaled := s.signaled ++ [e.addr] },
     .loop item { w with dropThrottle := true })
  | .lazyWriteScan => (s, .scan item w e q Scan.init)

/-- Line 556: the test that makes a thread leaving the loop run one more scan. -/
def workerExit (rescanOk : Bool) (s : State) : Thread :=
  if s.deferredWrites && decide (s.totalDirtyPages ≥ 20) && rescanOk then .rescan Scan.init
  else .done

/-- The next step of a thread, if it can run. A `WriteBehind` that clears `WRITE_QUEUED` waits for
the master lock; a scan waits as `scanStep` says. -/
def threadStep (T : Tunables) (inp : Input) (s : State) : Thread → Option (State × Thread)
  | .loop item w => some (workerTop item w s)
  | .exec item w e q =>
    if s.masterLock && (e.work matches .writeBehind _) && !inp.io.requeue then none
    else some (workerDispatch item w e q inp.io s)
  | .scan item w e q sc =>
    if sc.pc = .done then some (ccFreeWorkQueueEntry e s, .loop item w)
    else (scanStep T inp s sc).map fun (s', sc') => (s', .scan item w e q sc')
  | .exited ok => some (s, workerExit ok s)
  | .rescan sc =>
    if sc.pc = .done then some (s, .done)
    else (scanStep T inp s sc).map fun (s', sc') => (s', .rescan sc')
  | .done => none

end LazyWriter
