import LazyWriter.Scheduler

/-!
# The lazy writer scan

`CcLazyWriteScan` (lines 121-388) cut at the points where it takes or releases the master lock or
queues work. `Scan.start` is the top of the scan up to the first node of the walk; `Scan.walk` is one
iteration of the walk up to the point where it releases the master lock or moves to the next node;
`Scan.allocate`, `Scan.post` and `Scan.courtesy` are what happens while the current stream is pinned
and when the lock is taken back; `Scan.drain` queues one post-tick entry; `Scan.poke` is the final
`CcScheduleLazyWriteScan`. `scanStep` runs the step the program counter names, and is blocked while
it needs the master lock that someone else holds.

The budget (`pagesToWrite`) and the eligibility test (`eligible`) are pure functions, so that the
arithmetic of lines 197-218 and the short-circuit evaluation of lines 245-256, with the increment of
`LazyWritePassCount` inside it, can be studied on their own. `CcCanIWrite` and the allocator are
inputs. `CcPostDeferredWrites` belongs to the collaborators; its effect on `CcDeferredWrites` is an
environment step of the system.
-/

namespace LazyWriter

/-- Modelled from the spec: `LAZY_WRITER_MAX_AGE_TARGET` is defined in `cc.h`, outside the
source, and the spec gives `age_target = 8`. -/
def lazyWriterMaxAgeTarget : ULONG := 8

/-- Lines 197-200: the usual fraction of the dirty pages, or all of them when there are few. -/
def agedPages (total : ULONG) : ULONG :=
  if total > lazyWriterMaxAgeTarget then total / lazyWriterMaxAgeTarget else total

/-- Lines 205-208: `ForegroundRate` from `CcTotalDirtyPages`, `CcPagesWrittenLastTime` and
`CcDirtyPagesLastScan`. -/
def foregroundRate (total written lastScan : ULONG) : ULONG :=
  if total + written > lastScan then total + written - lastScan else 0

/-- Line 211: `EstimatedDirtyNextInterval`. -/
def estimatedDirtyNextInterval (total written lastScan : ULONG) : ULONG :=
  total - agedPages total + foregroundRate total written lastScan

/-- The page budget of one tick (lines 197-214), in `ULONG` arithmetic, from `CcTotalDirtyPages`,
`CcPagesWrittenLastTime`, `CcDirtyPagesLastScan` and `CcDirtyPageTarget`. -/
def pagesToWrite (total written lastScan target : ULONG) : ULONG :=
  if estimatedDirtyNextInterval total written lastScan > target then
    agedPages total + (estimatedDirtyNextInterval total written lastScan - target)
  else agedPages total

/-- The test of lines 245-256 on one stream, given the remaining `PagesToWrite` and the answer
`CcCanIWrite` would give. It returns the verdict and the stream, whose `LazyWritePassCount` has been
incremented if the short-circuit evaluation reached `++SharedCacheMap->LazyWritePassCount`. -/
def eligible (T : Tunables) (pagesToWrite : ULONG) (canIWrite : Bool) (m : SharedCacheMap) :
    Bool × SharedCacheMap :=
  let lazyClose := (m.openCount == 0 && m.dirtyPages == 0) || m.fileSize == 0
  if m.flags.writeQueued || m.flags.isCursor then (false, m)
  else if m.dirtyPages != 0 && !m.flags.waitingForTeardown && pagesToWrite != 0 then
    let m' := { m with lazyWritePassCount := m.lazyWritePassCount + 1 }
    let passGate := (m'.lazyWritePassCount &&& 0xF) == 0 || !m.flags.modifiedWriteDisabled ||
      T.smallSystem || m.dirtyPages ≥ 4 * T.maxWriteBehindPages
    let tempGate := !m.flags.temporaryFile || m.openCount == 0 || !canIWrite
    (passGate && tempGate || lazyClose, m')
  else ((m.dirtyPages != 0 && m.flags.waitingForTeardown) || lazyClose, m)

/-- `SharedCacheMap->PagesToWrite` as lines 263-268 set it: all dirty pages, or an eighth of them
for a large metadata stream on a system that is not small. -/
def writeAmount (T : Tunables) (m : SharedCacheMap) : ULONG :=
  if m.flags.modifiedWriteDisabled && m.dirtyPages ≥ 4 * T.maxWriteBehindPages && !T.smallSystem
  then m.dirtyPages / 8 else m.dirtyPages

namespace Scan

/-- Lines 352-359: fetch the successor of the current stream, then splice the cursor just after
the current stream if that was decided, and move on. -/
def advance (s : State) (sc : Scan) : State × Scan :=
  let next := s.links.flink sc.sharedCacheMap
  if sc.moveBehindCursor then
    ({ s with
        links := (s.links.removeEntryList ccLazyWriterCursor).insertHeadList sc.sharedCacheMap
          ccLazyWriterCursor },
     { sc with moveBehindCursor := false, sharedCacheMap := next, pc := .loop })
  else (s, { sc with sharedCacheMap := next, pc := .loop })

/-- Lines 140-231: with the master lock just acquired, either go idle (or poke and reschedule) when
there is no work, or drain `CcPostTickWorkQueue`, clear `OtherWork`, compute the budget and start
the walk at the cursor's successor. -/
def start (T : Tunables) (s : State) (sc : Scan) : State × Scan :=
  if s.totalDirtyPages = 0 ∧ s.otherWork = false then
    if s.deferredWrites then (s, { sc with pc := .poke })
    else ({ s with scanActive := false }, { sc with pc := .done })
  else
    let p := LazyWriter.pagesToWrite s.totalDirtyPages s.pagesWrittenLastTime s.dirtyPagesLastScan
      T.dirtyPageTarget
    ({ s with
        masterLock := true
        postTick := []
        otherWork := false
        dirtyPagesLastScan := s.totalDirtyPages
        pagesYetToWrite := p
        pagesWrittenLastTime := p },
     { sc with
        pc := .loop
        postTickWorkQueue := s.postTick
        drained := some s.postTick
        pagesToWrite := p
        sharedCacheMap := s.links.flink ccLazyWriterCursor
        firstVisited := none })

/-- Lines 271-299 for an eligible stream whose amount is `amount`: adjust the budget and, the first
time the budget is met, decide where the cursor goes. `fv` is `FirstVisited` and `pass` the
stream's `LazyWritePassCount`. -/
def moveCursor (s : State) (sc : Scan) (modifiedWriteDisabled : Bool) (fv : Nat) (pass amount : ULONG) :
    State × Scan :=
  if sc.alreadyMoved then (s, sc)
  else if amount ≥ sc.pagesToWrite then
    if modifiedWriteDisabled || (fv == sc.sharedCacheMap && (pass &&& 0xF) == 0) then
      (s, { sc with moveBehindCursor := true, pagesToWrite := 0, alreadyMoved := true })
    else
      ({ s with
          links := (s.links.removeEntryList ccLazyWriterCursor).insertTailList sc.sharedCacheMap
            ccLazyWriterCursor },
       { sc with pagesToWrite := 0, alreadyMoved := true })
  else (s, { sc with pagesToWrite := sc.pagesToWrite - amount })

/-- One iteration of the walk (lines 228-360) with the master lock held, up to the release of the
lock for a dispatch or for lock courtesy, or to the next node. -/
def walk (T : Tunables) (canIWrite : Bool) (s : State) (sc : Scan) : State × Scan :=
  let S := sc.sharedCacheMap
  if sc.firstVisited = some S ∨ S = ccLazyWriterCursor then (s, { sc with pc := .drain })
  else
    let fv := sc.firstVisited.getD S
    let sc := { sc with firstVisited := some fv, visited := sc.visited ++ [S] }
    let (ok, m) := eligible T sc.pagesToWrite canIWrite (s.maps S)
    if ok then
      let amount := writeAmount T m
      let (s, sc) := moveCursor s sc m.flags.modifiedWriteDisabled fv m.lazyWritePassCount amount
      ({ s with
          maps := Function.update s.maps S { m with pagesToWrite := amount }.pin
          masterLock := false },
       { sc with pc := .alloc })
    else if sc.loopsWithLockHeld + 1 ≥ 20 && !(m.flags.writeQueued || m.flags.isCursor) then
      ({ s with maps := Function.update s.maps S m.pin, masterLock := false },
       { sc with loopsWithLockHeld := 0, pc := .courtesy })
    else
      advance { s with maps := Function.update s.maps S m }
        { sc with loopsWithLockHeld := sc.loopsWithLockHeld + 1 }

/-- Lines 308-318 with the lock released: `CcAllocateWorkQueueEntry`, and on failure take the lock
back, unpin the stream and leave the walk. -/
def allocate (allocOk : Bool) (s : State) (sc : Scan) : State × Scan :=
  if allocOk then
    let (e, s) := ccAllocateWorkQueueEntry (.writeBehind sc.sharedCacheMap) s
    (s, { sc with pc := .posting e })
  else
    ({ s.updateMap sc.sharedCacheMap SharedCacheMap.unpin with masterLock := true },
     { sc with pc := .drain })

/-- Lines 320-335 and the end of the iteration: take the lock back, hand the pin to the
`WriteBehind` entry `e`, queue it (to the express queue for a stream waiting for teardown) and move
on. -/
def post (e : Entry) (s : State) (sc : Scan) : State × Scan :=
  let S := sc.sharedCacheMap
  let q := if (s.maps S).flags.waitingForTeardown then Queue.express else .regular
  let s := ccPostWorkQueue e q { s.updateMap S SharedCacheMap.unbias with masterLock := true }
  advance s { sc with loopsWithLockHeld := 0, posted := sc.posted ++ [(e, q)] }

/-- Lines 343-345 and the end of the iteration: take the lock back after a lock-courtesy release,
unpin the stream and move on. -/
def courtesy (s : State) (sc : Scan) : State × Scan :=
  advance { s.updateMap sc.sharedCacheMap SharedCacheMap.unpin with masterLock := true } sc

/-- Lines 365-371: queue the next entry of the local `PostTickWorkQueue` to the regular queue, or
release the master lock when it is empty. -/
def drain (s : State) (sc : Scan) : State × Scan :=
  match sc.postTickWorkQueue with
  | e :: rest =>
    (ccPostWorkQueue e .regular s,
     { sc with postTickWorkQueue := rest, posted := sc.posted ++ [(e, .regular)] })
  | [] => ({ s with masterLock := false }, { sc with pc := .poke })

/-- Lines 173-177 and 376-380: after `CcPostDeferredWrites`, schedule the next scan. -/
def poke (s : State) (sc : Scan) : State × Scan :=
  (ccScheduleLazyWriteScan false s, { sc with pc := .done })

end Scan

/-- The answers of the collaborators that a thread's step consults: `CcCanIWrite`,
`CcAllocateWorkQueueEntry` and `CcWriteBehind`. -/
structure Input where
  canIWrite : Bool
  allocOk : Bool
  io : IoStatus
deriving DecidableEq, Repr

/-- The next step of a scan, if it can run: the steps that take the master lock wait while it is
held. -/
def scanStep (T : Tunables) (inp : Input) (s : State) (sc : Scan) : Option (State × Scan) :=
  match sc.pc with
  | .top => if s.masterLock then none else some (Scan.start T s sc)
  | .loop => some (Scan.walk T inp.canIWrite s sc)
  | .alloc =>
    if inp.allocOk || !s.masterLock then some (Scan.allocate inp.allocOk s sc) else none
  | .posting e => if s.masterLock then none else some (Scan.post e s sc)
  | .courtesy => if s.masterLock then none else some (Scan.courtesy s sc)
  | .drain => some (Scan.drain s sc)
  | .poke => some (Scan.poke s sc)
  | .done => none

end LazyWriter
