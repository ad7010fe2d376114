import LazyWriter.Inversion

/-!
# The rescan of a worker leaving its loop

A worker that leaves the loop of `CcWorkerThread` calls `CcLazyWriteScan` itself (lines 556-558)
when its last `WriteBehind` succeeded, deferred writes are pending and at least 20 pages are dirty.
That test reads neither `ScanActive` nor the scan timer nor the work queues, so the rescan runs
whatever the scan driven by the timer is doing, and it runs the whole scan: the quiescent exit that
clears `ScanActive` (line 170) and the budget of the tick included.

`scans_overlap` is a run with one worker item. The first timer scan queues a `WriteBehind` of the
one dirty stream; the worker executes it, finds the queues empty and, deferred writes having become
pending, runs the rescan. The next timer expiry queues a `LazyWriteScan` entry, which wakes the worker
item again on a second thread, and both scans pass the top of `CcLazyWriteScan`: one has pinned the
stream and released the master lock to allocate its entry, the other walks the dirty list under the
lock.

`Activation` follows one invocation of `CcWorkerThread` from its first line, with what its calls
of `CcWriteBehind` left, in order (`Thread.executed`). Other threads and the rest of the cache
manager run between its steps, so each step may start from any state; every thread of a reachable
state is the end of one (`Reachable.activation`). Line 521 assigns `RescanOk`, it does not
accumulate it, and a call that raises skips it for the `except` clause of lines 536-543:
`threadStep_rescanOk` is the one step that changes it, and `Activation.rescanOk` shows that it is
the success of the last `WriteBehind` that returned, `FALSE` if there was none (`lastSuccess`). So
the rescan runs exactly when deferred writes are pending, at least 20 pages are dirty and the last
`WriteBehind` that returned succeeded (`rescan_iff_last_write_behind_ok`). A success followed by a
failure does not start it (`rescan_skipped_after_failed_last_write_behind`); a success followed by a
call that raises does (`rescan_after_last_write_behind_ok`).
-/

namespace LazyWriter

/-- The schedule of `scans_overlap`: the first scan and its `WriteBehind` on thread 0, deferred
writes becoming pending, the worker leaving its loop into the rescan, the next timer expiry, four
steps of thread 1 (pop the `LazyWriteScan` entry, start the scan, take the tick, pin the stream) and
the top of the rescan on thread 0. -/
def overlapRun : List Label :=
  [.env (.setStream 2 100 1 4096 false false false), .env (.setTotalDirtyPages 100),
    .schedule false, .scanDpc true] ++ List.replicate 12 (.thread 0 ⟨true, true, ⟨true, false, false⟩⟩) ++
    [.env (.setDeferredWrites true)] ++ List.replicate 3 (.thread 0 ⟨true, true, ⟨true, false, false⟩⟩) ++
    [.scanDpc true] ++ List.replicate 4 (.thread 1 ⟨true, true, ⟨true, false, false⟩⟩) ++
    [.thread 0 ⟨true, true, ⟨true, false, false⟩⟩]

/-- Two executions of `CcLazyWriteScan` overlap: thread 0 runs the rescan of line 557 and walks
the dirty list, while thread 1 runs the scan of a `LazyWriteScan` entry and has released the master
lock to allocate a `WriteBehind`. -/
theorem scans_overlap :
    ∃ s : State, Reachable ⟨1000, false, 16⟩ 1 s ∧
      (s.threads.map fun th => th matches .rescan _) = [true, false] ∧
      (s.threads.filterMap Thread.scan?).map Scan.pc = [.loop, .alloc] := by
  obtain ⟨s, hs, h⟩ := (Reachable.init_stream ⟨1000, false, 16⟩ 1 2 (by decide)).exists_of_runAll
    overlapRun (P := fun s => decide ((s.threads.map fun th => th matches .rescan _) =
      [true, false] ∧ (s.threads.filterMap Thread.scan?).map Scan.pc = [.loop, .alloc])) (by decide)
  exact ⟨s, hs, of_decide_eq_true h⟩

/-- What the calls of `CcWriteBehind` in a step of a thread left: only the dispatch of a popped
`WriteBehind` entry makes one (line 520). -/
def Thread.executed (inp : Input) : Thread → List IoStatus
  | .exec _ _ e _ =>
    match e.work with
    | .writeBehind _ => [inp.io]
    | _ => []
  | _ => []

/-- One activation of `CcWorkerThread` from its first line (lines 463-468), with what its calls of
`CcWriteBehind` left, in order. Each step starts from any state: the rest of the system may have run
since the last one. -/
inductive Activation (T : Tunables) : Thread → List IoStatus → Prop
  | start (item : Nat) : Activation T (.loop item .init) []
  | step {th th' : Thread} {ios : List IoStatus} {s s' : State} (inp : Input) :
      Activation T th ios → threadStep T inp s th = some (s', th') →
      Activation T th' (ios ++ th.executed inp)

/-- The success of the last `WriteBehind` of `ios` that returned without raising, `FALSE` if there
is none. -/
def lastSuccess (ios : List IoStatus) : Bool :=
  ((ios.filter fun io => !io.raised).getLast?.map IoStatus.success).getD false

/-- One more call: its success if it returned, the old value if it raised. -/
lemma lastSuccess_append_singleton (ios : List IoStatus) (io : IoStatus) :
    lastSuccess (ios ++ [io]) = if io.raised then lastSuccess ios else io.success := by
  cases h : io.raised <;> simp [lastSuccess, List.filter_append, h]

/-- `RescanOk` of a thread that still has it. -/
def Thread.rescanOk? : Thread → Option Bool
  | .loop _ w | .exec _ w _ _ | .scan _ w _ _ _ => some w.rescanOk
  | .exited ok => some ok
  | .rescan _ | .done => none

/-- Every thread of a reachable state is the end of an activation. -/
lemma Reachable.activation {T : Tunables} {N : Nat} {s : State} (h : Reachable T N s) :
    ∀ th ∈ s.threads, ∃ ios, Activation T th ios :=
  h.threads_all (fun i => ⟨[], .start i⟩) fun h1 ⟨_, ha⟩ => ⟨_, ha.step _ h1⟩

/-- The head of the loop keeps `RescanOk`, whether it pops an entry or leaves the loop. -/
lemma workerTop_rescanOk (item : Nat) (w : WorkerLocals) (s : State) :
    (workerTop item w s).2.rescanOk? = some w.rescanOk := by
  dsimp only [workerTop]
  rcases workerTake_snd item (workerRequeue w s).2 (workerRequeue w s).1 with h | ⟨e, q, h⟩ <;>
    rw [h] <;> simp [Thread.rescanOk?]

/-- A step of a worker either calls `CcWriteBehind` and sets `RescanOk` to the success of its status
(line 521) unless the call raised, or calls nothing and keeps `RescanOk`. -/
lemma threadStep_rescanOk {T : Tunables} {inp : Input} {s s' : State} {th th' : Thread} {b : Bool}
    (h : threadStep T inp s th = some (s', th')) (hb : th'.rescanOk? = some b) :
    (th.executed inp = [inp.io] ∧ ∃ b₀, th.rescanOk? = some b₀ ∧
      b = if inp.io.raised then b₀ else inp.io.success) ∨
    (th.executed inp = [] ∧ th.rescanOk? = some b) := by
  rcases threadStep_cases h with ⟨item, w, rfl, hw⟩ | ⟨item, w, e, q, rfl, -, hw⟩ |
    ⟨_, _, _, _, _, rfl, -, -, rfl⟩ | ⟨_, _, _, _, _, _, rfl, -, rfl⟩ | ⟨_, rfl, -, rfl⟩ | ⟨_, rfl, -, -, rfl⟩ |
    ⟨_, _, rfl, -, rfl⟩
  · have h2 : th' = (workerTop item w s).2 := congrArg Prod.snd hw
    rw [h2, workerTop_rescanOk] at hb
    exact .inr ⟨rfl, hb⟩
  · have h2 : th' = (workerDispatch item w e q inp.io s).2 := congrArg Prod.snd hw
    subst h2
    cases he : e.work with
    | writeBehind S =>
      refine .inl ⟨by simp [Thread.executed, he], w.rescanOk, rfl, ?_⟩
      simp only [workerDispatch, he] at hb
      split_ifs at hb <;>
        simpa only [Thread.rescanOk?, WorkerLocals.afterWriteBehind_rescanOk, Option.some.injEq, eq_comm] using hb
    | _ => simp only [workerDispatch, he] at hb; exact .inr ⟨by simp [Thread.executed, he], hb⟩
  · exact .inr ⟨rfl, hb⟩
  · exact .inr ⟨rfl, hb⟩
  · unfold workerExit at hb; split_ifs at hb <;> cases hb
  · cases hb
  · cases hb

/-- Along an activation, `RescanOk` is the success of the last `WriteBehind` executed. -/
lemma Activation.rescanOk {T : Tunables} {th : Thread} {ios : List IoStatus} (h : Activation T th ios)
    {b : Bool} (hb : th.rescanOk? = some b) : b = lastSuccess ios := by
  induction h generalizing b with
  | start => cases hb; rfl
  | step inp _ h1 ih =>
    rcases threadStep_rescanOk h1 hb with ⟨he, b₀, hb₀, rfl⟩ | ⟨he, hb'⟩
    · rw [he, lastSuccess_append_singleton, ← ih hb₀]
    · rw [he, List.append_nil]; exact ih hb'

/-- Lines 556-558: a worker that has left its loop runs the rescan exactly when `CcDeferredWrites`
is not empty, `CcTotalDirtyPages` is at least 20 and the last `WriteBehind` it executed that returned
without raising succeeded, whatever entries, statuses and exceptions came before. -/
theorem rescan_iff_last_write_behind_ok {T : Tunables} {ok : Bool} {ios : List IoStatus}
    (h : Activation T (.exited ok) ios) (inp : Input) (s : State) :
    threadStep T inp s (.exited ok) = some (s, .rescan Scan.init) ↔
      s.deferredWrites = true ∧ 20 ≤ s.totalDirtyPages ∧ lastSuccess ios = true := by
  obtain rfl : ok = lastSuccess ios := h.rescanOk rfl
  simp [threadStep, workerExit]

/-- Two `WriteBehind` entries on the regular queue of a busy system with deferred writes pending. -/
def twoWriteBehinds : State :=
  { State.init 1 with
    regular := [⟨0, .writeBehind 2⟩, ⟨1, .writeBehind 3⟩]
    idle := []
    active := 1
    nextEntry := 2
    deferredWrites := true
    totalDirtyPages := 100 }

/-- A worker pops the two entries of `twoWriteBehinds`, executes them with the statuses of success
`b₁` and `b₂`, raising as `r₁` and `r₂` say, and leaves its loop. -/
lemma twoWriteBehinds_activation (T : Tunables) (b₁ r₁ b₂ r₂ : Bool) :
    Activation T (.exited (lastSuccess [⟨b₁, false, r₁⟩, ⟨b₂, false, r₂⟩]))
      [⟨b₁, false, r₁⟩, ⟨b₂, false, r₂⟩] := by
  have h1 : Activation T (.exec 0 .init ⟨0, .writeBehind 2⟩ .regular) [] :=
    @Activation.step _ _ _ _ twoWriteBehinds _ ⟨true, true, ⟨b₁, false, r₁⟩⟩ (.start 0) rfl
  have h2 : Activation T (.loop 0 ⟨lastSuccess [⟨b₁, false, r₁⟩], false, none⟩) [⟨b₁, false, r₁⟩] :=
    @Activation.step _ _ _ _ twoWriteBehinds _ ⟨true, true, ⟨b₁, false, r₁⟩⟩ h1 (by cases r₁ <;> rfl)
  have h3 : Activation T (.exec 0 ⟨lastSuccess [⟨b₁, false, r₁⟩], false, none⟩ ⟨1, .writeBehind 3⟩ .regular)
      [⟨b₁, false, r₁⟩] :=
    @Activation.step _ _ _ _ (twoWriteBehinds.setQueue .regular [⟨1, .writeBehind 3⟩]) _
      ⟨true, true, ⟨b₂, false, r₂⟩⟩ h2 rfl
  have h4 : Activation T (.loop 0 ⟨lastSuccess [⟨b₁, false, r₁⟩, ⟨b₂, false, r₂⟩], false, none⟩)
      [⟨b₁, false, r₁⟩, ⟨b₂, false, r₂⟩] :=
    @Activation.step _ _ _ _ twoWriteBehinds _ ⟨true, true, ⟨b₂, false, r₂⟩⟩ h3
      (by cases r₁ <;> cases r₂ <;> rfl)
  exact @Activation.step _ _ _ _ (twoWriteBehinds.setQueue .regular []) _ ⟨true, true, ⟨b₂, false, r₂⟩⟩ h4 rfl

/-- A worker whose first `WriteBehind` succeeds and whose second raises leaves its loop with
`RescanOk` still set, and runs the rescan. -/
theorem rescan_after_last_write_behind_ok :
    threadStep ⟨1000, false, 16⟩ ⟨true, true, ⟨true, false, false⟩⟩ twoWriteBehinds (.exited true) =
      some (twoWriteBehinds, .rescan Scan.init) :=
  (rescan_iff_last_write_behind_ok (twoWriteBehinds_activation _ true false false true) _ _).2
    ⟨rfl, by decide, rfl⟩

/-- A worker whose first `WriteBehind` succeeds and whose second fails leaves its loop with
`RescanOk` false, and does not run the rescan although deferred writes are pending and 100 pages are
dirty. -/
theorem rescan_skipped_after_failed_last_write_behind :
    ∃ (ios : List IoStatus) (s : State), Activation ⟨1000, false, 16⟩ (.exited false) ios ∧
      (∃ io ∈ ios, io.success = true) ∧ s.deferredWrites = true ∧ 20 ≤ s.totalDirtyPages ∧
      threadStep ⟨1000, false, 16⟩ ⟨true, true, ⟨true, false, false⟩⟩ s (.exited false) = some (s, .done) :=
  ⟨_, twoWriteBehinds, twoWriteBehinds_activation _ true false false false, ⟨_, List.mem_cons_self _ _, rfl⟩,
    rfl, by decide, rfl⟩

end LazyWriter
