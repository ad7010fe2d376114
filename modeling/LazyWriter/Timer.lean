import LazyWriter.Frame
import LazyWriter.Pool

/-!
# `ScanActive` and the scan timer

`LazyWriter.ScanActive` says that a scan is on its way. `CcScheduleLazyWriteScan` sets it with the
scan timer (lines 42-50); `CcScanDpc` turns the expired timer into a `LazyWriteScan` entry on the
regular queue, or clears the flag when the allocation fails (lines 68-79); a worker pops the entry
and runs `CcLazyWriteScan` on it (lines 531-533); and the scan either goes idle at its top, clearing
the flag (line 170), or sets the timer for the next scan (lines 177 and 380). `State.scansPending`
counts the forms the announced scan takes: the timer, a queued `LazyWriteScan` entry, and a worker
that has popped one and whose scan has not returned (`Thread.scanPending`).

`scan_active_iff_one_scan_pending` says that the count is one while `ScanActive` is set and zero
while it is clear, over every run in which no worker starts the rescan of line 557
(`SerialReachable`). So the scans of the timer never overlap, a caller of
`CcWaitForCurrentLazyWriterActivity` that finds the flag set (line 112) has a scan on its way, and
one that finds it clear has no timer to reset. The rescan is a whole scan that nobody announced: its
top may clear the flag while the timer is set, and its end may set the timer while another scan is
queued.

A scan posts `WriteBehind` entries and the `EventSet` entries of its local `PostTickWorkQueue`
(`PostTickEvents`), so it queues no `LazyWriteScan` entry. `scanStep_sched` and `threadStep_sched`
say what a step of a scan and of a thread does to the timer, the flag and the count, from the frames
of `Frame.lean`; `TimerInv.step` is the step lemma and `SerialReachable.timerInv` the run lemma.
-/

namespace LazyWriter

/-- A `LazyWriteScan` entry, which only `CcScanDpc` allocates (line 77). -/
def Entry.isLazyWriteScan (e : Entry) : Bool := e.work == .lazyWriteScan

/-- The `LazyWriteScan` entries on the two work queues. -/
def State.workQueueScans (s : State) : Nat :=
  s.express.countP Entry.isLazyWriteScan + s.regular.countP Entry.isLazyWriteScan

/-- The `LazyWriteScan` entries allocated and not yet popped by a worker: those that activations of
`CcScanDpc` hold between lines 70 and 78, and those on the two work queues. -/
def State.queuedScans (s : State) : Nat := s.dpcs.countP Entry.isLazyWriteScan + s.workQueueScans

/-- The thread carries the announced scan: it has popped a `LazyWriteScan` entry and its
`CcLazyWriteScan` has not returned. -/
def Thread.scanPending : Thread → Bool
  | .exec _ _ e _ => e.isLazyWriteScan
  | .scan _ _ _ _ sc => sc.pc != .done
  | _ => false

/-- The forms the scan that `ScanActive` announces takes: the scan timer, a `LazyWriteScan` entry
held by `CcScanDpc` or queued, and a worker running it. -/
def State.scansPending (s : State) : Nat :=
  s.timer.isSome.toNat + s.queuedScans + s.threads.countP Thread.scanPending

/-- `ScanActive` is set exactly when one scan is pending. -/
def TimerInv (s : State) : Prop := s.scansPending = s.scanActive.toNat

/-- The thread runs the rescan of line 557. -/
def Thread.rescanning : Thread → Bool
  | .rescan _ => true
  | _ => false

/-- No thread runs the rescan of line 557. -/
def State.NoRescan (s : State) : Prop := ∀ th ∈ s.threads, th.rescanning = false

instance (s : State) : Decidable s.NoRescan :=
  inferInstanceAs (Decidable (∀ th ∈ s.threads, th.rescanning = false))

/-- The states that runs from `State.init N` reach in which no worker starts the rescan of line 557. -/
inductive SerialReachable (T : Tunables) (N : Nat) : State → Prop
  | init : SerialReachable T N (State.init N)
  | step {s s' : State} : SerialReachable T N s → Step T s s' → s'.NoRescan → SerialReachable T N s'

/-- The post-tick queues hold `EventSet` entries only: `CcWaitForCurrentLazyWriterActivity` is the
one routine that queues on `CcPostTickWorkQueue` (line 110), and a scan's local `PostTickWorkQueue`
is what it took from there (lines 186-190). -/
structure PostTickEvents (s : State) : Prop where
  postTick : ∀ e ∈ s.postTick, e.work = .eventSet
  scans : ∀ th ∈ s.threads, ∀ sc, th.scan? = some sc → ∀ e ∈ sc.postTickWorkQueue, e.work = .eventSet

section Queues

variable {s s' : State}

/-- The parts of `State.sched`. -/
lemma State.sched_eq {p : List Entry} {o : Bool} {t : Option Delay} {a : Bool}
    (h : s.sched = (p, o, t, a)) : s.postTick = p ∧ s.otherWork = o ∧ s.timer = t ∧ s.scanActive = a := by
  simpa only [State.sched, Prod.mk.injEq] using h

lemma workQueueScans_of_pool (h : s'.pool = s.pool) : s'.workQueueScans = s.workQueueScans := by
  simp only [State.pool, Prod.mk.injEq] at h
  simp only [State.workQueueScans, h]

lemma workQueueScans_of_pool_post {e : Entry} {q : Queue} (h : s'.pool = (ccPostWorkQueue e q s).pool) :
    s'.workQueueScans = s.workQueueScans + e.isLazyWriteScan.toNat := by
  rw [workQueueScans_of_pool h]
  cases q <;> cases he : e.isLazyWriteScan <;>
    simp [State.workQueueScans, ccPostWorkQueue, State.setQueue, State.queue, he] <;> omega

lemma workQueueScans_setQueue (q : Queue) (l : List Entry) :
    (s.setQueue q l).workQueueScans + (s.queue q).countP Entry.isLazyWriteScan =
      s.workQueueScans + l.countP Entry.isLazyWriteScan := by
  cases q <;> simp only [State.workQueueScans, State.setQueue, State.queue] <;> omega

lemma countP_scanPending_woken {l l' : List Thread} (h : l' = l ∨ ∃ i, l' = l ++ [.loop i .init]) :
    l'.countP Thread.scanPending = l.countP Thread.scanPending := by
  rcases h with rfl | ⟨i, rfl⟩ <;> simp [Thread.scanPending]

lemma countP_scanPending_of_pool (h : s'.pool = s.pool ∨ ∃ e q, s'.pool = (ccPostWorkQueue e q s).pool) :
    s'.threads.countP Thread.scanPending = s.threads.countP Thread.scanPending :=
  countP_scanPending_woken (h.elim (fun h => .inl (State.threads_eq_of_pool h))
    fun ⟨_, _, h⟩ => threads_of_pool_post h)

end Queues

section PostTick

variable {T : Tunables} {N : Nat} {s s' s1 : State} {inp : Input}

/-- A scan empties `CcPostTickWorkQueue` into its local queue at its top, and drains that. -/
lemma scanStep_postTick {sc sc' : Scan} (h : scanStep T inp s sc = some (s1, sc')) :
    (s1.postTick = s.postTick ∨ s1.postTick = []) ∧
      ∀ e ∈ sc'.postTickWorkQueue, e ∈ sc.postTickWorkQueue ∨ e ∈ s.postTick := by
  have keep : ∀ {s2 : State} {sc2 : Scan}, s2.postTick = s.postTick →
      sc2.postTickWorkQueue = sc.postTickWorkQueue → (s2.postTick = s.postTick ∨ s2.postTick = []) ∧
        ∀ e ∈ sc2.postTickWorkQueue, e ∈ sc.postTickWorkQueue ∨ e ∈ s.postTick :=
    fun h1 h2 => ⟨.inl h1, fun e he => .inl (h2 ▸ he)⟩
  rcases scanStep_cases h with ⟨-, -, h⟩ | ⟨-, h⟩ | ⟨-, -, h⟩ | ⟨e, -, -, h⟩ | ⟨-, -, h⟩ |
    ⟨-, h⟩ | ⟨-, h⟩ <;> rw [show s1 = _ from congrArg Prod.fst h, show sc' = _ from congrArg Prod.snd h]
  · by_cases hq : s.totalDirtyPages = 0 ∧ s.otherWork = false
    · rw [Scan.start_quiescent T hq]; split_ifs <;> exact keep rfl rfl
    · obtain ⟨h1, h2, -⟩ := Scan.start_tick T sc hq
      have h3 : (Scan.start T s sc).2.postTickWorkQueue = s.postTick := congrArg (·.1) h2
      exact ⟨.inr (congrArg (·.1) h1), fun e he => .inr (h3 ▸ he)⟩
  · exact keep (congrArg (·.1) (Scan.walk_frame _).1) (congrArg (·.1) (Scan.walk_frame _).2)
  · exact keep (congrArg (·.1) (Scan.allocate_frame _).1) (congrArg (·.1) (Scan.allocate_frame _).2)
  · exact keep (congrArg (·.1) (Scan.post_frame e s sc).1) (congrArg (·.1) (Scan.post_frame e s sc).2)
  · exact keep (congrArg (·.1) Scan.courtesy_frame.1) (congrArg (·.1) Scan.courtesy_frame.2)
  · obtain ⟨h1, h2 | ⟨e, rest, hq, h2⟩⟩ := Scan.drain_frame s sc
    · exact keep (congrArg (·.1) h1) (congrArg (·.1) h2)
    · have h3 : (Scan.drain s sc).2.postTickWorkQueue = rest := congrArg (·.1) h2
      exact ⟨.inl (congrArg (·.1) h1), fun x hx => .inl (hq ▸ List.mem_cons_of_mem _ (h3 ▸ hx))⟩
  · exact keep (congrArg (·.1) (ccScheduleLazyWriteScan_sched (s := s) false)) rfl

lemma threadStep_postTick {th th' : Thread} (h : threadStep T inp s th = some (s1, th')) :
    s1.postTick = s.postTick ∨ s1.postTick = [] := by
  rcases threadStep_cases h with ⟨item, w, -, h1⟩ | ⟨item, w, e, q, -, -, h1⟩ |
    ⟨_, _, _, _, _, -, -, rfl, -⟩ | ⟨_, _, _, _, _, _, -, h1, -⟩ | ⟨_, -, rfl, -⟩ | ⟨_, -, -, rfl, -⟩ |
    ⟨_, _, -, h1, -⟩
  · rw [show s1 = _ from congrArg Prod.fst h1]; exact .inl (congrArg (·.1) (workerTop_sched item w))
  · rw [show s1 = _ from congrArg Prod.fst h1]; exact .inl (congrArg (·.1) (workerDispatch_sched ..))
  · exact .inl rfl
  · exact (scanStep_postTick h1).1
  · exact .inl rfl
  · exact .inl rfl
  · exact (scanStep_postTick h1).1

/-- A step queues on `CcPostTickWorkQueue` only the `EventSet` of
`CcWaitForCurrentLazyWriterActivity`. -/
lemma Step.postTick (h : Step T s s') (hpw : PendingWork s) :
    ∀ e ∈ s'.postTick, e ∈ s.postTick ∨ e.work = .eventSet := by
  have same : s'.postTick = s.postTick → ∀ e ∈ s'.postTick, e ∈ s.postTick ∨ e.work = .eventSet :=
    fun h e he => .inl (h ▸ he)
  cases h with
  | run ℓ h =>
    cases ℓ with
    | schedule f =>
      obtain ⟨-, -, rfl⟩ := step_schedule h
      exact same (congrArg (·.1) (ccScheduleLazyWriteScan_sched f))
    | wait =>
      obtain ⟨-, rfl⟩ := step_wait h
      intro e he
      have h1 : (ccWaitForCurrentLazyWriterActivity s).postTick = _ :=
        congrArg (·.1) ccWaitForCurrentLazyWriterActivity_sched
      rw [h1] at he
      rcases List.mem_append.1 he with he | he
      · exact .inl he
      · exact .inr (by rw [List.mem_singleton.1 he])
    | waitAllocate => obtain rfl := step_waitAllocate h; exact same rfl
    | waitInsert i =>
      -- the caller's entry is an `EventSet`
      obtain ⟨-, e, he, rfl⟩ := step_waitInsert h
      intro x hx
      rw [show (waitInsert e _).postTick = _ from congrArg (·.1) (waitInsert_sched e)] at hx
      rcases List.mem_append.1 hx with hx | hx
      · exact .inl hx
      · exact .inr (by rw [List.mem_singleton.1 hx]; exact hpw.callers e (List.getElem?_mem he))
    | scanDpcAllocate => obtain ⟨-, rfl⟩ := step_scanDpcAllocate h; exact same rfl
    | scanDpcPost i =>
      obtain ⟨e, -, rfl⟩ := step_scanDpcPost h
      exact same (congrArg (·.1) (ccPostWorkQueue_sched _ _))
    | scanDpc ok =>
      obtain ⟨-, rfl⟩ := step_scanDpc h
      exact same (congrArg (·.1) (ccScanDpc_sched ok))
    | env a =>
      rcases envStep_sched h with h1 | ⟨-, h1⟩ <;> exact same (congrArg (·.1) h1)
    | thread t inp =>
      obtain ⟨th, s1, th', -, h1, rfl⟩ := step_thread h
      rcases threadStep_postTick h1 with h2 | h2
      · exact same h2
      · intro e he; rw [show s1.postTick = [] from h2] at he; cases he
  | insertStream => exact same rfl
  | removeStream => exact same rfl

lemma Reachable.postTickEvents (h : Reachable T N s) : PostTickEvents s := by
  induction h with
  | init => exact ⟨fun _ h => (List.not_mem_nil _ h).elim, fun _ h => (List.not_mem_nil _ h).elim⟩
  | step hr hs ih =>
    refine ⟨fun e he => (hs.postTick hr.pendingWork e he).elim (ih.postTick e) id,
      fun th' hm sc' hsc e he => ?_⟩
    rcases hs.threads_mem hm with hm | ⟨i, rfl⟩ | ⟨inp, th, s1, hm, h1⟩
    · exact ih.scans th' hm sc' hsc e he
    · cases hsc
    · rcases threadStep_scan? h1 hsc with rfl | ⟨sc, hsc, h2⟩
      · cases he
      · exact ((scanStep_postTick h2).2 e he).elim (ih.scans th hm sc hsc e) (ih.postTick e)

end PostTick

section Steps

variable {T : Tunables} {N : Nat} {s s' s1 : State} {inp : Input}

/-- What a step of a scan does to the timer, the flag and the queued `LazyWriteScan` entries: it
posts none; it keeps the timer and the flag and does not return, goes idle clearing the flag
(line 170), or returns after setting the timer (lines 177 and 380). -/
lemma scanStep_sched {sc sc' : Scan} (h : scanStep T inp s sc = some (s1, sc')) (hpo : sc.Posting)
    (hpt : ∀ e ∈ sc.postTickWorkQueue, e.work = .eventSet) :
    s1.workQueueScans = s.workQueueScans ∧
      ((s1.timer = s.timer ∧ s1.scanActive = s.scanActive ∧ sc'.pc ≠ .done) ∨
        (s1.timer = s.timer ∧ s1.scanActive = false ∧ sc'.pc = .done) ∨
        (s1.timer.isSome = true ∧ s1.scanActive = true ∧ sc'.pc = .done)) := by
  have keep : ∀ {s2 : State} {sc2 : Scan}, s2.sched = s.sched → s2.workQueueScans = s.workQueueScans →
      sc2.pc ≠ .done → s2.workQueueScans = s.workQueueScans ∧
        ((s2.timer = s.timer ∧ s2.scanActive = s.scanActive ∧ sc2.pc ≠ .done) ∨
          (s2.timer = s.timer ∧ s2.scanActive = false ∧ sc2.pc = .done) ∨
          (s2.timer.isSome = true ∧ s2.scanActive = true ∧ sc2.pc = .done)) :=
    fun h1 h2 h3 => ⟨h2, .inl ⟨congrArg (·.2.2.1) h1, congrArg (·.2.2.2) h1, h3⟩⟩
  rcases scanStep_cases h with ⟨-, -, h⟩ | ⟨-, h⟩ | ⟨-, -, h⟩ | ⟨e, he, -, h⟩ | ⟨-, -, h⟩ |
    ⟨hpc, h⟩ | ⟨-, h⟩ <;> rw [show s1 = _ from congrArg Prod.fst h, show sc' = _ from congrArg Prod.snd h]
  · by_cases hq : s.totalDirtyPages = 0 ∧ s.otherWork = false
    · rw [Scan.start_quiescent T hq]
      split_ifs
      · exact ⟨rfl, .inl ⟨rfl, rfl, by simp⟩⟩
      · exact ⟨rfl, .inr (.inl ⟨rfl, rfl, rfl⟩)⟩
    · obtain ⟨h1, -, h3⟩ := Scan.start_tick T sc hq
      exact ⟨workQueueScans_of_pool Scan.start_pool,
        .inl ⟨congrArg (·.2.2.1) h1, congrArg (·.2.2.2) h1, by rw [h3]; simp⟩⟩
  · rcases Scan.walk_pc T inp.canIWrite s sc with h3 | h3 | h3 | h3 <;>
      exact keep (Scan.walk_frame _).1 (workQueueScans_of_pool (Scan.walk_pool _)) (by rw [h3]; simp)
  · refine keep (Scan.allocate_frame _).1 (workQueueScans_of_pool (Scan.allocate_pool _)) ?_
    unfold Scan.allocate; split <;> simp
  · refine keep (Scan.post_frame e s sc).1 ?_ (by simp [Scan.post, Scan.advance_pc])
    rw [workQueueScans_of_pool_post (Scan.post_pool e)]
    simp [Entry.isLazyWriteScan, hpo e he]
  · exact keep Scan.courtesy_frame.1 (workQueueScans_of_pool Scan.advance_pool)
      (by simp [Scan.courtesy, Scan.advance_pc])
  · unfold Scan.drain
    split
    · next e rest hq =>
      refine keep (ccPostWorkQueue_sched _ _) ?_ (by simp [hpc])
      rw [workQueueScans_of_pool_post rfl]
      simp [Entry.isLazyWriteScan, hpt e (by rw [hq]; exact List.mem_cons_self _ _)]
    · refine keep rfl rfl ?_; simp
  · obtain ⟨-, -, h1, h2⟩ := State.sched_eq (ccScheduleLazyWriteScan_sched (s := s) false)
    exact ⟨workQueueScans_of_pool (ccScheduleLazyWriteScan_pool false), .inr (.inr ⟨by simp [Scan.poke, h1],
      h2, rfl⟩)⟩

/-- What the head of the worker loop does to the queued `LazyWriteScan` entries: the one it pops
is the one it then executes, and the entry it re-queues is a `WriteBehind`. -/
lemma workerTop_workQueueScans (item : Nat) (w : WorkerLocals)
    (hsl : ∀ p ∈ w.requeue, ∃ S, p.1.work = .writeBehind S) :
    (workerTop item w s).1.workQueueScans + (workerTop item w s).2.scanPending.toNat = s.workQueueScans := by
  have h1 : (workerRequeue w s).1.workQueueScans = s.workQueueScans := by
    simp only [State.workQueueScans, ← State.queue_express, ← State.queue_regular, workerRequeue_queue]
    rcases hw : w.requeue with _ | ⟨e, q⟩
    · rfl
    · obtain ⟨S, hS⟩ := hsl (e, q) hw
      have he : e.isLazyWriteScan = false := by simp [Entry.isLazyWriteScan, show e.work = _ from hS]
      cases q <;> simp [List.countP_append, he]
  dsimp only [workerTop]
  rw [← h1]
  unfold workerTake
  rcases hp : workerPick (workerRequeue w s).1 with _ | ⟨q, e, rest⟩
  · simp [idleWorker, Thread.scanPending, State.workQueueScans]
  · obtain ⟨hq, -⟩ := workerPick_eq_some hp
    dsimp only
    split_ifs
    · simp [idleWorker, Thread.scanPending, State.workQueueScans]
    · have := workQueueScans_setQueue (s := (workerRequeue w s).1) q rest
      rw [hq, List.countP_cons] at this
      cases he : e.isLazyWriteScan <;> simp [he, Thread.scanPending] at this ⊢ <;> omega

/-- What a step of a thread that runs no rescan does to the timer, the flag, the queued
`LazyWriteScan` entries and its own pending scan: the count of the entries it holds and the ones
queued stays, with the timer and the flag; or its scan goes idle clearing the flag; or its scan
returns after setting the timer. -/
lemma threadStep_sched {th th' : Thread} (h : threadStep T inp s th = some (s1, th'))
    (hr : th.rescanning = false) (hsl : ∀ p ∈ th.slot, ∃ S, p.1.work = .writeBehind S)
    (hpo : ∀ sc, th.scan? = some sc → sc.Posting)
    (hpt : ∀ sc, th.scan? = some sc → ∀ e ∈ sc.postTickWorkQueue, e.work = .eventSet) :
    (s1.timer = s.timer ∧ s1.scanActive = s.scanActive ∧
      s1.workQueueScans + th'.scanPending.toNat = s.workQueueScans + th.scanPending.toNat) ∨
    (s1.timer = s.timer ∧ s1.scanActive = false ∧ s1.workQueueScans = s.workQueueScans ∧
      th.scanPending = true ∧ th'.scanPending = false) ∨
    (s1.timer.isSome = true ∧ s1.scanActive = true ∧ s1.workQueueScans = s.workQueueScans ∧
      th.scanPending = true ∧ th'.scanPending = false) := by
  rcases threadStep_cases h with ⟨item, w, rfl, h1⟩ | ⟨item, w, e, q, rfl, -, h1⟩ |
    ⟨item, w, e, q, sc, rfl, hpc, rfl, rfl⟩ | ⟨item, w, e, q, sc, sc', rfl, h1, rfl⟩ |
    ⟨ok, rfl, rfl, rfl⟩ | ⟨sc, rfl, -, -, -⟩ | ⟨sc, sc', rfl, -, -⟩
  · -- the head of the loop pops what it executes
    rw [show s1 = _ from congrArg Prod.fst h1, show th' = _ from congrArg Prod.snd h1]
    have h2 := workerTop_sched (s := s) item w
    refine .inl ⟨congrArg (·.2.2.1) h2, congrArg (·.2.2.2) h2, ?_⟩
    simpa [Thread.scanPending] using workerTop_workQueueScans item w hsl
  · -- the dispatch keeps the entry's scan, started on a `LazyWriteScan` (line 533)
    rw [show s1 = _ from congrArg Prod.fst h1, show th' = _ from congrArg Prod.snd h1]
    have h2 := workerDispatch_sched (s := s) item w e q inp.io
    refine .inl ⟨congrArg (·.2.2.1) h2, congrArg (·.2.2.2) h2, ?_⟩
    rw [workQueueScans_of_pool (workerDispatch_pool ..)]
    unfold workerDispatch
    split <;> rename_i hw <;> (try split_ifs) <;> simp [Thread.scanPending, Entry.isLazyWriteScan, hw, Scan.init]
  · exact .inl ⟨rfl, rfl, by simp [ccFreeWorkQueueEntry, State.workQueueScans, Thread.scanPending, hpc]⟩
  · have hd : sc.pc ≠ .done := fun hd => by simp [scanStep, hd] at h1
    obtain ⟨hq, h2 | h2 | h2⟩ := scanStep_sched h1 (hpo sc rfl) (hpt sc rfl)
    · exact .inl ⟨h2.1, h2.2.1, by simp [Thread.scanPending, hq, bne_iff_ne.2 hd, bne_iff_ne.2 h2.2.2]⟩
    · exact .inr (.inl ⟨h2.1, h2.2.1, hq, by simp [Thread.scanPending, hd], by simp [Thread.scanPending, h2.2.2]⟩)
    · exact .inr (.inr ⟨h2.1, h2.2.1, hq, by simp [Thread.scanPending, hd], by simp [Thread.scanPending, h2.2.2]⟩)
  · refine .inl ⟨rfl, rfl, ?_⟩
    unfold workerExit; split_ifs <;> rfl
  · cases hr
  · cases hr

end Steps

section System

variable {T : Tunables} {N : Nat} {s s' : State}

/-- A pending scan in a thread is the only one, and `ScanActive` is set. -/
lemma TimerInv.of_pending (hi : TimerInv s) {th : Thread} (ht : th ∈ s.threads)
    (hp : th.scanPending = true) :
    s.timer = none ∧ s.scanActive = true ∧ s.queuedScans = 0 ∧ s.threads.countP Thread.scanPending = 1 := by
  have h1 : 0 < s.threads.countP Thread.scanPending := List.countP_pos_iff.2 ⟨th, ht, hp⟩
  have h2 := Bool.toNat_le s.scanActive
  unfold TimerInv State.scansPending at hi
  have h3 : s.timer.isSome.toNat = 0 ∧ s.scanActive.toNat = 1 := by omega
  rw [Bool.toNat_eq_zero, Bool.toNat_eq_one] at h3
  exact ⟨Option.not_isSome_iff_eq_none.1 (by simp [h3.1]), h3.2, by omega, by omega⟩

/-- Every step from a state with no rescan keeps `TimerInv`. -/
lemma TimerInv.step (hr : Reachable T N s) (hn : s.NoRescan) (hi : TimerInv s) (h : Step T s s') :
    TimerInv s' := by
  unfold TimerInv State.scansPending State.queuedScans at hi ⊢
  cases h with
  | run ℓ h =>
    cases ℓ with
    | schedule f =>
      obtain ⟨-, ha, rfl⟩ := step_schedule h
      obtain ⟨-, -, h1, h2⟩ := State.sched_eq (ccScheduleLazyWriteScan_sched (s := s) f)
      rw [h1, h2, ccScheduleLazyWriteScan_dpcs, workQueueScans_of_pool (ccScheduleLazyWriteScan_pool f),
        countP_scanPending_of_pool (.inl (ccScheduleLazyWriteScan_pool f))]
      rw [ha] at hi
      simp only [Option.isSome_some, Bool.toNat_true, Bool.toNat_false] at hi ⊢
      omega
    | wait =>
      obtain ⟨-, rfl⟩ := step_wait h
      obtain ⟨-, -, h1, h2⟩ := State.sched_eq (ccWaitForCurrentLazyWriterActivity_sched (s := s))
      rw [h1, h2, ccWaitForCurrentLazyWriterActivity_dpcs,
        workQueueScans_of_pool ccWaitForCurrentLazyWriterActivity_pool,
        countP_scanPending_of_pool (.inl ccWaitForCurrentLazyWriterActivity_pool)]
      cases ha : s.scanActive <;> simp only [ha, Bool.toNat_false, Bool.toNat_true, if_true,
        Bool.false_eq_true, if_false, Option.isSome_some] at hi ⊢ <;> omega
    | waitAllocate => obtain rfl := step_waitAllocate h; exact hi
    | waitInsert i =>
      -- as `wait`, for the entry the caller holds
      obtain ⟨-, e, -, rfl⟩ := step_waitInsert h
      obtain ⟨-, -, h1, h2⟩ := State.sched_eq (waitInsert_sched (s := { s with callers := s.callers.eraseIdx i }) e)
      rw [h1, h2, waitInsert_dpcs, workQueueScans_of_pool (waitInsert_pool e),
        countP_scanPending_of_pool (.inl (waitInsert_pool e))]
      show (if s.scanActive then s.timer else some .noDelay).isSome.toNat +
        (s.dpcs.countP _ + s.workQueueScans) + s.threads.countP _ = true.toNat
      cases ha : s.scanActive <;> simp only [ha, Bool.toNat_false, Bool.toNat_true, if_true,
        Bool.false_eq_true, if_false, Option.isSome_some] at hi ⊢ <;> omega
    | scanDpc ok =>
      obtain ⟨ht, rfl⟩ := step_scanDpc h
      obtain ⟨-, -, h1, h2⟩ := State.sched_eq (ccScanDpc_sched (s := s) ok)
      rw [h1, h2, ccScanDpc_dpcs, countP_scanPending_of_pool ((ccScanDpc_pool ok).imp_right fun h => ⟨_, _, h⟩)]
      rw [ht] at hi
      cases ok
      · have hq : (ccScanDpc false s).workQueueScans = s.workQueueScans := workQueueScans_of_pool rfl
        rw [hq]
        cases ha : s.scanActive <;> simp only [ha, Bool.toNat_false, Bool.toNat_true, Option.isSome_none,
          Bool.false_eq_true, ite_false] at hi ⊢ <;> omega
      · have hq : (ccScanDpc true s).workQueueScans = s.workQueueScans + 1 :=
          workQueueScans_of_pool_post (e := ⟨s.nextEntry, .lazyWriteScan⟩) (q := .regular)
            (ccPostWorkQueue_pool_congr _ _ rfl)
        rw [hq]
        cases ha : s.scanActive <;> simp only [ha, Bool.toNat_false, Bool.toNat_true, Option.isSome_none,
          eq_self_iff_true, ite_true] at hi ⊢ <;> omega
    | scanDpcAllocate =>
      -- the expired timer becomes the entry the DPC holds
      obtain ⟨ht, rfl⟩ := step_scanDpcAllocate h
      have hd : (scanDpcAllocate s).dpcs.countP Entry.isLazyWriteScan = s.dpcs.countP Entry.isLazyWriteScan + 1 := by
        simp [scanDpcAllocate, ccAllocateWorkQueueEntry, Entry.isLazyWriteScan]
      show (none : Option Delay).isSome.toNat + (_ + s.workQueueScans) + s.threads.countP _ = s.scanActive.toNat
      rw [hd]
      rw [ht, Bool.toNat_true] at hi
      simp only [Option.isSome_none, Bool.toNat_false]
      omega
    | scanDpcPost i =>
      -- the entry the DPC holds goes to the regular queue
      obtain ⟨e, he, rfl⟩ := step_scanDpcPost h
      obtain ⟨-, -, h1, h2⟩ := State.sched_eq (ccPostWorkQueue_sched (s := { s with dpcs := s.dpcs.eraseIdx i }) e .regular)
      have hq : (ccPostWorkQueue e .regular { s with dpcs := s.dpcs.eraseIdx i }).workQueueScans =
          s.workQueueScans + e.isLazyWriteScan.toNat := workQueueScans_of_pool_post (scanDpcPost_pool e i)
      have hc := (perm_cons_eraseIdx he).countP_eq Entry.isLazyWriteScan
      rw [List.countP_cons] at hc
      rw [h1, h2, ccPostWorkQueue_dpcs, hq, countP_scanPending_of_pool (.inr ⟨_, _, scanDpcPost_pool e i⟩)]
      show s.timer.isSome.toNat + ((s.dpcs.eraseIdx i).countP _ + (s.workQueueScans + _)) +
        s.threads.countP _ = s.scanActive.toNat
      cases he' : e.isLazyWriteScan <;> simp only [he', Bool.toNat_true, Bool.toNat_false, if_true, if_false,
        Bool.false_eq_true] at hc ⊢ <;> omega
    | env a =>
      obtain ⟨h1, h2⟩ : s'.timer = s.timer ∧ s'.scanActive = s.scanActive := by
        rcases envStep_sched h with h1 | ⟨-, h1⟩ <;> exact ⟨congrArg (·.2.2.1) h1, congrArg (·.2.2.2) h1⟩
      have hq : s'.workQueueScans = s.workQueueScans := by
        rcases envStep_pool h with hp | ⟨q, hp⟩
        · exact workQueueScans_of_pool hp
        · rw [workQueueScans_of_pool_post hp]; simp [Entry.isLazyWriteScan]
      rw [h1, h2, hq, (envStep_pending h).2,
        countP_scanPending_of_pool ((envStep_pool h).imp_right fun ⟨q, h⟩ => ⟨_, q, h⟩)]
      exact hi
    | thread t inp =>
      obtain ⟨th, s1, th', ht, h1, rfl⟩ := step_thread h
      have hm := List.getElem?_mem ht
      have hset : (s1.threads.set t th').countP Thread.scanPending + th.scanPending.toNat =
          s.threads.countP Thread.scanPending + th'.scanPending.toNat := by
        rw [countP_scanPending_woken (threadStep_set h1 ht)]
        have := countP_set (p := Thread.scanPending) (b := th') ht
        cases hp : th.scanPending <;> cases hp' : th'.scanPending <;>
          simp only [hp, hp', Bool.toNat_true, Bool.toNat_false, ite_true, ite_false, Bool.false_eq_true,
            eq_self_iff_true] at this ⊢ <;> omega
      show s1.timer.isSome.toNat + (s1.dpcs.countP _ + s1.workQueueScans) +
        (s1.threads.set t th').countP Thread.scanPending = s1.scanActive.toNat
      rw [(threadStep_pending h1).2]
      rcases threadStep_sched h1 (hn th hm) (hr.slots th hm) (hr.posting th hm)
        (hr.postTickEvents.scans th hm) with ⟨h2, h3, h4⟩ | ⟨h2, h3, h4, h5, h6⟩ | ⟨h2, h3, h4, h5, h6⟩
      · rw [h2, h3]; omega
      · obtain ⟨h7, -, h8, h9⟩ := TimerInv.of_pending hi hm h5
        unfold State.queuedScans at h8
        rw [h2, h3, h4, h7]; rw [h5, h6] at hset; simp only [Bool.toNat_true, Bool.toNat_false] at hset
        simp only [Option.isSome_none, Bool.toNat_false]; omega
      · obtain ⟨h7, -, h8, h9⟩ := TimerInv.of_pending hi hm h5
        unfold State.queuedScans at h8
        rw [h2, h3, h4]; rw [h5, h6] at hset; simp only [Bool.toNat_true, Bool.toNat_false] at hset
        simp only [Bool.toNat_true]; omega
  | insertStream => exact hi
  | removeStream => exact hi

lemma SerialReachable.reachable (h : SerialReachable T N s) : Reachable T N s := by
  induction h with
  | init => exact .init
  | step _ hs _ ih => exact .step ih hs

lemma SerialReachable.noRescan (h : SerialReachable T N s) : s.NoRescan := by
  cases h with
  | init => intro th h; cases h
  | step _ _ hn => exact hn

lemma SerialReachable.timerInv (h : SerialReachable T N s) : TimerInv s := by
  induction h with
  | init => rfl
  | step h0 hs _ ih => exact ih.step h0.reachable h0.noRescan hs

end System

/-- `ScanActive` is set exactly when one scan is pending, on the scan timer, as a `LazyWriteScan`
entry on a work queue, or in a worker that has popped one and whose `CcLazyWriteScan` has not
returned, over every run in which no worker starts the rescan of line 557. -/
theorem scan_active_iff_one_scan_pending {T : Tunables} {N : Nat} {s : State}
    (hs : SerialReachable T N s) :
    s.timer.isSome.toNat + s.queuedScans + s.threads.countP Thread.scanPending =
      if s.scanActive then 1 else 0 := by
  have := hs.timerInv
  unfold TimerInv State.scansPending at this
  rw [this]; cases s.scanActive <;> rfl

/-- A timer scan on thread 0 at its top: the schedule, the expiry of the timer, the pop of the
`LazyWriteScan` entry and its dispatch. -/
theorem scan_active_iff_one_scan_pending_run :
    ∃ s, SerialReachable ⟨1000, false, 16⟩ 1 s ∧ s.threads.countP Thread.scanPending = 1 ∧
      s.timer.isSome.toNat + s.queuedScans + s.threads.countP Thread.scanPending =
        if s.scanActive then 1 else 0 := by
  have h : SerialReachable ⟨1000, false, 16⟩ 1 _ :=
    .step (.step (.step (.step .init (.run (.schedule false) rfl) (by decide)) (.run (.scanDpc true) rfl)
      (by decide)) (.run (.thread 0 ⟨true, true, ⟨true, false, false⟩⟩) rfl) (by decide))
      (.run (.thread 0 ⟨true, true, ⟨true, false, false⟩⟩) rfl) (by decide)
  exact ⟨_, h, by decide, scan_active_iff_one_scan_pending h⟩

end LazyWriter
