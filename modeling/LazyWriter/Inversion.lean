import LazyWriter.System

/-!
# Step inversion

What one step of the system can be, stated once so that the invariant modules never unfold `step`.
A thread's step runs `threadStep` on the thread's state and puts the result back at the thread's
index (`step_thread`); the threads a step starts are appended, so indices of existing threads never
move. `Thread.scan?` reads the scan a thread runs, whether as a `LazyWriteScan` entry or as the
rescan after the loop, and `Thread.withScan` puts a new scan state back.
-/

namespace LazyWriter

/-- The scan a thread is running, if any. -/
def Thread.scan? : Thread → Option Scan
  | .scan _ _ _ _ sc => some sc
  | .rescan sc => some sc
  | _ => none

/-- The requeue slot of a thread in the loop of `CcWorkerThread`. -/
def Thread.slot : Thread → Option (Entry × Queue)
  | .loop _ w | .exec _ w _ _ | .scan _ w _ _ _ => w.requeue
  | _ => none

/-- A thread's step as a system step: the thread's new state replaces the old one. -/
lemma step_thread {T : Tunables} {t : Nat} {inp : Input} {s s' : State}
    (h : step T (.thread t inp) s = some s') :
    ∃ th s1 th', s.threads[t]? = some th ∧ threadStep T inp s th = some (s1, th') ∧
      s' = { s1 with threads := s1.threads.set t th' } := by
  simp only [step] at h
  split at h
  · next th hth =>
    obtain ⟨⟨s1, th'⟩, h1, rfl⟩ := Option.map_eq_some'.1 h
    exact ⟨th, s1, th', hth, h1, rfl⟩
  · cases h

/-- What a step of a thread can be: an iteration of the loop of `CcWorkerThread`, the dispatch of
the entry it popped, a step of the scan it runs, or the end of the worker (lines 472-558). -/
lemma threadStep_cases {T : Tunables} {inp : Input} {s s1 : State} {th th' : Thread}
    (h : threadStep T inp s th = some (s1, th')) :
    (∃ item w, th = .loop item w ∧ (s1, th') = workerTop item w s) ∨
    (∃ item w e q, th = .exec item w e q ∧
      (s.masterLock && (e.work matches .writeBehind _) && !inp.io.requeue) = false ∧
      (s1, th') = workerDispatch item w e q inp.io s) ∨
    (∃ item w e q sc, th = .scan item w e q sc ∧ sc.pc = .done ∧
      s1 = ccFreeWorkQueueEntry e s ∧ th' = .loop item w) ∨
    (∃ item w e q sc sc', th = .scan item w e q sc ∧ scanStep T inp s sc = some (s1, sc') ∧
      th' = .scan item w e q sc') ∨
    (∃ ok, th = .exited ok ∧ s1 = s ∧ th' = workerExit ok s) ∨
    (∃ sc, th = .rescan sc ∧ sc.pc = .done ∧ s1 = s ∧ th' = .done) ∨
    (∃ sc sc', th = .rescan sc ∧ scanStep T inp s sc = some (s1, sc') ∧ th' = .rescan sc') := by
  cases th with
  | loop item w => exact .inl ⟨item, w, rfl, (Option.some.inj h).symm⟩
  | exec item w e q =>
    simp only [threadStep] at h
    split at h
    · cases h
    · next hg => exact .inr <| .inl ⟨item, w, e, q, rfl, by simpa using hg, (Option.some.inj h).symm⟩
  | scan item w e q sc =>
    simp only [threadStep] at h
    split at h
    · next hd => cases h; exact .inr <| .inr <| .inl ⟨item, w, e, q, sc, rfl, hd, rfl, rfl⟩
    · obtain ⟨⟨s2, sc'⟩, h1, h2⟩ := Option.map_eq_some'.1 h
      cases h2
      exact .inr <| .inr <| .inr <| .inl ⟨item, w, e, q, sc, sc', rfl, h1, rfl⟩
  | exited ok => cases h; exact .inr <| .inr <| .inr <| .inr <| .inl ⟨ok, rfl, rfl, rfl⟩
  | rescan sc =>
    simp only [threadStep] at h
    split at h
    · next hd => cases h; exact .inr <| .inr <| .inr <| .inr <| .inr <| .inl ⟨sc, rfl, hd, rfl, rfl⟩
    · obtain ⟨⟨s2, sc'⟩, h1, h2⟩ := Option.map_eq_some'.1 h
      cases h2
      exact .inr <| .inr <| .inr <| .inr <| .inr <| .inr ⟨sc, sc', rfl, h1, rfl⟩
  | done => cases h

/-- What a step of a scan can be: the routine its program counter names, run when the master lock
is free if the routine takes it. -/
lemma scanStep_cases {T : Tunables} {inp : Input} {s s1 : State} {sc sc' : Scan}
    (h : scanStep T inp s sc = some (s1, sc')) :
    (sc.pc = .top ∧ s.masterLock = false ∧ (s1, sc') = Scan.start T s sc) ∨
    (sc.pc = .loop ∧ (s1, sc') = Scan.walk T inp.canIWrite s sc) ∨
    (sc.pc = .alloc ∧ (inp.allocOk = true ∨ s.masterLock = false) ∧
      (s1, sc') = Scan.allocate inp.allocOk s sc) ∨
    (∃ e, sc.pc = .posting e ∧ s.masterLock = false ∧ (s1, sc') = Scan.post e s sc) ∨
    (sc.pc = .courtesy ∧ s.masterLock = false ∧ (s1, sc') = Scan.courtesy s sc) ∨
    (sc.pc = .drain ∧ (s1, sc') = Scan.drain s sc) ∨
    (sc.pc = .poke ∧ (s1, sc') = Scan.poke s sc) := by
  unfold scanStep at h
  split at h <;> rename_i hpc
  · split at h
    · cases h
    · next hl => exact .inl ⟨hpc, by simpa using hl, (Option.some.inj h).symm⟩
  · exact .inr <| .inl ⟨hpc, (Option.some.inj h).symm⟩
  · split at h
    · next hl => exact .inr <| .inr <| .inl ⟨hpc, by simpa using hl, (Option.some.inj h).symm⟩
    · cases h
  · split at h
    · cases h
    · next e hl => exact .inr <| .inr <| .inr <| .inl ⟨_, hpc, by simpa using hl, (Option.some.inj h).symm⟩
  · split at h
    · cases h
    · next hl => exact .inr <| .inr <| .inr <| .inr <| .inl ⟨hpc, by simpa using hl, (Option.some.inj h).symm⟩
  · exact .inr <| .inr <| .inr <| .inr <| .inr <| .inl ⟨hpc, (Option.some.inj h).symm⟩
  · exact .inr <| .inr <| .inr <| .inr <| .inr <| .inr ⟨hpc, (Option.some.inj h).symm⟩
  · cases h

/-- The part of the state the work-queue lock protects (`CcIdleWorkerThreadList`,
`CcNumberActiveWorkerThreads`, the two work queues and `CcQueueThrottle`), with the running
threads. -/
def State.pool (s : State) : List Nat × Nat × List Thread × List Entry × List Entry × Bool :=
  (s.idle, s.active, s.threads, s.express, s.regular, s.throttle)

section Pool

variable {T : Tunables} {s s' : State} {sc : Scan}

lemma State.threads_eq_of_pool (h : s'.pool = s.pool) : s'.threads = s.threads :=
  congrArg (fun p => p.2.2.1) h

/-- `CcPostWorkQueue` reads only the state its lock protects. -/
lemma ccPostWorkQueue_pool_congr (e : Entry) (q : Queue) (h : s'.pool = s.pool) :
    (ccPostWorkQueue e q s').pool = (ccPostWorkQueue e q s).pool := by
  simp only [State.pool, Prod.mk.injEq] at h
  obtain ⟨h1, h2, h3, h4, h5, h6⟩ := h
  cases q <;>
  · simp only [ccPostWorkQueue, wakeWorker, State.setQueue, State.queue, h1, h2, h3, h4, h5, h6]
    split <;> rfl

lemma Scan.advance_pool : (Scan.advance s sc).1.pool = s.pool := by
  unfold Scan.advance; split <;> rfl

lemma Scan.moveCursor_pool (mwd : Bool) (fv : Nat) (pass amount : ULONG) :
    (Scan.moveCursor s sc mwd fv pass amount).1.pool = s.pool := by
  unfold Scan.moveCursor; split_ifs <;> rfl

lemma Scan.start_pool : (Scan.start T s sc).1.pool = s.pool := by
  unfold Scan.start; split_ifs <;> rfl

lemma Scan.walk_pool (c : Bool) : (Scan.walk T c s sc).1.pool = s.pool := by
  dsimp only [Scan.walk]
  split_ifs
  · rfl
  · exact Scan.moveCursor_pool ..
  · rfl
  · exact Scan.advance_pool

lemma Scan.allocate_pool (ok : Bool) : (Scan.allocate ok s sc).1.pool = s.pool := by
  unfold Scan.allocate; split <;> rfl

lemma ccScheduleLazyWriteScan_pool (fast : Bool) : (ccScheduleLazyWriteScan fast s).pool = s.pool := by
  unfold ccScheduleLazyWriteScan; split_ifs <;> rfl

lemma Scan.post_pool (e : Entry) :
    (Scan.post e s sc).1.pool = (ccPostWorkQueue e
      (if (s.maps sc.sharedCacheMap).flags.waitingForTeardown then .express else .regular) s).pool :=
  Scan.advance_pool.trans (ccPostWorkQueue_pool_congr _ _ rfl)

/-- A scan step changes the pool at most by one `CcPostWorkQueue`, of the entry it allocated or of
a post-tick entry to the regular queue. -/
lemma scanStep_pool {inp : Input} {s1 : State} {sc' : Scan}
    (h : scanStep T inp s sc = some (s1, sc')) :
    s1.pool = s.pool ∨ ∃ e q, s1.pool = (ccPostWorkQueue e q s).pool ∧
      (sc.pc = .posting e ∨ (q = .regular ∧ e ∈ sc.postTickWorkQueue)) := by
  rcases scanStep_cases h with ⟨-, -, h⟩ | ⟨-, h⟩ | ⟨-, -, h⟩ | ⟨e, he, -, h⟩ | ⟨-, -, h⟩ |
    ⟨-, h⟩ | ⟨-, h⟩ <;> rw [show s1 = _ from congrArg Prod.fst h]
  · exact .inl Scan.start_pool
  · exact .inl (Scan.walk_pool _)
  · exact .inl (Scan.allocate_pool _)
  · exact .inr ⟨e, _, Scan.post_pool e, .inl he⟩
  · exact .inl Scan.advance_pool
  · unfold Scan.drain
    split
    · next e rest hq => exact .inr ⟨e, .regular, rfl, .inr ⟨rfl, hq ▸ List.mem_cons_self _ _⟩⟩
    · exact .inl rfl
  · exact .inl (ccScheduleLazyWriteScan_pool false)

lemma workerDispatch_pool (item : Nat) (w : WorkerLocals) (e : Entry) (q : Queue) (io : IoStatus) :
    (workerDispatch item w e q io s).1.pool = s.pool := by
  unfold workerDispatch ccWriteBehind
  split <;> (try split_ifs) <;> rfl

lemma ccScanDpc_pool (ok : Bool) :
    (ccScanDpc ok s).pool = s.pool ∨
      (ccScanDpc ok s).pool = (ccPostWorkQueue ⟨s.nextEntry, .lazyWriteScan⟩ .regular s).pool := by
  unfold ccScanDpc
  split
  · exact .inr (ccPostWorkQueue_pool_congr _ _ rfl)
  · exact .inl rfl

lemma waitInsert_pool (e : Entry) : (waitInsert e s).pool = s.pool := by
  dsimp only [waitInsert]
  split_ifs
  · exact ccScheduleLazyWriteScan_pool true
  · rfl

lemma ccWaitForCurrentLazyWriterActivity_pool :
    (ccWaitForCurrentLazyWriterActivity s).pool = s.pool :=
  waitInsert_pool _

lemma scanDpcPost_pool (e : Entry) (i : Nat) :
    (ccPostWorkQueue e .regular { s with dpcs := s.dpcs.eraseIdx i }).pool =
      (ccPostWorkQueue e .regular s).pool :=
  ccPostWorkQueue_pool_congr _ _ rfl

lemma envStep_pool {a : EnvAction} (h : envStep a s = some s') :
    s'.pool = s.pool ∨ ∃ q, s'.pool = (ccPostWorkQueue ⟨s.nextEntry, .readAhead⟩ q s).pool := by
  cases a with
  | postReadAhead q => cases h; exact .inr ⟨q, ccPostWorkQueue_pool_congr _ _ rfl⟩
  | _ => simp only [envStep] at h; (try split_ifs at h); cases h; exact .inl rfl

lemma wakeWorker_threads :
    (wakeWorker s).threads = s.threads ∨ ∃ i, (wakeWorker s).threads = s.threads ++ [.loop i .init] := by
  rcases wakeWorker_cases s with ⟨h, -⟩ | ⟨i, rest, -, -, h⟩
  · exact .inl (by rw [h])
  · exact .inr ⟨i, by rw [h]⟩

lemma ccPostWorkQueue_threads (e : Entry) (q : Queue) :
    (ccPostWorkQueue e q s).threads = s.threads ∨
      ∃ i, (ccPostWorkQueue e q s).threads = s.threads ++ [.loop i .init] := by
  simpa only [ccPostWorkQueue, setQueue_threads] using
    wakeWorker_threads (s := s.setQueue q (s.queue q ++ [e]))

end Pool

section Threads

variable {T : Tunables} {s s' s1 : State} {inp : Input}

lemma step_schedule {f : Bool} (h : step T (.schedule f) s = some s') :
    s.masterLock = false ∧ s.scanActive = false ∧ s' = ccScheduleLazyWriteScan f s := by
  simp only [step] at h
  split_ifs at h with hl
  · cases h; simpa using hl

lemma step_wait (h : step T .wait s = some s') :
    s.masterLock = false ∧ s' = ccWaitForCurrentLazyWriterActivity s := by
  simp only [step] at h
  split_ifs at h with hl
  · cases h; simpa using hl

lemma step_scanDpc {ok : Bool} (h : step T (.scanDpc ok) s = some s') :
    s.timer.isSome = true ∧ s' = ccScanDpc ok s := by
  simp only [step] at h
  split_ifs at h with hl
  · cases h; exact ⟨hl, rfl⟩

lemma step_waitAllocate (h : step T .waitAllocate s = some s') : s' = waitAllocate s :=
  (Option.some.inj h).symm

lemma step_waitInsert {i : Nat} (h : step T (.waitInsert i) s = some s') :
    s.masterLock = false ∧
      ∃ e, s.callers[i]? = some e ∧ s' = waitInsert e { s with callers := s.callers.eraseIdx i } := by
  simp only [step] at h
  split_ifs at h with hl
  obtain ⟨e, he, rfl⟩ := Option.map_eq_some'.1 h
  exact ⟨by simpa using hl, e, he, rfl⟩

lemma step_scanDpcAllocate (h : step T .scanDpcAllocate s = some s') :
    s.timer.isSome = true ∧ s' = scanDpcAllocate s := by
  simp only [step] at h
  split_ifs at h with hl
  · cases h; exact ⟨hl, rfl⟩

lemma step_scanDpcPost {i : Nat} (h : step T (.scanDpcPost i) s = some s') :
    ∃ e, s.dpcs[i]? = some e ∧ s' = ccPostWorkQueue e .regular { s with dpcs := s.dpcs.eraseIdx i } := by
  simp only [step] at h
  obtain ⟨e, he, rfl⟩ := Option.map_eq_some'.1 h
  exact ⟨e, he, rfl⟩

lemma threads_of_pool_post {e : Entry} {q : Queue} (h : s'.pool = (ccPostWorkQueue e q s).pool) :
    s'.threads = s.threads ∨ ∃ i, s'.threads = s.threads ++ [.loop i .init] := by
  rw [State.threads_eq_of_pool h]; exact ccPostWorkQueue_threads e q

lemma workerTop_threads (item : Nat) (w : WorkerLocals) : (workerTop item w s).1.threads = s.threads := by
  simp [workerTop]

/-- A thread's step starts at most one thread, on an idle worker item. -/
lemma threadStep_threads {th th' : Thread} (h : threadStep T inp s th = some (s1, th')) :
    s1.threads = s.threads ∨ ∃ i, s1.threads = s.threads ++ [.loop i .init] := by
  have hs : ∀ {sc sc'}, scanStep T inp s sc = some (s1, sc') →
      s1.threads = s.threads ∨ ∃ i, s1.threads = s.threads ++ [.loop i .init] := fun h =>
    (scanStep_pool h).elim (fun h => .inl (State.threads_eq_of_pool h))
      fun ⟨_, _, h, _⟩ => threads_of_pool_post h
  rcases threadStep_cases h with ⟨item, w, -, h⟩ | ⟨item, w, e, q, -, -, h⟩ | ⟨_, _, _, _, _, -, -, rfl, -⟩ |
    ⟨_, _, _, _, _, _, -, h, -⟩ | ⟨_, -, rfl, -⟩ | ⟨_, -, -, rfl, -⟩ | ⟨_, _, -, h, -⟩
  · exact .inl ((congrArg (fun p => p.1.threads) h).trans (workerTop_threads item w))
  · have h3 : s1.pool = s.pool := (congrArg (fun p => p.1.pool) h).trans (workerDispatch_pool ..)
    exact .inl (State.threads_eq_of_pool h3)
  · exact .inl rfl
  · exact hs h
  · exact .inl rfl
  · exact .inl rfl
  · exact hs h

/-- The thread of a step, replaced in the list of threads, and perhaps a worker it woke. -/
lemma threadStep_set {th th' : Thread} {t : Nat} (h : threadStep T inp s th = some (s1, th'))
    (ht : s.threads[t]? = some th) :
    s1.threads.set t th' = s.threads.set t th' ∨
      ∃ i, s1.threads.set t th' = s.threads.set t th' ++ [.loop i .init] := by
  rcases threadStep_threads h with h2 | ⟨i, h2⟩ <;> rw [h2]
  · exact .inl rfl
  · exact .inr ⟨i, List.set_append_left _ _ (List.getElem?_eq_some_iff.1 ht).1⟩

/-- Where a thread of the next state comes from. -/
lemma Step.threads_mem {th' : Thread} (h : Step T s s') (hm : th' ∈ s'.threads) :
    th' ∈ s.threads ∨ (∃ i, th' = .loop i .init) ∨
      ∃ inp th s1, th ∈ s.threads ∧ threadStep T inp s th = some (s1, th') := by
  have post : ∀ {s2 : State}, (s2.threads = s.threads ∨ ∃ i, s2.threads = s.threads ++ [.loop i .init]) →
      th' ∈ s2.threads → th' ∈ s.threads ∨ ∃ i, th' = .loop i .init := by
    rintro s2 (h | ⟨i, h⟩) hm <;> rw [h] at hm
    · exact .inl hm
    · exact (List.mem_append.1 hm).imp id fun h => ⟨i, List.mem_singleton.1 h⟩
  have pool : ∀ {s2 : State}, (s2.pool = s.pool ∨ ∃ e q, s2.pool = (ccPostWorkQueue e q s).pool) →
      th' ∈ s2.threads → th' ∈ s.threads ∨ ∃ i, th' = .loop i .init := fun h =>
    post (h.elim (fun h => .inl (State.threads_eq_of_pool h)) fun ⟨_, _, h⟩ => threads_of_pool_post h)
  cases h with
  | run ℓ h =>
    cases ℓ with
    | schedule f =>
      obtain ⟨-, -, rfl⟩ := step_schedule h
      exact .inl (by rwa [State.threads_eq_of_pool (ccScheduleLazyWriteScan_pool f)] at hm)
    | wait =>
      obtain ⟨-, rfl⟩ := step_wait h
      exact .inl (by rwa [State.threads_eq_of_pool ccWaitForCurrentLazyWriterActivity_pool] at hm)
    | waitAllocate => obtain rfl := step_waitAllocate h; exact .inl hm
    | waitInsert i =>
      obtain ⟨-, e, -, rfl⟩ := step_waitInsert h
      exact .inl (by rwa [State.threads_eq_of_pool (waitInsert_pool e)] at hm)
    | scanDpc ok =>
      obtain ⟨-, rfl⟩ := step_scanDpc h
      exact (pool ((ccScanDpc_pool ok).imp_right fun h => ⟨_, _, h⟩) hm).imp_right .inl
    | scanDpcAllocate => obtain ⟨-, rfl⟩ := step_scanDpcAllocate h; exact .inl hm
    | scanDpcPost i =>
      obtain ⟨e, -, rfl⟩ := step_scanDpcPost h
      exact (pool (.inr ⟨_, _, scanDpcPost_pool e i⟩) hm).imp_right .inl
    | env a => exact (pool ((envStep_pool h).imp_right fun ⟨q, h⟩ => ⟨_, q, h⟩) hm).imp_right .inl
    | thread t inp =>
      obtain ⟨th, s1, th'', ht, h1, rfl⟩ := step_thread h
      rcases List.mem_or_eq_of_mem_set hm with hm | rfl
      · exact (post (threadStep_threads h1) hm).imp_right .inl
      · exact .inr (.inr ⟨inp, th, s1, List.getElem?_mem ht, h1⟩)
  | insertStream => exact .inl hm
  | removeStream => exact .inl hm

lemma Scan.advance_pc (sc : Scan) : (Scan.advance s sc).2.pc = .loop := by
  unfold Scan.advance; split <;> rfl

/-- The scan a thread runs after its step: the next state of the scan it ran, or a new one. -/
lemma threadStep_scan? {th th' : Thread} {sc' : Scan} (h : threadStep T inp s th = some (s1, th'))
    (hs : th'.scan? = some sc') :
    sc' = Scan.init ∨ ∃ sc, th.scan? = some sc ∧ scanStep T inp s sc = some (s1, sc') := by
  rcases threadStep_cases h with ⟨item, w, -, h⟩ | ⟨item, w, e, q, -, -, h⟩ | ⟨_, _, _, _, _, -, -, -, rfl⟩ |
    ⟨_, _, _, _, sc, _, rfl, h2, rfl⟩ | ⟨ok, -, -, rfl⟩ | ⟨_, -, -, -, rfl⟩ | ⟨sc, _, rfl, h2, rfl⟩
  · rw [show th' = _ from congrArg Prod.snd h] at hs
    dsimp only [workerTop] at hs
    rcases workerTake_snd item (workerRequeue w s).2 (workerRequeue w s).1 with h3 | ⟨e, q, h3⟩ <;>
      · rw [h3] at hs; cases hs
  · rw [show th' = _ from congrArg Prod.snd h] at hs
    unfold workerDispatch at hs
    split at hs <;> (try split_ifs at hs) <;> cases hs
    exact .inl rfl
  · cases hs
  · cases hs; exact .inr ⟨sc, rfl, h2⟩
  · unfold workerExit at hs; split_ifs at hs <;> cases hs; exact .inl rfl
  · cases hs
  · cases hs; exact .inr ⟨sc, rfl, h2⟩

/-- A property of threads that a new thread has and that every step of a thread keeps holds of
every thread of every reachable state. -/
lemma Reachable.threads_all {N : Nat} {P : Thread → Prop} (h0 : ∀ i, P (.loop i .init))
    (hstep : ∀ {inp s th s1 th'}, threadStep T inp s th = some (s1, th') → P th → P th')
    (h : Reachable T N s) : ∀ th ∈ s.threads, P th := by
  induction h with
  | init => simp [State.init]
  | step _ hs ih =>
    intro th' hm
    rcases hs.threads_mem hm with hm | ⟨i, rfl⟩ | ⟨inp, th, s1, hm, h1⟩
    · exact ih th' hm
    · exact h0 i
    · exact hstep h1 (ih th hm)

/-- A property of scans that a new scan has and that every step of a scan keeps holds of the scan
of every thread of every reachable state. -/
lemma Reachable.scans {N : Nat} {P : Scan → Prop} (h0 : P Scan.init)
    (hstep : ∀ {inp s s1 sc sc'}, scanStep T inp s sc = some (s1, sc') → P sc → P sc')
    (h : Reachable T N s) : ∀ th ∈ s.threads, ∀ sc, th.scan? = some sc → P sc :=
  h.threads_all (P := fun th => ∀ sc, th.scan? = some sc → P sc) (fun _ _ h => by cases h)
    fun h1 ih sc' hsc => by
      rcases threadStep_scan? h1 hsc with rfl | ⟨sc, hsc, h2⟩
      · exact h0
      · exact hstep h2 (ih sc hsc)

/-- A step of a scan leaves the entries that callers of `CcWaitForCurrentLazyWriterActivity` and
activations of `CcScanDpc` hold between allocation and queueing. -/
lemma scanStep_pending {sc sc' : Scan} (h : scanStep T inp s sc = some (s1, sc')) :
    s1.callers = s.callers ∧ s1.dpcs = s.dpcs := by
  have adv : ∀ (s2 : State) (sc2 : Scan), (Scan.advance s2 sc2).1.callers = s2.callers ∧
      (Scan.advance s2 sc2).1.dpcs = s2.dpcs := fun s2 sc2 => by
    unfold Scan.advance; split <;> exact ⟨rfl, rfl⟩
  rcases scanStep_cases h with ⟨-, -, h⟩ | ⟨-, h⟩ | ⟨-, -, h⟩ | ⟨e, -, -, h⟩ | ⟨-, -, h⟩ |
    ⟨-, h⟩ | ⟨-, h⟩ <;> rw [show s1 = _ from congrArg Prod.fst h]
  · unfold Scan.start; split_ifs <;> exact ⟨rfl, rfl⟩
  · dsimp only [Scan.walk]
    split_ifs
    · exact ⟨rfl, rfl⟩
    · unfold Scan.moveCursor; split_ifs <;> exact ⟨rfl, rfl⟩
    · exact ⟨rfl, rfl⟩
    · exact adv _ _
  · unfold Scan.allocate; split <;> exact ⟨rfl, rfl⟩
  · exact (adv _ _).imp (·.trans (by simp [State.updateMap])) (·.trans (by simp [State.updateMap]))
  · exact adv _ _
  · unfold Scan.drain; split
    · simp
    · exact ⟨rfl, rfl⟩
  · simp [Scan.poke]

/-- A step of a thread leaves the entries that callers of `CcWaitForCurrentLazyWriterActivity` and
activations of `CcScanDpc` hold between allocation and queueing. -/
lemma threadStep_pending {th th' : Thread} (h : threadStep T inp s th = some (s1, th')) :
    s1.callers = s.callers ∧ s1.dpcs = s.dpcs := by
  rcases threadStep_cases h with ⟨item, w, -, h⟩ | ⟨item, w, e, q, -, -, h⟩ |
    ⟨_, _, _, _, _, -, -, rfl, -⟩ | ⟨_, _, _, _, _, _, -, h, -⟩ | ⟨_, -, rfl, -⟩ | ⟨_, -, -, rfl, -⟩ |
    ⟨_, _, -, h, -⟩
  · rw [show s1 = _ from congrArg Prod.fst h]
    have h2 : (workerRequeue w s).1.callers = s.callers ∧ (workerRequeue w s).1.dpcs = s.dpcs := by
      rw [workerRequeue_fst]; split <;> simp
    dsimp only [workerTop, workerTake, idleWorker]
    split <;> (try split_ifs) <;> simpa using h2
  · rw [show s1 = _ from congrArg Prod.fst h]
    unfold workerDispatch ccWriteBehind
    split <;> (try split_ifs) <;> exact ⟨rfl, rfl⟩
  · exact ⟨rfl, rfl⟩
  · exact scanStep_pending h
  · exact ⟨rfl, rfl⟩
  · exact ⟨rfl, rfl⟩
  · exact scanStep_pending h

/-- Taking the `i`-th element out of a list. -/
lemma perm_cons_eraseIdx {α : Type} [DecidableEq α] {l : List α} {i : Nat} {a : α} (h : l[i]? = some a) :
    l.Perm (a :: l.eraseIdx i) := by
  obtain ⟨hi, rfl⟩ := List.getElem?_eq_some_iff.1 h
  exact (List.perm_cons_erase (List.getElem_mem hi)).trans ((List.erase_getElem hi).cons _)

lemma envStep_pending {a : EnvAction} (h : envStep a s = some s') :
    s'.callers = s.callers ∧ s'.dpcs = s.dpcs := by
  cases a with
  | postReadAhead q => cases h; simp [ccAllocateWorkQueueEntry]
  | _ => simp only [envStep] at h; (try split_ifs at h); cases h; exact ⟨rfl, rfl⟩

/-- Only the halves of `CcWaitForCurrentLazyWriterActivity` and `CcScanDpc` change what their
callers hold: an allocation adds a fresh entry and a queueing step takes one out. -/
lemma Step.pending (h : Step T s s') :
    (s'.callers = s.callers ∨ s'.callers = s.callers ++ [⟨s.nextEntry, .eventSet⟩] ∨
      ∃ i, s'.callers = s.callers.eraseIdx i) ∧
    (s'.dpcs = s.dpcs ∨ s'.dpcs = s.dpcs ++ [⟨s.nextEntry, .lazyWriteScan⟩] ∨
      ∃ i, s'.dpcs = s.dpcs.eraseIdx i) := by
  cases h with
  | run ℓ h =>
    cases ℓ with
    | schedule f => obtain ⟨-, -, rfl⟩ := step_schedule h; simp
    | wait => obtain ⟨-, rfl⟩ := step_wait h; simp [ccWaitForCurrentLazyWriterActivity, ccAllocateWorkQueueEntry]
    | waitAllocate => obtain rfl := step_waitAllocate h; exact ⟨.inr (.inl rfl), .inl rfl⟩
    | waitInsert i => obtain ⟨-, e, -, rfl⟩ := step_waitInsert h; exact ⟨.inr (.inr ⟨i, by simp⟩), .inl (by simp)⟩
    | scanDpc ok => obtain ⟨-, rfl⟩ := step_scanDpc h; cases ok <;> simp [ccScanDpc, ccAllocateWorkQueueEntry]
    | scanDpcAllocate => obtain ⟨-, rfl⟩ := step_scanDpcAllocate h; exact ⟨.inl rfl, .inr (.inl rfl)⟩
    | scanDpcPost i => obtain ⟨e, -, rfl⟩ := step_scanDpcPost h; exact ⟨.inl (by simp), .inr (.inr ⟨i, by simp⟩)⟩
    | env a => obtain ⟨h1, h2⟩ := envStep_pending h; exact ⟨.inl h1, .inl h2⟩
    | thread t inp =>
      obtain ⟨th, s1, th', -, h1, rfl⟩ := step_thread h
      obtain ⟨h2, h3⟩ := threadStep_pending h1
      exact ⟨.inl h2, .inl h3⟩
  | insertStream => exact ⟨.inl rfl, .inl rfl⟩
  | removeStream => exact ⟨.inl rfl, .inl rfl⟩

end Threads

/-- What the routines hold between allocation and queueing: `EventSet` entries for the callers of
`CcWaitForCurrentLazyWriterActivity` (line 103), `LazyWriteScan` entries for `CcScanDpc`
(line 77). -/
structure PendingWork (s : State) : Prop where
  callers : ∀ e ∈ s.callers, e.work = .eventSet
  dpcs : ∀ e ∈ s.dpcs, e.work = .lazyWriteScan

lemma Reachable.pendingWork {T : Tunables} {N : Nat} {s : State} (h : Reachable T N s) : PendingWork s := by
  induction h with
  | init => exact ⟨nofun, nofun⟩
  | step _ hs ih =>
    have keep : ∀ {w : Work} {l l' : List Entry} {n : Nat}, (∀ e ∈ l, e.work = w) →
        (l' = l ∨ l' = l ++ [⟨n, w⟩] ∨ ∃ i, l' = l.eraseIdx i) → ∀ e ∈ l', e.work = w := by
      rintro w l l' n hl (rfl | rfl | ⟨i, rfl⟩) e he
      · exact hl e he
      · rcases List.mem_append.1 he with he | he
        · exact hl e he
        · rw [List.mem_singleton.1 he]
      · exact hl e (List.mem_of_mem_eraseIdx he)
    exact ⟨keep ih.callers hs.pending.1, keep ih.dpcs hs.pending.2⟩

/-- The entry a scan holds between `CcAllocateWorkQueueEntry` and `CcPostWorkQueue` is a
`WriteBehind` of its current stream (lines 320-321). -/
def Scan.Posting (sc : Scan) : Prop :=
  ∀ e, sc.pc = .posting e → e.work = .writeBehind sc.sharedCacheMap

/-- Only `CcAllocateWorkQueueEntry` leaves a scan holding an entry. -/
lemma scanStep_posting {T : Tunables} {inp : Input} {s s1 : State} {sc sc' : Scan}
    (h : scanStep T inp s sc = some (s1, sc')) : sc'.Posting := by
  intro e he
  rcases scanStep_cases h with ⟨-, -, h⟩ | ⟨-, h⟩ | ⟨-, -, h⟩ | ⟨e', -, -, h⟩ | ⟨-, -, h⟩ |
    ⟨hpc, h⟩ | ⟨-, h⟩ <;> rw [show sc' = _ from congrArg Prod.snd h] at he ⊢
  · unfold Scan.start at he; split_ifs at he
  · dsimp only [Scan.walk] at he; split_ifs at he; simp [Scan.advance_pc] at he
  · unfold Scan.allocate at he ⊢; split_ifs at he ⊢; cases he; rfl
  · simp [Scan.post, Scan.advance_pc] at he
  · simp [Scan.courtesy, Scan.advance_pc] at he
  · unfold Scan.drain at he; split at he <;> simp_all
  · cases he

lemma Reachable.posting {T : Tunables} {N : Nat} {s : State} (h : Reachable T N s) :
    ∀ th ∈ s.threads, ∀ sc, th.scan? = some sc → sc.Posting :=
  h.scans (fun _ he => by cases he) fun h _ => scanStep_posting h

/-- What the dispatch of lines 510-547 leaves in the requeue slot: what was there, or the
`WriteBehind` it ran if that returned `CC_REQUEUE`. -/
lemma workerDispatch_slot (item : Nat) (w : WorkerLocals) (e : Entry) (q : Queue) (io : IoStatus)
    (s : State) :
    (workerDispatch item w e q io s).2.slot = w.requeue ∨
      ((∃ S, e.work = .writeBehind S) ∧ (workerDispatch item w e q io s).2.slot = some (e, q)) := by
  unfold workerDispatch
  split <;> rename_i hw
  · exact .inl rfl
  · split_ifs
    · exact .inr ⟨⟨_, hw⟩, rfl⟩
    · exact .inl (WorkerLocals.afterWriteBehind_requeue w io)
  · exact .inl rfl
  · exact .inl rfl

/-- Only `WriteBehind` entries wait in a requeue slot. -/
lemma Reachable.slots {T : Tunables} {N : Nat} {s : State} (h : Reachable T N s) :
    ∀ th ∈ s.threads, ∀ p ∈ th.slot, ∃ S, p.1.work = .writeBehind S := by
  refine h.threads_all (fun _ _ h => by cases h) fun {inp s th s1 th'} h1 ih => ?_
  rcases threadStep_cases h1 with ⟨item, w, rfl, h2⟩ | ⟨item, w, e, q, rfl, -, h2⟩ |
    ⟨item, w, e, q, sc, rfl, -, -, rfl⟩ | ⟨item, w, e, q, sc, sc', rfl, -, rfl⟩ |
    ⟨ok, rfl, -, rfl⟩ | ⟨sc, rfl, -, -, rfl⟩ | ⟨sc, sc', rfl, -, rfl⟩
  · rw [show th' = _ from congrArg Prod.snd h2]
    dsimp only [workerTop]
    rcases workerTake_snd item (workerRequeue w s).2 (workerRequeue w s).1 with h3 | ⟨e, q, h3⟩ <;>
      · rw [h3]; simp [Thread.slot]
  · rw [show th' = _ from congrArg Prod.snd h2]
    rcases workerDispatch_slot item w e q inp.io s with h3 | ⟨⟨S, hS⟩, h3⟩ <;> rw [h3]
    · exact ih
    · simpa using ⟨S, hS⟩
  · exact ih
  · exact ih
  · unfold workerExit; split_ifs <;> simp [Thread.slot]
  · simp [Thread.slot]
  · exact ih

end LazyWriter
