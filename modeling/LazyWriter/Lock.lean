import LazyWriter.Pool
import LazyWriter.Hold

/-!
# The master lock

`CcLazyWriteScan` is the one routine that holds the master lock across steps of the model: from
line 140 through the walk up to the release for a dispatch (line 305) or for lock courtesy
(line 341), from the re-acquisitions of lines 314, 324 and 343 back into the walk or to the drain,
and through the drain of its local post-tick queue up to line 371. `Scan.holdsLock` names those
places, the `loop` and the `drain` of a scan. Every other routine of the model takes the lock and
releases it within one atomic step (`CcWaitForCurrentLazyWriterActivity`, lines 109-115; the top of
a quiescent scan; the `WRITE_QUEUED` update of `CcWriteBehind`; the changes the rest of the cache
manager makes), or does not take it at all; in the source these too hold it for a while, but no
other step of the model runs inside them.

`scanStep_lock` says what one step of a scan does with the lock: a scan that holds it keeps it
exactly while it stays at a holding place, and one that does not hold it either leaves the lock
alone and stays outside, or takes the free lock and enters a holding place. `threadStep_lock` lifts
this to the steps of a thread, `Step.lockInv` to every step of the system, and `Reachable.lockInv`
to every run: between steps the lock is held exactly when one thread is at a holding place. The
dirty list uses it to know that a scan which has released the lock is not walking.
-/

namespace LazyWriter

/-- The places of a scan that hold the master lock: an iteration of the walk and the drain. -/
def Scan.holdsLock (sc : Scan) : Bool :=
  match sc.pc with
  | .loop | .drain => true
  | _ => false

/-- The thread runs a scan that holds the master lock. -/
def Thread.holdsLock (th : Thread) : Bool :=
  match th.scan? with
  | some sc => sc.holdsLock
  | none => false

/-- The master lock is held exactly when one thread holds it. -/
def LockInv (s : State) : Prop :=
  s.threads.countP Thread.holdsLock = if s.masterLock then 1 else 0

section Frames

variable {s : State}

@[simp] lemma ccScheduleLazyWriteScan_masterLock (f : Bool) :
    (ccScheduleLazyWriteScan f s).masterLock = s.masterLock := by
  unfold ccScheduleLazyWriteScan; split_ifs <;> rfl

@[simp] lemma ccScanDpc_masterLock (ok : Bool) : (ccScanDpc ok s).masterLock = s.masterLock := by
  cases ok <;> simp [ccScanDpc, ccAllocateWorkQueueEntry]

@[simp] lemma waitInsert_masterLock (e : Entry) : (waitInsert e s).masterLock = s.masterLock := by
  dsimp only [waitInsert]; split <;> simp

@[simp] lemma ccWaitForCurrentLazyWriterActivity_masterLock :
    (ccWaitForCurrentLazyWriterActivity s).masterLock = s.masterLock :=
  waitInsert_masterLock _

@[simp] lemma workerTop_masterLock (item : Nat) (w : WorkerLocals) :
    (workerTop item w s).1.masterLock = s.masterLock := by
  simp only [workerTop, workerTake, workerRequeue_fst]
  split <;> (try split_ifs) <;> split <;> simp [idleWorker]

@[simp] lemma workerDispatch_masterLock (item : Nat) (w : WorkerLocals) (e : Entry) (q : Queue)
    (io : IoStatus) : (workerDispatch item w e q io s).1.masterLock = s.masterLock := by
  unfold workerDispatch ccWriteBehind
  split <;> (try split_ifs) <;> rfl

lemma envStep_masterLock {a : EnvAction} {s' : State} (h : envStep a s = some s') :
    s'.masterLock = s.masterLock := by
  cases a with
  | postReadAhead q => cases h; simp [ccAllocateWorkQueueEntry]
  | _ => simp only [envStep] at h; (try split_ifs at h); cases h; rfl

end Frames

section Steps

variable {T : Tunables} {inp : Input} {s s1 : State} {sc sc' : Scan}

/-- The walk keeps the lock at the next iteration and at the end of the walk, and releases it for
a dispatch (line 305) or for lock courtesy (line 341). -/
lemma Scan.walk_lock (c : Bool) (hl : s.masterLock = true) :
    (Scan.walk T c s sc).1.masterLock = (Scan.walk T c s sc).2.holdsLock := by
  rcases Scan.walk_pc T c s sc with h | h | h | h
  · rw [(Scan.walk_holds h).1, hl, Scan.holdsLock, h]
  · rw [(Scan.walk_releases (.inl h)).1, Scan.holdsLock, h]
  · rw [(Scan.walk_releases (.inr h)).1, Scan.holdsLock, h]
  · rw [Scan.holdsLock, h]
    dsimp only [Scan.walk] at h ⊢
    split_ifs at h ⊢ <;> simp_all [Scan.advance_pc]

/-- What one step of a scan does with the master lock. A scan at a holding place keeps the lock
exactly while it stays at one; a scan elsewhere leaves the lock alone and stays outside (the
quiescent exit, a successful allocation, the poke), or takes the free lock and enters the walk or
the drain (line 140, and lines 314, 324, 343). -/
lemma scanStep_lock (h : scanStep T inp s sc = some (s1, sc')) :
    (sc.holdsLock = true → s.masterLock = true → s1.masterLock = sc'.holdsLock) ∧
    (sc.holdsLock = false → (s1.masterLock = s.masterLock ∧ sc'.holdsLock = false) ∨
      (s.masterLock = false ∧ s1.masterLock = true ∧ sc'.holdsLock = true)) := by
  rcases scanStep_cases h with ⟨hpc, hl, h⟩ | ⟨hpc, h⟩ | ⟨hpc, hok, h⟩ | ⟨e, hpc, hl, h⟩ |
    ⟨hpc, hl, h⟩ | ⟨hpc, h⟩ | ⟨hpc, h⟩ <;> obtain ⟨rfl, rfl⟩ := Prod.ext_iff.1 h
  · -- the top of the scan
    refine ⟨by simp [Scan.holdsLock, hpc], fun _ => ?_⟩
    unfold Scan.start
    split_ifs
    · exact .inl ⟨rfl, rfl⟩
    · exact .inl ⟨rfl, rfl⟩
    · exact .inr ⟨hl, rfl, rfl⟩
  · -- an iteration of the walk
    exact ⟨fun _ hl => Scan.walk_lock _ hl, fun h => by simp [Scan.holdsLock, hpc] at h⟩
  · -- the allocation: a failure takes the lock back (line 314)
    refine ⟨by simp [Scan.holdsLock, hpc], fun _ => ?_⟩
    unfold Scan.allocate
    split
    · exact .inl ⟨rfl, rfl⟩
    · next hf => exact .inr ⟨hok.resolve_left hf, rfl, rfl⟩
  · -- the post, under the lock taken back at line 324
    refine ⟨by simp [Scan.holdsLock, hpc], fun _ => .inr ⟨hl, ?_, ?_⟩⟩
    · simp [Scan.post, Scan.advance_masterLock]
    · simp [Scan.post, Scan.holdsLock, Scan.advance_pc]
  · -- the end of the lock courtesy (line 343)
    refine ⟨by simp [Scan.holdsLock, hpc], fun _ => .inr ⟨hl, ?_, ?_⟩⟩
    · simp [Scan.courtesy, Scan.advance_masterLock]
    · simp [Scan.courtesy, Scan.holdsLock, Scan.advance_pc]
  · -- the drain: the lock is released when the local queue is empty (line 371)
    refine ⟨fun _ hl => ?_, by simp [Scan.holdsLock, hpc]⟩
    unfold Scan.drain
    split
    · simp [Scan.holdsLock, hpc, hl]
    · rfl
  · -- the poke
    exact ⟨by simp [Scan.holdsLock, hpc], fun _ => .inl ⟨by simp [Scan.poke], rfl⟩⟩

/-- `scanStep_lock` for the steps of a thread: the steps of `CcWorkerThread` other than those of
the scan it runs neither hold the lock nor change it. -/
lemma threadStep_lock {th th' : Thread} (h : threadStep T inp s th = some (s1, th')) :
    (th.holdsLock = true → s.masterLock = true → s1.masterLock = th'.holdsLock) ∧
    (th.holdsLock = false → (s1.masterLock = s.masterLock ∧ th'.holdsLock = false) ∨
      (s.masterLock = false ∧ s1.masterLock = true ∧ th'.holdsLock = true)) := by
  have outside : th.holdsLock = false → s1.masterLock = s.masterLock → th'.holdsLock = false →
      (th.holdsLock = true → s.masterLock = true → s1.masterLock = th'.holdsLock) ∧
      (th.holdsLock = false → (s1.masterLock = s.masterLock ∧ th'.holdsLock = false) ∨
        (s.masterLock = false ∧ s1.masterLock = true ∧ th'.holdsLock = true)) :=
    fun h0 h1 h2 => ⟨fun h => absurd h (by simp [h0]), fun _ => .inl ⟨h1, h2⟩⟩
  rcases threadStep_cases h with ⟨item, w, rfl, h1⟩ | ⟨item, w, e, q, rfl, -, h1⟩ |
    ⟨item, w, e, q, sc, rfl, hd, rfl, rfl⟩ | ⟨item, w, e, q, sc, sc', rfl, h1, rfl⟩ |
    ⟨ok, rfl, rfl, rfl⟩ | ⟨sc, rfl, hd, rfl, rfl⟩ | ⟨sc, sc', rfl, h1, rfl⟩
  · obtain ⟨rfl, rfl⟩ := Prod.ext_iff.1 h1
    refine outside rfl (workerTop_masterLock item w) ?_
    show (workerTake item (workerRequeue w s).2 (workerRequeue w s).1).2.holdsLock = false
    rcases workerTake_snd item (workerRequeue w s).2 (workerRequeue w s).1 with h2 | ⟨e, q, h2⟩ <;>
      rw [h2] <;> rfl
  · obtain ⟨rfl, rfl⟩ := Prod.ext_iff.1 h1
    refine outside rfl (workerDispatch_masterLock ..) ?_
    unfold workerDispatch
    split <;> (try split_ifs) <;> simp [Thread.holdsLock, Thread.scan?, Scan.holdsLock, Scan.init]
  · exact outside (by simp [Thread.holdsLock, Thread.scan?, Scan.holdsLock, hd]) rfl
      (by simp [Thread.holdsLock, Thread.scan?])
  · exact scanStep_lock h1
  · refine outside rfl rfl ?_
    unfold workerExit
    split_ifs <;> simp [Thread.holdsLock, Thread.scan?, Scan.holdsLock, Scan.init]
  · exact outside (by simp [Thread.holdsLock, Thread.scan?, Scan.holdsLock, hd]) rfl rfl
  · exact scanStep_lock h1

end Steps

section System

variable {T : Tunables} {s s' : State}

/-- A new worker thread does not hold the lock. -/
lemma countP_holdsLock_of_threads
    (h : s'.threads = s.threads ∨ ∃ i, s'.threads = s.threads ++ [.loop i .init]) :
    s'.threads.countP Thread.holdsLock = s.threads.countP Thread.holdsLock := by
  rcases h with h | ⟨i, h⟩ <;> rw [h]
  simp [Thread.holdsLock, Thread.scan?]

/-- A step that leaves the lock and the threads alone, but for a new worker, keeps `LockInv`. -/
lemma LockInv.frame (hi : LockInv s) (hl : s'.masterLock = s.masterLock)
    (h : s'.threads = s.threads ∨ ∃ i, s'.threads = s.threads ++ [.loop i .init]) : LockInv s' := by
  unfold LockInv at hi ⊢; rw [countP_holdsLock_of_threads h, hl, hi]

/-- The step of thread `t`: the holders other than `t` are as before. -/
lemma LockInv.thread {t : Nat} {th th' : Thread} {inp : Input} {s1 : State} (hi : LockInv s)
    (ht : s.threads[t]? = some th) (h : threadStep T inp s th = some (s1, th')) :
    LockInv { s1 with threads := s1.threads.set t th' } := by
  have ht1 : s1.threads[t]? = some th := by
    rcases threadStep_threads h with h1 | ⟨i, h1⟩ <;> rw [h1]
    · exact ht
    · rw [List.getElem?_append_left (List.getElem?_eq_some_iff.1 ht).1]; exact ht
  have hc := countP_set (p := Thread.holdsLock) (b := th') ht1
  rw [countP_holdsLock_of_threads (threadStep_threads h)] at hc
  unfold LockInv at hi ⊢
  show (s1.threads.set t th').countP _ = if s1.masterLock then 1 else 0
  obtain ⟨h1, h2⟩ := threadStep_lock h
  cases hth : th.holdsLock
  · -- `t` did not hold the lock: it leaves it alone, or takes it while it is free
    rcases h2 hth with ⟨h3, h4⟩ | ⟨h3, h4, h5⟩
    · rw [h3]; simp only [hth, h4, Bool.false_eq_true, ite_false] at hc; omega
    · simp only [hth, h3, h4, h5, Bool.false_eq_true, ite_false, ite_true] at hi hc ⊢; omega
  · -- `t` held the lock, so it was taken and `t` was the only holder
    have hpos := List.countP_pos_iff.2 ⟨th, List.getElem?_mem ht, hth⟩
    have hl : s.masterLock = true := by
      by_contra hl; simp only [hl, Bool.false_eq_true, ite_false] at hi; omega
    rw [h1 hth hl]
    simp only [hl, hth, ite_true] at hi hc
    cases hb : th'.holdsLock <;> simp only [hb, Bool.false_eq_true, ite_false, ite_true] at hc ⊢ <;> omega

/-- Every step of the system keeps `LockInv`. -/
lemma Step.lockInv (hi : LockInv s) (h : Step T s s') : LockInv s' := by
  cases h with
  | run ℓ h =>
    cases ℓ with
    | schedule f =>
      obtain ⟨-, -, rfl⟩ := step_schedule h
      exact hi.frame (by simp) (.inl (State.threads_eq_of_pool (ccScheduleLazyWriteScan_pool f)))
    | wait =>
      obtain ⟨-, rfl⟩ := step_wait h
      exact hi.frame (by simp) (.inl (State.threads_eq_of_pool ccWaitForCurrentLazyWriterActivity_pool))
    | waitAllocate => obtain rfl := step_waitAllocate h; exact hi.frame rfl (.inl rfl)
    | waitInsert i =>
      obtain ⟨-, e, -, rfl⟩ := step_waitInsert h
      exact hi.frame (by simp) (.inl (State.threads_eq_of_pool (waitInsert_pool e)))
    | scanDpc ok =>
      obtain ⟨-, rfl⟩ := step_scanDpc h
      exact hi.frame (by simp) ((ccScanDpc_pool ok).elim (.inl ∘ State.threads_eq_of_pool)
        threads_of_pool_post)
    | scanDpcAllocate => obtain ⟨-, rfl⟩ := step_scanDpcAllocate h; exact hi.frame rfl (.inl rfl)
    | scanDpcPost i =>
      obtain ⟨e, -, rfl⟩ := step_scanDpcPost h
      exact hi.frame (by simp) (ccPostWorkQueue_threads _ _)
    | env a =>
      exact hi.frame (envStep_masterLock h) ((envStep_pool h).elim (.inl ∘ State.threads_eq_of_pool)
        fun ⟨_, h⟩ => threads_of_pool_post h)
    | thread t inp =>
      obtain ⟨th, s1, th', ht, h1, rfl⟩ := step_thread h
      exact hi.thread ht h1
  | insertStream => exact hi
  | removeStream => exact hi

lemma Reachable.lockInv {N : Nat} (hs : Reachable T N s) : LockInv s := by
  induction hs with
  | init => rfl
  | step _ h ih => exact h.lockInv ih

end System

end LazyWriter
