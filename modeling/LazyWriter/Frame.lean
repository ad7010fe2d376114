import LazyWriter.Inversion

/-!
# Frames of the routines

What each routine does to the scheduling state of the lazy writer and to the record of a scan:
`State.sched` is the post-tick queue, the `OtherWork` hint, the timer and `ScanActive`, and
`Scan.log` is the local
`PostTickWorkQueue` of a scan with the two history variables that record what it drained and what
it posted. The walk, the cursor moves and the lock-courtesy step touch neither; the other routines
change them as `Scan.start_quiescent`, `Scan.start_tick`, `Scan.post_frame`, `Scan.drain_frame` and
`Scan.poke_frame` say, and the lemmas on `CcScanDpc`, `CcWaitForCurrentLazyWriterActivity` and their
halves, `workerTop`, `workerDispatch` and the environment do the same for the other steps.
-/

namespace LazyWriter

/-- The post-tick queue, the `OtherWork` hint, the scan timer and `ScanActive`. -/
def State.sched (s : State) : List Entry × Bool × Option Delay × Bool :=
  (s.postTick, s.otherWork, s.timer, s.scanActive)

/-- The local `PostTickWorkQueue` of a scan, what it drained and what it posted. -/
def Scan.log (sc : Scan) : List Entry × Option (List Entry) × List (Entry × Queue) :=
  (sc.postTickWorkQueue, sc.drained, sc.posted)

section Frames

variable {T : Tunables} {s : State} {sc : Scan}

lemma ccPostWorkQueue_sched (e : Entry) (q : Queue) : (ccPostWorkQueue e q s).sched = s.sched := by
  unfold ccPostWorkQueue wakeWorker; cases q <;> split <;> rfl

lemma ccScheduleLazyWriteScan_sched (fast : Bool) :
    (ccScheduleLazyWriteScan fast s).sched =
      (s.postTick, s.otherWork, some (if fast then .noDelay else if s.scanActive then .idleDelay
        else .firstDelay), true) := by
  unfold ccScheduleLazyWriteScan; split_ifs <;> simp_all [State.sched]

lemma Scan.advance_frame : (Scan.advance s sc).1.sched = s.sched ∧ (Scan.advance s sc).2.log = sc.log := by
  unfold Scan.advance; split <;> exact ⟨rfl, rfl⟩

@[simp] lemma Scan.advance_postTickWorkQueue (s : State) (sc : Scan) :
    (Scan.advance s sc).2.postTickWorkQueue = sc.postTickWorkQueue := by
  unfold Scan.advance; split <;> rfl

lemma Scan.moveCursor_frame (mwd : Bool) (fv : Nat) (pass amount : ULONG) :
    (Scan.moveCursor s sc mwd fv pass amount).1.sched = s.sched ∧
      (Scan.moveCursor s sc mwd fv pass amount).2.log = sc.log := by
  unfold Scan.moveCursor; split_ifs <;> exact ⟨rfl, rfl⟩

lemma Scan.walk_frame (c : Bool) :
    (Scan.walk T c s sc).1.sched = s.sched ∧ (Scan.walk T c s sc).2.log = sc.log := by
  dsimp only [Scan.walk]
  split_ifs
  · exact ⟨rfl, rfl⟩
  · exact Scan.moveCursor_frame ..
  · exact ⟨rfl, rfl⟩
  · exact Scan.advance_frame

/-- An iteration of the walk ends in the walk, holding a pinned stream, or at the drain. -/
lemma Scan.walk_pc (T : Tunables) (c : Bool) (s : State) (sc : Scan) :
    (Scan.walk T c s sc).2.pc = .loop ∨ (Scan.walk T c s sc).2.pc = .alloc ∨
      (Scan.walk T c s sc).2.pc = .courtesy ∨ (Scan.walk T c s sc).2.pc = .drain := by
  dsimp only [Scan.walk]
  split_ifs
  · exact .inr (.inr (.inr rfl))
  · exact .inr (.inl rfl)
  · exact .inr (.inr (.inl rfl))
  · exact .inl (Scan.advance_pc _)

lemma Scan.courtesy_frame : (Scan.courtesy s sc).1.sched = s.sched ∧ (Scan.courtesy s sc).2.log = sc.log :=
  Scan.advance_frame

lemma Scan.allocate_frame (ok : Bool) :
    (Scan.allocate ok s sc).1.sched = s.sched ∧ (Scan.allocate ok s sc).2.log = sc.log := by
  cases ok <;> exact ⟨rfl, rfl⟩

lemma Scan.post_frame (e : Entry) (s : State) (sc : Scan) :
    (Scan.post e s sc).1.sched = s.sched ∧
      (Scan.post e s sc).2.log = (sc.postTickWorkQueue, sc.drained, sc.posted ++
        [(e, if (s.maps sc.sharedCacheMap).flags.waitingForTeardown then .express else .regular)]) := by
  unfold Scan.post
  exact ⟨Scan.advance_frame.1.trans (ccPostWorkQueue_sched _ _), Scan.advance_frame.2⟩

lemma Scan.drain_frame (s : State) (sc : Scan) :
    (Scan.drain s sc).1.sched = s.sched ∧
      ((Scan.drain s sc).2.log = sc.log ∨ ∃ e rest, sc.postTickWorkQueue = e :: rest ∧
        (Scan.drain s sc).2.log = (rest, sc.drained, sc.posted ++ [(e, .regular)])) := by
  unfold Scan.drain; split
  · next e rest h => exact ⟨ccPostWorkQueue_sched _ _, .inr ⟨e, rest, h, rfl⟩⟩
  · exact ⟨rfl, .inl rfl⟩

/-- The quiescent exit of lines 141-181: poke when deferred writes are pending, or go idle. -/
lemma Scan.start_quiescent (T : Tunables) (h : s.totalDirtyPages = 0 ∧ s.otherWork = false) :
    Scan.start T s sc = if s.deferredWrites then (s, { sc with pc := .poke })
      else ({ s with scanActive := false }, { sc with pc := .done }) := by
  unfold Scan.start; rw [if_pos h]

/-- The top of a tick (lines 183-231): take the post-tick queue, clear `OtherWork`, start the walk. -/
lemma Scan.start_tick (T : Tunables) (sc : Scan) (h : ¬(s.totalDirtyPages = 0 ∧ s.otherWork = false)) :
    (Scan.start T s sc).1.sched = ([], false, s.timer, s.scanActive) ∧
      (Scan.start T s sc).2.log = (s.postTick, some s.postTick, sc.posted) ∧
      (Scan.start T s sc).2.pc = .loop := by
  unfold Scan.start; rw [if_neg h]; exact ⟨rfl, rfl, rfl⟩

lemma ccScanDpc_sched (ok : Bool) :
    (ccScanDpc ok s).sched = (s.postTick, s.otherWork, none, if ok then s.scanActive else false) := by
  cases ok
  · rfl
  · exact ccPostWorkQueue_sched _ _

lemma waitInsert_sched (e : Entry) :
    (waitInsert e s).sched = (s.postTick ++ [e], true, if s.scanActive then s.timer else some .noDelay, true) := by
  dsimp only [waitInsert]
  cases h : s.scanActive
  · exact ccScheduleLazyWriteScan_sched true
  · simp [State.sched, h]

lemma ccWaitForCurrentLazyWriterActivity_sched :
    (ccWaitForCurrentLazyWriterActivity s).sched = (s.postTick ++ [⟨s.nextEntry, .eventSet⟩], true,
      if s.scanActive then s.timer else some .noDelay, true) :=
  waitInsert_sched _

lemma workerTop_sched (item : Nat) (w : WorkerLocals) : (workerTop item w s).1.sched = s.sched := by
  have h : (workerRequeue w s).1.sched = s.sched := by
    rw [workerRequeue_fst]; split <;> simp [State.sched]
  dsimp only [workerTop, workerTake, idleWorker]
  split <;> (try split_ifs) <;> simp [State.sched] at h ⊢ <;> exact h

lemma workerDispatch_sched (item : Nat) (w : WorkerLocals) (e : Entry) (q : Queue) (io : IoStatus) :
    (workerDispatch item w e q io s).1.sched = s.sched := by
  unfold workerDispatch ccWriteBehind
  split <;> (try split_ifs) <;> rfl

lemma envStep_sched {s' : State} {a : EnvAction} (h : envStep a s = some s') :
    s'.sched = s.sched ∨ (a = .setOtherWork ∧ s'.sched = (s.postTick, true, s.timer, s.scanActive)) := by
  cases a with
  | setOtherWork => simp only [envStep] at h; split_ifs at h; cases h; exact .inr ⟨rfl, rfl⟩
  | postReadAhead q => cases h; exact .inl (ccPostWorkQueue_sched _ _)
  | _ => simp only [envStep] at h; (try split_ifs at h); cases h; exact .inl rfl

end Frames

end LazyWriter
