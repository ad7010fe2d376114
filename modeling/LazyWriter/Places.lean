import LazyWriter.Idle
import LazyWriter.Pool

/-!
# Where the work-queue entries are

Every entry the routines allocate is, until `CcFreeWorkQueueEntry` returns it, in one of the places
`State.entries` lists: `CcPostTickWorkQueue`, the two work queues (`State.pooled`), held by a
thread (`Thread.holding`): the entry it executes, its requeue slot, the local `PostTickWorkQueue` of
its scan, and the entry its scan has allocated and not yet posted; or held by the routine that
allocated it and has not queued it yet (`State.pending`): a caller of
`CcWaitForCurrentLazyWriterActivity` between lines 98 and 110, or an activation of `CcScanDpc`
between lines 70 and 78. The entry a scan holds is not in the places the worker loop and the top of
the scan name (`State.places`): between `CcAllocateWorkQueueEntry` at line 307 and
`CcPostWorkQueue` at line 329 the scan waits for the master lock with the new entry in a local, and
`allocated_entry_unplaced` is a run that stops there.

`EntryStep` says what one step does to the entries: it moves them between places, allocates one
fresh entry, or frees one entry it holds. `scanStep_entries`, `workerTop_entries`,
`workerDispatch_entries`, `threadStep_entries` and the lemmas on the two halves of
`CcWaitForCurrentLazyWriterActivity` and `CcScanDpc` prove it for the routines and `Step.entries`
for the system; `Allocation` (every entry in one place, allocated and not freed; each address freed at
most once) follows by induction (`Reachable.allocation`). Only a worker frees, the entry it executed
(`Step.freed`), and `entries_in_one_place` collects both with the requeue to the tail.
-/

namespace LazyWriter

/-- The shared queues: `CcPostTickWorkQueue`, `CcExpressWorkQueue` and `CcRegularWorkQueue`. -/
def State.pooled (s : State) : List Entry := s.postTick ++ s.express ++ s.regular

/-- The entry in a requeue slot. -/
def WorkerLocals.slotEntries (w : WorkerLocals) : List Entry := w.requeue.toList.map Prod.fst

/-- The entry a scan holds between `CcAllocateWorkQueueEntry` and `CcPostWorkQueue`. -/
def Scan.allocated (sc : Scan) : List Entry :=
  match sc.pc with
  | .posting e => [e]
  | _ => []

/-- The entries a thread holds in the places the worker loop and the top of the scan name: the
entry it executes (a `LazyWriteScan` entry while its scan runs), its requeue slot, and the local
`PostTickWorkQueue` of its scan. -/
def Thread.held : Thread → List Entry
  | .loop _ w => w.slotEntries
  | .exec _ w e _ => e :: w.slotEntries
  | .scan _ w e _ sc => e :: w.slotEntries ++ sc.postTickWorkQueue
  | .rescan sc => sc.postTickWorkQueue
  | _ => []

/-- Everything a thread holds: the places of `Thread.held` and the entry its scan has allocated. -/
def Thread.holding (th : Thread) : List Entry :=
  th.held ++ (th.scan?.map Scan.allocated).getD []

/-- The places the worker loop and the top of the scan name. -/
def State.places (s : State) : List Entry := s.pooled ++ s.threads.flatMap Thread.held

/-- The entries held between allocation and queueing: by callers of
`CcWaitForCurrentLazyWriterActivity` (lines 98-110) and by activations of `CcScanDpc`
(lines 70-78). -/
def State.pending (s : State) : List Entry := s.callers ++ s.dpcs

/-- Every entry that has been allocated and not freed, by place. -/
def State.entries (s : State) : List Entry := s.pooled ++ s.threads.flatMap Thread.holding ++ s.pending

/-- The entry lists `A` and `B`, before and after a step from `s` to `s'`: the same entries, one
fresh entry more (with the allocator moved on), or one entry less (recorded as freed). -/
def EntryStep (s s' : State) (A B : List Entry) : Prop :=
  (B.Perm A ∧ s'.nextEntry = s.nextEntry ∧ s'.freed = s.freed) ∨
  (∃ w, B.Perm (⟨s.nextEntry, w⟩ :: A) ∧ s'.nextEntry = s.nextEntry + 1 ∧ s'.freed = s.freed) ∨
  (∃ e, A.Perm (e :: B) ∧ s'.nextEntry = s.nextEntry ∧ s'.freed = s.freed ++ [e.addr])

section EntryStep

variable {s s' : State} {A B : List Entry}

lemma EntryStep.perm {A' B' : List Entry} (h : EntryStep s s' A B) (hA : A.Perm A') (hB : B.Perm B') :
    EntryStep s s' A' B' := by
  rcases h with ⟨h, h1, h2⟩ | ⟨w, h, h1, h2⟩ | ⟨e, h, h1, h2⟩
  · exact .inl ⟨hB.symm.trans (h.trans hA), h1, h2⟩
  · exact .inr (.inl ⟨w, hB.symm.trans (h.trans (hA.cons _)), h1, h2⟩)
  · exact .inr (.inr ⟨e, hA.symm.trans (h.trans (hB.cons _)), h1, h2⟩)

lemma EntryStep.append (h : EntryStep s s' A B) (C : List Entry) : EntryStep s s' (A ++ C) (B ++ C) := by
  rcases h with ⟨h, h1, h2⟩ | ⟨w, h, h1, h2⟩ | ⟨e, h, h1, h2⟩
  · exact .inl ⟨h.append_right C, h1, h2⟩
  · exact .inr (.inl ⟨w, h.append_right C, h1, h2⟩)
  · exact .inr (.inr ⟨e, h.append_right C, h1, h2⟩)

lemma EntryStep.same (h : B.Perm A) (h1 : s'.nextEntry = s.nextEntry) (h2 : s'.freed = s.freed) :
    EntryStep s s' A B := .inl ⟨h, h1, h2⟩

end EntryStep

/-- The shared queues and the allocator: what a step that allocates or frees nothing keeps. -/
def State.ledger (s : State) : List Entry × Nat × List Nat := (s.pooled, s.nextEntry, s.freed)

/-- The entries a scan holds: its local `PostTickWorkQueue` and the entry it has allocated. -/
def Scan.holding (sc : Scan) : List Entry := sc.postTickWorkQueue ++ sc.allocated

@[simp] lemma Thread.holding_scan (item : Nat) (w : WorkerLocals) (e : Entry) (q : Queue) (sc : Scan) :
    (Thread.scan item w e q sc).holding = e :: w.slotEntries ++ sc.holding := by
  simp [Thread.holding, Thread.held, Thread.scan?, Scan.holding]

@[simp] lemma Thread.holding_rescan (sc : Scan) : (Thread.rescan sc).holding = sc.holding := rfl

section Routines

variable {T : Tunables} {s s' : State} {sc : Scan}

/-- A step that keeps the shared queues and the allocator and moves nothing a thread holds. -/
lemma EntryStep.of_ledger {A B : List Entry} (h : s'.ledger = s.ledger) (hh : B = A) :
    EntryStep s s' (s.pooled ++ A) (s'.pooled ++ B) := by
  simp only [State.ledger, Prod.mk.injEq] at h
  rw [h.1, hh]
  exact .same (.refl _) h.2.1 h.2.2

/-- Appending to a work queue adds one entry to the shared queues. -/
lemma pooled_setQueue_append (q : Queue) (e : Entry) :
    (s.setQueue q (s.queue q ++ [e])).pooled.Perm (s.pooled ++ [e]) := by
  refine List.perm_iff_count.2 fun a => ?_
  cases q <;> simp only [State.pooled, State.setQueue, State.queue, List.count_append] <;> omega

/-- Popping the head of a work queue takes one entry from the shared queues. -/
lemma pooled_setQueue_pop {q : Queue} {e : Entry} {rest : List Entry} (h : s.queue q = e :: rest) :
    ((s.setQueue q rest).pooled ++ [e]).Perm s.pooled := by
  refine List.perm_iff_count.2 fun a => ?_
  cases q <;> simp only [State.queue] at h <;>
    simp only [State.pooled, State.setQueue, h, List.count_append, List.count_cons, List.count_nil] <;> omega

lemma ccPostWorkQueue_ledger (e : Entry) (q : Queue) :
    (ccPostWorkQueue e q s).pooled.Perm (s.pooled ++ [e]) ∧ (ccPostWorkQueue e q s).nextEntry = s.nextEntry ∧
      (ccPostWorkQueue e q s).freed = s.freed := by
  refine ⟨?_, by simp [ccPostWorkQueue], by simp [ccPostWorkQueue]⟩
  have h : (ccPostWorkQueue e q s).pooled = (s.setQueue q (s.queue q ++ [e])).pooled := by
    simp [ccPostWorkQueue, State.pooled]
  rw [h]
  exact pooled_setQueue_append q e

lemma ccScheduleLazyWriteScan_ledger (fast : Bool) : (ccScheduleLazyWriteScan fast s).ledger = s.ledger := by
  unfold ccScheduleLazyWriteScan; split_ifs <;> rfl

lemma Scan.advance_ledger (s : State) (sc : Scan) : (Scan.advance s sc).1.ledger = s.ledger := by
  unfold Scan.advance; split <;> rfl

lemma Scan.walk_ledger (c : Bool) : (Scan.walk T c s sc).1.ledger = s.ledger := by
  dsimp only [Scan.walk]
  split_ifs
  · rfl
  · show (Scan.moveCursor _ _ _ _ _ _).1.ledger = _
    unfold Scan.moveCursor; split_ifs <;> rfl
  · rfl
  · exact Scan.advance_ledger _ _

/-- Lines 320-335: the allocated entry goes to a work queue. -/
lemma Scan.post_entries (e : Entry) (hpc : sc.pc = .posting e) :
    EntryStep s (Scan.post e s sc).1 (s.pooled ++ sc.holding)
      ((Scan.post e s sc).1.pooled ++ (Scan.post e s sc).2.holding) := by
  unfold Scan.post
  obtain ⟨h1, h2, h3⟩ := ccPostWorkQueue_ledger (s := { s.updateMap sc.sharedCacheMap
    SharedCacheMap.unbias with masterLock := true }) e
    (if (s.maps sc.sharedCacheMap).flags.waitingForTeardown then .express else .regular)
  have ha := Scan.advance_ledger (ccPostWorkQueue e
    (if (s.maps sc.sharedCacheMap).flags.waitingForTeardown then .express else .regular)
    { s.updateMap sc.sharedCacheMap SharedCacheMap.unbias with masterLock := true })
    { sc with loopsWithLockHeld := 0, posted := sc.posted ++ [(e,
      if (s.maps sc.sharedCacheMap).flags.waitingForTeardown then .express else .regular)] }
  simp only [State.ledger, Prod.mk.injEq] at ha
  have hp : State.pooled { s.updateMap sc.sharedCacheMap SharedCacheMap.unbias with masterLock := true } =
      s.pooled := rfl
  rw [hp] at h1
  refine .same ?_ (ha.2.1.trans h2) (ha.2.2.trans h3)
  rw [ha.1]
  simp only [Scan.holding, Scan.allocated, hpc, Scan.advance_pc, Scan.advance_postTickWorkQueue,
    List.append_nil]
  exact (h1.append_right _).trans
    (by simpa using ((List.perm_append_singleton e sc.postTickWorkQueue).symm).append_left s.pooled)

/-- Lines 365-368: the head of the local `PostTickWorkQueue` goes to the regular queue. -/
lemma Scan.drain_entries (hpc : sc.pc = .drain) :
    EntryStep s (Scan.drain s sc).1 (s.pooled ++ sc.holding)
      ((Scan.drain s sc).1.pooled ++ (Scan.drain s sc).2.holding) := by
  unfold Scan.drain
  split
  · next e rest hq =>
    obtain ⟨h1, h2, h3⟩ := ccPostWorkQueue_ledger (s := s) e .regular
    refine .same ?_ h2 h3
    simp only [Scan.holding, Scan.allocated, hpc, hq, List.append_nil]
    exact (h1.append_right _).trans (by simp)
  · exact .of_ledger rfl (by simp [Scan.holding, Scan.allocated, hpc])

/-- What a step of a scan does to the shared queues and to what the scan holds: the top of a tick
moves `CcPostTickWorkQueue` to the local queue, the allocation adds a fresh entry, and the post and
the drain move an entry to a work queue. -/
lemma scanStep_entries {inp : Input} {s1 : State} {sc' : Scan} (h : scanStep T inp s sc = some (s1, sc'))
    (hd : sc.DrainOk) : EntryStep s s1 (s.pooled ++ sc.holding) (s1.pooled ++ sc'.holding) := by
  rcases scanStep_cases h with ⟨hpc, -, h⟩ | ⟨hpc, h⟩ | ⟨hpc, -, h⟩ | ⟨e, hpc, -, h⟩ | ⟨hpc, -, h⟩ |
    ⟨hpc, h⟩ | ⟨hpc, h⟩ <;>
    rw [show s1 = _ from congrArg Prod.fst h, show sc' = _ from congrArg Prod.snd h]
  · -- the top of the scan
    have hq := hd.postTick_top hpc
    unfold Scan.start
    split_ifs with hquiet
    · exact .of_ledger rfl (by simp [Scan.holding, Scan.allocated, hpc])
    · exact .of_ledger rfl (by simp [Scan.holding, Scan.allocated, hpc])
    · refine .same ?_ rfl rfl
      simp only [Scan.holding, Scan.allocated, State.pooled, hq, hpc, List.append_nil, List.nil_append]
      rw [List.append_assoc s.postTick]
      exact List.perm_append_comm
  · -- an iteration of the walk
    refine .of_ledger (Scan.walk_ledger _) ?_
    have hl : (Scan.walk T inp.canIWrite s sc).2.log = sc.log := (Scan.walk_frame _).2
    simp only [Scan.log, Prod.mk.injEq] at hl
    simp only [Scan.holding, Scan.allocated, hl.1, hpc]
    rcases Scan.walk_pc T inp.canIWrite s sc with h | h | h | h <;> rw [h]
  · -- the allocation, and its failure
    unfold Scan.allocate
    split
    · refine .inr (.inl ⟨.writeBehind sc.sharedCacheMap, ?_, rfl, rfl⟩)
      simp [Scan.holding, Scan.allocated, hpc, ccAllocateWorkQueueEntry]
      simpa using
        List.perm_append_singleton _ (s.pooled ++ sc.postTickWorkQueue)
    · exact .of_ledger rfl (by simp [Scan.holding, Scan.allocated, hpc])
  · exact Scan.post_entries e hpc
  · -- the return from lock courtesy
    refine .of_ledger (Scan.advance_ledger _ _) ?_
    simp only [Scan.courtesy, Scan.holding, Scan.allocated, hpc, Scan.advance_pc,
      Scan.advance_postTickWorkQueue]
  · exact Scan.drain_entries hpc
  · exact .of_ledger (ccScheduleLazyWriteScan_ledger false) (by simp [Scan.holding, Scan.allocated, hpc, Scan.poke])

/-- Lines 476-484: the entry in the requeue slot goes to the tail of its queue. -/
lemma workerRequeue_entries (w : WorkerLocals) :
    (workerRequeue w s).1.pooled.Perm (s.pooled ++ w.slotEntries) ∧
      (workerRequeue w s).1.nextEntry = s.nextEntry ∧ (workerRequeue w s).1.freed = s.freed := by
  rw [workerRequeue_fst]
  split
  · next e q h =>
    simp only [WorkerLocals.slotEntries, h, Option.toList_some, List.map_cons, List.map_nil]
    exact ⟨pooled_setQueue_append (s := { s with throttle := s.throttle && !w.dropThrottle }) q e,
      by cases q <;> rfl, by cases q <;> rfl⟩
  · next h => simp [WorkerLocals.slotEntries, h, State.pooled]

/-- Lines 486-506: the head of a work queue goes to the thread that pops it. -/
lemma workerTake_entries (item : Nat) (w : WorkerLocals) (hw : w.requeue = none) :
    ((workerTake item w s).1.pooled ++ (workerTake item w s).2.holding).Perm s.pooled ∧
      (workerTake item w s).1.nextEntry = s.nextEntry ∧ (workerTake item w s).1.freed = s.freed := by
  unfold workerTake
  split
  · simp [idleWorker, Thread.holding, Thread.held, Thread.scan?, State.pooled]
  · next q e rest heq =>
    split_ifs
    · simp [idleWorker, Thread.holding, Thread.held, Thread.scan?, State.pooled]
    · refine ⟨?_, by cases q <;> rfl, by cases q <;> rfl⟩
      simpa [Thread.holding, Thread.held, Thread.scan?, WorkerLocals.slotEntries, hw] using
        pooled_setQueue_pop (workerPick_eq_some heq).1

/-- The head of the loop of `CcWorkerThread` moves entries and allocates and frees none. -/
lemma workerTop_entries (item : Nat) (w : WorkerLocals) :
    EntryStep s (workerTop item w s).1 (s.pooled ++ (Thread.loop item w).holding)
      ((workerTop item w s).1.pooled ++ (workerTop item w s).2.holding) := by
  obtain ⟨h1, h2, h3⟩ := workerRequeue_entries (s := s) w
  obtain ⟨h4, h5, h6⟩ := workerTake_entries (s := (workerRequeue w s).1) item (workerRequeue w s).2
    (by simp)
  refine .same (h4.trans (h1.trans ?_)) (h5.trans h2) (h6.trans h3)
  simp [Thread.holding, Thread.held, Thread.scan?]

/-- Lines 510-547: the dispatch frees the entry it executed unless `CcWriteBehind` returned
`CC_REQUEUE`, in which case the entry goes to the requeue slot; a `LazyWriteScan` entry stays with
the thread while its scan runs. -/
lemma workerDispatch_entries (item : Nat) (w : WorkerLocals) (e : Entry) (q : Queue) (io : IoStatus)
    (hw : w.requeue = none) :
    EntryStep s (workerDispatch item w e q io s).1 (s.pooled ++ (Thread.exec item w e q).holding)
      ((workerDispatch item w e q io s).1.pooled ++ (workerDispatch item w e q io s).2.holding) := by
  have hA : (Thread.exec item w e q).holding = [e] := by
    simp [Thread.holding, Thread.held, Thread.scan?, WorkerLocals.slotEntries, hw]
  have free : ∀ {s1 : State} {w1 : WorkerLocals}, s1.pooled = s.pooled → w1.requeue = none →
      s1.nextEntry = s.nextEntry → s1.freed = s.freed →
      EntryStep s (ccFreeWorkQueueEntry e s1) (s.pooled ++ [e])
        ((ccFreeWorkQueueEntry e s1).pooled ++ (Thread.loop item w1).holding) := by
    intro s1 w1 hp hw1 hn hf
    refine .inr (.inr ⟨e, ?_, hn, by simp [ccFreeWorkQueueEntry, hf]⟩)
    rw [show (ccFreeWorkQueueEntry e s1).pooled = s.pooled from hp]
    simp [Thread.holding, Thread.held, Thread.scan?, WorkerLocals.slotEntries, hw1]
  rw [hA]
  unfold workerDispatch
  split
  · exact free rfl hw rfl rfl
  · split_ifs with hr
    · refine .same ?_ (by simp [ccWriteBehind, hr]) (by simp [ccWriteBehind, hr])
      simp [ccWriteBehind, hr, Thread.holding, Thread.held, Thread.scan?, WorkerLocals.slotEntries]
    · exact free (by simp [ccWriteBehind, hr, State.pooled, State.updateMap]) (by simpa using hw)
        (by simp [ccWriteBehind, hr, State.updateMap]) (by simp [ccWriteBehind, hr, State.updateMap])
  · exact free rfl hw rfl rfl
  · refine .same ?_ rfl rfl
    simp [Thread.holding, Thread.held, Thread.scan?, WorkerLocals.slotEntries, hw, Scan.holding,
      Scan.init, Scan.allocated]

/-- A scan that has finished holds nothing. -/
lemma Scan.DrainOk.holding_done (hd : sc.DrainOk) (hpc : sc.pc = .done) : sc.holding = [] := by
  have hq : sc.postTickWorkQueue = [] := by
    unfold Scan.DrainOk at hd
    split at hd
    · exact hd.2.1
    · obtain ⟨-, -, -, -, -, -, -, h⟩ := hd
      exact h (.inr hpc)
  simp [Scan.holding, Scan.allocated, hq, hpc]

end Routines

/-- A thread executing an entry has an empty requeue slot: lines 480-484 emptied it first. -/
def Thread.SlotFree : Thread → Prop
  | .exec _ w _ _ | .scan _ w _ _ _ => w.requeue = none
  | _ => True

lemma Reachable.slotFree {T : Tunables} {N : Nat} {s : State} (h : Reachable T N s) :
    ∀ th ∈ s.threads, th.SlotFree := by
  refine h.threads_all (fun _ => trivial) fun {inp s th s1 th'} h1 ih => ?_
  rcases threadStep_cases h1 with ⟨item, w, rfl, h2⟩ | ⟨item, w, e, q, rfl, -, h2⟩ |
    ⟨item, w, e, q, sc, rfl, -, -, rfl⟩ | ⟨item, w, e, q, sc, sc', rfl, -, rfl⟩ |
    ⟨ok, rfl, -, rfl⟩ | ⟨sc, rfl, -, -, rfl⟩ | ⟨sc, sc', rfl, -, rfl⟩
  · rw [show th' = _ from congrArg Prod.snd h2]
    dsimp only [workerTop]
    rcases workerTake_snd item (workerRequeue w s).2 (workerRequeue w s).1 with h3 | ⟨e, q, h3⟩ <;>
      rw [h3] <;> simp [Thread.SlotFree]
  · rw [show th' = _ from congrArg Prod.snd h2]
    unfold workerDispatch
    split <;> (try split_ifs) <;> simp_all [Thread.SlotFree]
  · trivial
  · exact ih
  · unfold workerExit; split_ifs <;> trivial
  · trivial
  · trivial

section Threads

variable {T : Tunables} {s s1 : State} {inp : Input}

/-- What a step of a thread does to the shared queues and to what the thread holds. -/
lemma threadStep_entries {th th' : Thread} (h : threadStep T inp s th = some (s1, th'))
    (hd : ∀ sc, th.scan? = some sc → sc.DrainOk) (hslot : th.SlotFree) :
    EntryStep s s1 (s.pooled ++ th.holding) (s1.pooled ++ th'.holding) := by
  rcases threadStep_cases h with ⟨item, w, rfl, h1⟩ | ⟨item, w, e, q, rfl, -, h1⟩ |
    ⟨item, w, e, q, sc, rfl, hpc, rfl, rfl⟩ | ⟨item, w, e, q, sc, sc', rfl, h1, rfl⟩ |
    ⟨ok, rfl, rfl, rfl⟩ | ⟨sc, rfl, hpc, rfl, rfl⟩ | ⟨sc, sc', rfl, h1, rfl⟩
  · rw [show s1 = _ from congrArg Prod.fst h1, show th' = _ from congrArg Prod.snd h1]
    exact workerTop_entries item w
  · rw [show s1 = _ from congrArg Prod.fst h1, show th' = _ from congrArg Prod.snd h1]
    exact workerDispatch_entries item w e q _ hslot
  · -- the scan has finished: its `LazyWriteScan` entry is freed
    have h0 := (hd sc rfl).holding_done hpc
    refine .inr (.inr ⟨e, ?_, rfl, rfl⟩)
    simp only [Thread.holding_scan, h0, List.append_nil]
    simpa [ccFreeWorkQueueEntry, State.pooled, Thread.holding, Thread.held, Thread.scan?] using
      (List.perm_middle : (s.pooled ++ e :: w.slotEntries).Perm _)
  · have h2 := (scanStep_entries h1 (hd sc rfl)).append (e :: w.slotEntries)
    refine h2.perm ?_ ?_ <;> simp only [Thread.holding_scan] <;>
      exact List.perm_iff_count.2 fun a => by simp only [List.count_append, List.count_cons]; omega
  · exact .of_ledger rfl (by unfold workerExit; split_ifs <;> rfl)
  · have h0 := (hd sc rfl).holding_done hpc
    exact .of_ledger rfl (by simpa [Thread.holding, Thread.held, Thread.scan?, Scan.holding] using h0)
  · simpa only [Thread.holding_rescan] using scanStep_entries h1 (hd sc rfl)

end Threads

/-- Replacing one thread of a list replaces its part of a `flatMap`, between the parts of the
threads before and after it. -/
lemma flatMap_set_split {β : Type} (f : Thread → List β) {l : List Thread} {t : Nat} {x : Thread}
    (h : l[t]? = some x) (y : Thread) :
    l.flatMap f = (l.take t).flatMap f ++ (f x ++ (l.drop (t + 1)).flatMap f) ∧
      (l.set t y).flatMap f = (l.take t).flatMap f ++ (f y ++ (l.drop (t + 1)).flatMap f) := by
  obtain ⟨ht, rfl⟩ := List.getElem?_eq_some_iff.1 h
  constructor
  · conv_lhs => rw [← List.take_append_drop t l, List.drop_eq_getElem_cons ht]
    simp only [List.flatMap_append, List.flatMap_cons]
  · rw [List.set_eq_take_append_cons_drop, if_pos ht]
    simp only [List.flatMap_append, List.flatMap_cons]

/-- Replacing one thread of a list replaces what it holds. -/
lemma flatMap_set_perm (f : Thread → List Entry) {l : List Thread} {t : Nat} {x : Thread}
    (h : l[t]? = some x) (y : Thread) :
    ∃ R, (l.flatMap f).Perm (f x ++ R) ∧ ((l.set t y).flatMap f).Perm (f y ++ R) := by
  obtain ⟨h1, h2⟩ := flatMap_set_split f h y
  refine ⟨(l.take t).flatMap f ++ (l.drop (t + 1)).flatMap f, ?_, ?_⟩ <;> [rw [h1]; rw [h2]] <;>
    exact List.perm_iff_count.2 fun a => by simp only [List.count_append]; omega

/-- A woken worker holds nothing. -/
lemma flatMap_holding_woken {l l' : List Thread} (h : l' = l ∨ ∃ i, l' = l ++ [.loop i .init]) :
    l'.flatMap Thread.holding = l.flatMap Thread.holding := by
  rcases h with rfl | ⟨i, rfl⟩
  · rfl
  · simp [Thread.holding, Thread.held, Thread.scan?, WorkerLocals.slotEntries, WorkerLocals.init]

section System

variable {T : Tunables} {s s' : State}

/-- A step that changes no thread's holdings and no pending entry moves the shared queues only. -/
lemma EntryStep.of_pooled (h : EntryStep s s' s.pooled s'.pooled)
    (ht : s'.threads = s.threads ∨ ∃ i, s'.threads = s.threads ++ [.loop i .init])
    (hp : s'.pending = s.pending) : EntryStep s s' s.entries s'.entries := by
  unfold State.entries
  rw [flatMap_holding_woken ht, hp]
  exact (h.append _).append _

/-- Lines 109-115 move the entry `e` to `CcPostTickWorkQueue` and allocate and free nothing. -/
lemma waitInsert_ledger (e : Entry) :
    (waitInsert e s).ledger = (s.postTick ++ [e] ++ s.express ++ s.regular, s.nextEntry, s.freed) := by
  dsimp only [waitInsert]
  split_ifs
  · exact ccScheduleLazyWriteScan_ledger true
  · rfl

lemma ccWaitForCurrentLazyWriterActivity_entries :
    EntryStep s (ccWaitForCurrentLazyWriterActivity s) s.entries
      (ccWaitForCurrentLazyWriterActivity s).entries := by
  have hl := waitInsert_ledger (s := { s with nextEntry := s.nextEntry + 1 }) ⟨s.nextEntry, .eventSet⟩
  simp only [State.ledger, Prod.mk.injEq] at hl
  refine .of_pooled (.inr (.inl ⟨.eventSet, ?_, hl.2.1, hl.2.2⟩))
    (.inl (State.threads_eq_of_pool ccWaitForCurrentLazyWriterActivity_pool))
    (by simp [State.pending, ccWaitForCurrentLazyWriterActivity, ccAllocateWorkQueueEntry])
  rw [show (ccWaitForCurrentLazyWriterActivity s).pooled = _ from hl.1]
  exact List.perm_iff_count.2 fun a => by
    simp only [State.pooled, List.count_append, List.count_cons, List.count_nil]; omega

lemma ccScanDpc_entries (ok : Bool) : EntryStep s (ccScanDpc ok s) s.entries (ccScanDpc ok s).entries := by
  cases ok
  · exact .of_pooled (.same (.refl _) rfl rfl) (.inl rfl) rfl
  · obtain ⟨h1, h2, h3⟩ := ccPostWorkQueue_ledger (s := { s with timer := none, nextEntry := s.nextEntry + 1 })
      ⟨s.nextEntry, .lazyWriteScan⟩ .regular
    refine .of_pooled (.inr (.inl ⟨.lazyWriteScan, h1.trans ?_, h2, h3⟩)) (ccPostWorkQueue_threads _ _)
      (by simp [State.pending, ccScanDpc, ccAllocateWorkQueueEntry])
    exact List.perm_append_singleton _ _

/-- Lines 98-105 and 68-77: the caller or the DPC holds a fresh entry. -/
lemma waitAllocate_entries : EntryStep s (waitAllocate s) s.entries (waitAllocate s).entries := by
  refine .inr (.inl ⟨.eventSet, List.perm_iff_count.2 fun a => ?_, rfl, rfl⟩)
  simp only [waitAllocate, ccAllocateWorkQueueEntry, State.entries, State.pending, State.pooled,
    List.count_append, List.count_cons, List.count_nil]
  omega

lemma scanDpcAllocate_entries : EntryStep s (scanDpcAllocate s) s.entries (scanDpcAllocate s).entries := by
  refine .inr (.inl ⟨.lazyWriteScan, List.perm_iff_count.2 fun a => ?_, rfl, rfl⟩)
  simp only [scanDpcAllocate, ccAllocateWorkQueueEntry, State.entries, State.pending, State.pooled,
    List.count_append, List.count_cons, List.count_nil]
  omega

/-- Line 110: the caller's entry goes to `CcPostTickWorkQueue`. -/
lemma waitInsert_entries {i : Nat} {e : Entry} (he : s.callers[i]? = some e) :
    EntryStep s (waitInsert e { s with callers := s.callers.eraseIdx i }) s.entries
      (waitInsert e { s with callers := s.callers.eraseIdx i }).entries := by
  have hl := waitInsert_ledger (s := { s with callers := s.callers.eraseIdx i }) e
  simp only [State.ledger, Prod.mk.injEq] at hl
  have hc := (perm_cons_eraseIdx he).count_eq
  refine .same (List.perm_iff_count.2 fun a => ?_) hl.2.1 hl.2.2
  have := hc a
  simp only [State.entries, State.pending, State.threads_eq_of_pool (waitInsert_pool e), waitInsert_callers,
    waitInsert_dpcs]
  rw [hl.1]
  simp only [State.pooled, List.count_append, List.count_cons, List.count_nil] at this ⊢
  split_ifs at this ⊢ <;> omega

/-- Line 78: the DPC's entry goes to the regular queue. -/
lemma scanDpcPost_entries {i : Nat} {e : Entry} (he : s.dpcs[i]? = some e) :
    EntryStep s (ccPostWorkQueue e .regular { s with dpcs := s.dpcs.eraseIdx i }) s.entries
      (ccPostWorkQueue e .regular { s with dpcs := s.dpcs.eraseIdx i }).entries := by
  obtain ⟨h1, h2, h3⟩ := ccPostWorkQueue_ledger (s := { s with dpcs := s.dpcs.eraseIdx i }) e .regular
  have hc := (perm_cons_eraseIdx he).count_eq
  refine .same (List.perm_iff_count.2 fun a => ?_) h2 h3
  have h4 := h1.count_eq a
  have := hc a
  simp only [State.entries, State.pending, ccPostWorkQueue_callers, ccPostWorkQueue_dpcs,
    flatMap_holding_woken (ccPostWorkQueue_threads (s := { s with dpcs := s.dpcs.eraseIdx i }) e .regular),
    List.count_append, h4]
  simp only [State.pooled, List.count_append, List.count_cons, List.count_nil] at this ⊢
  split_ifs at this ⊢ <;> omega

lemma envStep_entries {a : EnvAction} (h : envStep a s = some s') : EntryStep s s' s.entries s'.entries := by
  cases a with
  | postReadAhead q =>
    cases h
    obtain ⟨h1, h2, h3⟩ := ccPostWorkQueue_ledger (s := { s with nextEntry := s.nextEntry + 1 })
      ⟨s.nextEntry, .readAhead⟩ q
    exact .of_pooled (.inr (.inl ⟨.readAhead, h1.trans (List.perm_append_singleton _ _), h2, h3⟩))
      (ccPostWorkQueue_threads _ _) (by simp [State.pending])
  | _ =>
    simp only [envStep] at h
    (try split_ifs at h)
    cases h
    exact .of_pooled (.same (.refl _) rfl rfl) (.inl rfl) rfl

/-- What a step of the system does to the entries: it moves them, allocates one fresh entry, or
frees one. -/
lemma Step.entries (h : Step T s s') (hd : ∀ th ∈ s.threads, ∀ sc, th.scan? = some sc → sc.DrainOk)
    (hslot : ∀ th ∈ s.threads, th.SlotFree) : EntryStep s s' s.entries s'.entries := by
  cases h with
  | run ℓ h =>
    cases ℓ with
    | schedule f =>
      obtain ⟨-, -, rfl⟩ := step_schedule h
      have hl := ccScheduleLazyWriteScan_ledger (s := s) f
      simp only [State.ledger, Prod.mk.injEq] at hl
      exact .of_pooled (.same (hl.1 ▸ .refl _) hl.2.1 hl.2.2)
        (.inl (State.threads_eq_of_pool (ccScheduleLazyWriteScan_pool f))) (by simp [State.pending])
    | wait =>
      obtain ⟨-, rfl⟩ := step_wait h
      exact ccWaitForCurrentLazyWriterActivity_entries
    | waitAllocate => obtain rfl := step_waitAllocate h; exact waitAllocate_entries
    | waitInsert i => obtain ⟨-, e, he, rfl⟩ := step_waitInsert h; exact waitInsert_entries he
    | scanDpc ok =>
      obtain ⟨-, rfl⟩ := step_scanDpc h
      exact ccScanDpc_entries ok
    | scanDpcAllocate => obtain ⟨-, rfl⟩ := step_scanDpcAllocate h; exact scanDpcAllocate_entries
    | scanDpcPost i => obtain ⟨e, he, rfl⟩ := step_scanDpcPost h; exact scanDpcPost_entries he
    | env a => exact envStep_entries h
    | thread t inp =>
      obtain ⟨th, s1, th', hth, h1, rfl⟩ := step_thread h
      have hm := List.getElem?_mem hth
      obtain ⟨R, hR, hR'⟩ := flatMap_set_perm Thread.holding hth th'
      have ht : t < s.threads.length := (List.getElem?_eq_some_iff.1 hth).1
      have hset : (s1.threads.set t th').flatMap Thread.holding = (s.threads.set t th').flatMap Thread.holding := by
        rcases threadStep_threads h1 with h2 | ⟨i, h2⟩ <;> rw [h2]
        rw [List.set_append_left _ _ ht]
        simp [Thread.holding, Thread.held, Thread.scan?, WorkerLocals.slotEntries, WorkerLocals.init]
      have hp : State.pending { s1 with threads := s1.threads.set t th' } = s.pending := by
        obtain ⟨h3, h4⟩ := threadStep_pending h1
        simp only [State.pending, h3, h4]
      have h2 := ((threadStep_entries h1 (hd th hm) (hslot th hm)).append R).append s.pending
      refine (h2.perm ?_ ?_)
      · exact (((hR.append_left s.pooled).trans (by rw [List.append_assoc])).append_right _).symm
      · show (s1.pooled ++ th'.holding ++ R ++ s.pending).Perm
          (s1.pooled ++ (s1.threads.set t th').flatMap Thread.holding ++ State.pending _)
        rw [hset, hp, List.append_assoc s1.pooled]
        exact ((hR'.append_left s1.pooled).symm).append_right _
  | insertStream => exact .same (.refl _) rfl rfl
  | removeStream => exact .same (.refl _) rfl rfl

end System

section Frees

variable {T : Tunables} {s s' s1 : State} {inp : Input}

/-- A scan frees nothing. -/
lemma scanStep_freed {sc sc' : Scan} (h : scanStep T inp s sc = some (s1, sc')) : s1.freed = s.freed := by
  have hl : ∀ {s2 s3 : State}, s2.ledger = s3.ledger → s2.freed = s3.freed := fun h =>
    congrArg (fun l => l.2.2) h
  rcases scanStep_cases h with ⟨-, -, h⟩ | ⟨-, h⟩ | ⟨-, -, h⟩ | ⟨e, -, -, h⟩ | ⟨-, -, h⟩ |
    ⟨-, h⟩ | ⟨-, h⟩ <;> rw [show s1 = _ from congrArg Prod.fst h]
  · unfold Scan.start; split_ifs <;> rfl
  · exact hl (Scan.walk_ledger _)
  · unfold Scan.allocate; split <;> rfl
  · exact (hl (Scan.advance_ledger _ _)).trans (ccPostWorkQueue_ledger e _).2.2
  · exact hl (Scan.advance_ledger _ _)
  · unfold Scan.drain; split
    · exact (ccPostWorkQueue_ledger _ _).2.2
    · rfl
  · exact hl (ccScheduleLazyWriteScan_ledger false)

/-- Only a worker frees an entry: the one it executed, after a dispatch that did not return
`CC_REQUEUE` (line 546), or its `LazyWriteScan` entry once the scan is over. -/
lemma threadStep_freed {th th' : Thread} (h : threadStep T inp s th = some (s1, th')) :
    s1.freed = s.freed ∨ ∃ item w e q, s1.freed = s.freed ++ [e.addr] ∧
      ((th = .exec item w e q ∧ ∀ S, e.work = .writeBehind S → inp.io.requeue = false) ∨
        ∃ sc, th = .scan item w e q sc ∧ sc.pc = .done) := by
  rcases threadStep_cases h with ⟨item, w, rfl, h1⟩ | ⟨item, w, e, q, rfl, -, h1⟩ |
    ⟨item, w, e, q, sc, rfl, hpc, rfl, rfl⟩ | ⟨item, w, e, q, sc, sc', rfl, h1, rfl⟩ |
    ⟨ok, rfl, rfl, rfl⟩ | ⟨sc, rfl, hpc, rfl, rfl⟩ | ⟨sc, sc', rfl, h1, rfl⟩
  · rw [show s1 = _ from congrArg Prod.fst h1]
    exact .inl ((workerTake_entries (s := (workerRequeue w s).1) item (workerRequeue w s).2
      (by simp)).2.2.trans (workerRequeue_entries w).2.2)
  · rw [show s1 = _ from congrArg Prod.fst h1]
    unfold workerDispatch
    split <;> rename_i hw
    · exact .inr ⟨item, w, e, q, rfl, .inl ⟨rfl, fun S h => by rw [hw] at h; cases h⟩⟩
    · split_ifs with hr
      · exact .inl (by simp [ccWriteBehind, hr])
      · exact .inr ⟨item, w, e, q, by simp [ccWriteBehind, hr, ccFreeWorkQueueEntry, State.updateMap],
          .inl ⟨rfl, fun _ _ => by simpa using hr⟩⟩
    · exact .inr ⟨item, w, e, q, rfl, .inl ⟨rfl, fun S h => by rw [hw] at h; cases h⟩⟩
    · exact .inl rfl
  · exact .inr ⟨item, w, e, q, rfl, .inr ⟨sc, rfl, hpc⟩⟩
  · exact .inl (scanStep_freed h1)
  · exact .inl rfl
  · exact .inl rfl
  · exact .inl (scanStep_freed h1)

lemma envStep_freed {a : EnvAction} (h : envStep a s = some s') : s'.freed = s.freed := by
  cases a with
  | postReadAhead q => cases h; exact (ccPostWorkQueue_ledger _ _).2.2
  | _ => simp only [envStep] at h; (try split_ifs at h); cases h; rfl

/-- Every step that frees an entry is a worker's step that frees the entry it executed. -/
lemma Step.freed (h : Step T s s') :
    s'.freed = s.freed ∨ ∃ t inp item w e q, step T (.thread t inp) s = some s' ∧
      s'.freed = s.freed ++ [e.addr] ∧
      ((s.threads[t]? = some (.exec item w e q) ∧ ∀ S, e.work = .writeBehind S → inp.io.requeue = false) ∨
        ∃ sc, s.threads[t]? = some (.scan item w e q sc) ∧ sc.pc = .done) := by
  cases h with
  | run ℓ h =>
    cases ℓ with
    | schedule f =>
      obtain ⟨-, -, rfl⟩ := step_schedule h
      exact .inl (congrArg (fun l => l.2.2) (ccScheduleLazyWriteScan_ledger f))
    | wait => obtain ⟨-, rfl⟩ := step_wait h; exact .inl (waitInsert_freed _ _)
    | waitAllocate => obtain rfl := step_waitAllocate h; exact .inl rfl
    | waitInsert i => obtain ⟨-, e, -, rfl⟩ := step_waitInsert h; exact .inl (waitInsert_freed _ _)
    | scanDpc ok =>
      obtain ⟨-, rfl⟩ := step_scanDpc h
      cases ok
      · exact .inl rfl
      · exact .inl (ccPostWorkQueue_ledger _ _).2.2
    | scanDpcAllocate => obtain ⟨-, rfl⟩ := step_scanDpcAllocate h; exact .inl rfl
    | scanDpcPost i => obtain ⟨e, -, rfl⟩ := step_scanDpcPost h; exact .inl (ccPostWorkQueue_ledger _ _).2.2
    | env a => exact .inl (envStep_freed h)
    | thread t inp =>
      obtain ⟨th, s1, th', hth, h1, rfl⟩ := step_thread h
      rcases threadStep_freed h1 with h2 | ⟨item, w, e, q, h2, h3⟩
      · exact .inl h2
      · refine .inr ⟨t, inp, item, w, e, q, h, h2, ?_⟩
        rcases h3 with ⟨rfl, h3⟩ | ⟨sc, rfl, h3⟩
        · exact .inl ⟨hth, h3⟩
        · exact .inr ⟨sc, hth, h3⟩
  | insertStream => exact .inl rfl
  | removeStream => exact .inl rfl

end Frees

/-- Every allocated entry that has not been freed is in exactly one place of `l`, every entry of
`l` has been allocated and not freed, and no address has been freed twice. -/
structure Allocation (l : List Entry) (n : Nat) (freed : List Nat) : Prop where
  /-- No entry is in two places. -/
  nodup : (l.map Entry.addr).Nodup
  /-- An entry in a place has been allocated and not freed. -/
  live : ∀ e ∈ l, e.addr < n ∧ e.addr ∉ freed
  /-- Only allocated entries are freed. -/
  freed_lt : ∀ a ∈ freed, a < n
  /-- No entry is freed twice. -/
  freed_nodup : freed.Nodup
  /-- An allocated entry that has not been freed is in some place. -/
  complete : ∀ a < n, a ∉ freed → a ∈ l.map Entry.addr

/-- `EntryStep` keeps the allocation invariant. -/
lemma Allocation.step {s s' : State} {A B : List Entry} (hi : Allocation A s.nextEntry s.freed)
    (h : EntryStep s s' A B) : Allocation B s'.nextEntry s'.freed := by
  rcases h with ⟨h, h1, h2⟩ | ⟨w, h, h1, h2⟩ | ⟨e, h, h1, h2⟩ <;> rw [h1, h2]
  · exact ⟨(h.map _).nodup_iff.2 hi.nodup, fun e he => hi.live e (h.mem_iff.1 he), hi.freed_lt,
      hi.freed_nodup, fun a ha hf => (h.map _).mem_iff.2 (hi.complete a ha hf)⟩
  · have hnew : s.nextEntry ∉ A.map Entry.addr := fun hm => by
      obtain ⟨e, he, he'⟩ := List.mem_map.1 hm
      have := (hi.live e he).1
      omega
    refine ⟨(h.map _).nodup_iff.2 (List.nodup_cons.2 ⟨hnew, hi.nodup⟩), fun e he => ?_,
      fun a ha => Nat.lt_succ_of_lt (hi.freed_lt a ha), hi.freed_nodup, fun a ha hf => ?_⟩
    · rcases List.mem_cons.1 (h.mem_iff.1 he) with he | he
      · rw [he]; exact ⟨Nat.lt_succ_self _, fun hf => Nat.lt_irrefl _ (hi.freed_lt _ hf)⟩
      · exact ⟨Nat.lt_succ_of_lt (hi.live e he).1, (hi.live e he).2⟩
    · refine (h.map _).mem_iff.2 ?_
      rcases Nat.lt_succ_iff_lt_or_eq.1 ha with ha | rfl
      · exact List.mem_cons_of_mem _ (hi.complete a ha hf)
      · exact List.mem_cons_self _ _
  · have hA := (h.map Entry.addr).nodup_iff.1 hi.nodup
    have he := hi.live e (h.mem_iff.2 (List.mem_cons_self _ _))
    refine ⟨(List.nodup_cons.1 hA).2, fun x hx => ⟨(hi.live x (h.mem_iff.2 (List.mem_cons_of_mem _ hx))).1,
      ?_⟩, fun a ha => ?_, ?_, fun a ha hf => ?_⟩
    · simp only [List.mem_append, List.mem_singleton, not_or]
      refine ⟨(hi.live x (h.mem_iff.2 (List.mem_cons_of_mem _ hx))).2, fun hxe => ?_⟩
      exact (List.nodup_cons.1 hA).1 (hxe ▸ List.mem_map_of_mem _ hx)
    · rcases List.mem_append.1 ha with ha | ha
      · exact hi.freed_lt a ha
      · rw [List.mem_singleton.1 ha]; exact he.1
    · exact List.nodup_append.2 ⟨hi.freed_nodup, List.nodup_singleton _,
        List.disjoint_singleton.2 he.2⟩
    · simp only [List.mem_append, List.mem_singleton, not_or] at hf
      have := (h.map Entry.addr).mem_iff.1 (hi.complete a ha hf.1)
      rcases List.mem_cons.1 this with h3 | h3
      · exact absurd h3 hf.2
      · exact h3

lemma Reachable.allocation {T : Tunables} {N : Nat} {s : State} (h : Reachable T N s) :
    Allocation s.entries s.nextEntry s.freed := by
  induction h with
  | init => exact ⟨List.nodup_nil, (fun _ h => by simp [State.entries, State.pooled, State.pending, State.init] at h),
      (fun _ h => by cases h), List.nodup_nil, (fun _ h => by cases h)⟩
  | step hr hs ih => exact ih.step (hs.entries hr.drainOk hr.slotFree)

/-- Every entry the routines allocate is, until it is freed, in exactly one of the places: the
post-tick queue, a scan's local queue, a work queue, held by one worker (executing it or in its
requeue slot), or held by the scan that allocated it and has not posted it yet; each entry is freed
at most once, and only by the worker that executed it, after a dispatch that did not return
`CC_REQUEUE` or at the end of its scan; the requeue puts the entry back at the tail of its queue. -/
theorem entries_in_one_place {T : Tunables} {N : Nat} {s : State} (hs : Reachable T N s) :
    (s.entries.map Entry.addr).Nodup ∧ (∀ e ∈ s.entries, e.addr < s.nextEntry ∧ e.addr ∉ s.freed) ∧
    (∀ a < s.nextEntry, a ∉ s.freed → a ∈ s.entries.map Entry.addr) ∧ s.freed.Nodup ∧
    (∀ s', Step T s s' → s'.freed = s.freed ∨ ∃ t inp item w e q, step T (.thread t inp) s = some s' ∧
      s'.freed = s.freed ++ [e.addr] ∧
      ((s.threads[t]? = some (.exec item w e q) ∧ ∀ S, e.work = .writeBehind S → inp.io.requeue = false) ∨
        ∃ sc, s.threads[t]? = some (.scan item w e q sc) ∧ sc.pc = .done)) ∧
    (∀ w e q, w.requeue = some (e, q) → (workerRequeue w s).1.queue q = s.queue q ++ [e]) := by
  have hi := hs.allocation
  refine ⟨hi.nodup, hi.live, hi.complete, hi.freed_nodup, fun _ h => h.freed, fun w e q h => ?_⟩
  rw [workerRequeue_queue, h]
  simp

/-- After the timer scan of `barrierStart` has posted its `WriteBehind`: its own `LazyWriteScan`
(entry 0) and the `WriteBehind` (entry 1) are the two live entries, both held by workers, and none
has been freed. -/
theorem entries_in_one_place_posted :
    barrierStart.entries = [⟨0, .lazyWriteScan⟩, ⟨1, .writeBehind 2⟩] ∧ barrierStart.nextEntry = 2 ∧
      barrierStart.freed = [] ∧ barrierStart.pooled = [] ∧
      (barrierStart.entries.map Entry.addr).Nodup ∧
      ∀ a < barrierStart.nextEntry, a ∉ barrierStart.freed → a ∈ barrierStart.entries.map Entry.addr := by
  have h := entries_in_one_place barrierStart_reachable
  exact ⟨by decide, by decide, by decide, by decide, h.1, h.2.2.1⟩

/-- The schedule of `allocated_entry_unplaced`: one dirty stream, a timer scan that pins it and
allocates its `WriteBehind` (entry 1), and stops before taking the master lock back to post it. -/
def unplacedRun : List Label :=
  [.env (.setStream 2 100 1 4096 false false false), .env (.setTotalDirtyPages 100),
    .schedule false, .scanDpc true] ++ List.replicate 5 (.thread 0 ⟨true, true, ⟨true, false, false⟩⟩)

/-- An entry allocated and not freed that is in none of the places the worker loop and the top of
the scan name: the `WriteBehind` the scan holds between lines 307 and 329. -/
theorem allocated_entry_unplaced :
    ∃ s : State, Reachable ⟨1000, false, 16⟩ 1 s ∧
      ∃ a < s.nextEntry, a ∉ s.freed ∧ a ∉ s.places.map Entry.addr := by
  obtain ⟨s, hs, h⟩ := (Reachable.init_stream ⟨1000, false, 16⟩ 1 2 (by decide)).exists_of_runAll
    unplacedRun (P := fun s => decide (∃ a < s.nextEntry, a ∉ s.freed ∧ a ∉ s.places.map Entry.addr))
    (by decide)
  exact ⟨s, hs, of_decide_eq_true h⟩

end LazyWriter
