import LazyWriter.Lock
import LazyWriter.Ownership

/-!
# The dirty list stays one ring

Scans walk the dirty list while the rest of the cache manager inserts and removes streams and
other scans move the cursor. `dirty_list_stays_one_ring` says that the list stays one well-formed
ring through the list head and the cursor, each node once, and that every scan in its walk stands
on a node of it, so that the `Flink` it follows next (line 352) is a node of the list.

Three invariants of the system carry it. `IS_CURSOR` is set on the list head and the cursor and
nowhere else (`Reachable.isCursor`): no step of a scan or of a worker touches the flag, and the rest
of the cache manager changes no cursor. The master lock is held exactly while a scan is in its walk
or its drain (`Reachable.lockInv`), so the list changes under a walking scan only by that scan's own
cursor splice. A scan that has released the lock in its walk holds `WRITE_QUEUED` of its stream
(`OwnerInv.holder`), so the rest of the cache manager does not remove that stream
(`Reachable.current_queued`).

`Step` lets the rest of the cache manager insert into any ring of `Links`, a node of the dirty list
included, which breaks the list whatever the scan does. `ListStep` is `Step` with the changes of the
rest of the cache manager made on the dirty list itself, the ring through `CcDirtySharedCacheMapList`;
its runs (`ListReachable`) are runs of `Step` (`ListReachable.reachable`), so every invariant of
`Reachable` holds along them. `ListInv` is the invariant, and `ListInv.thread` (a step of a thread,
with the one cursor splice of `scanStep_splice`), `ListInv.insert` and `ListInv.remove` keep it.
-/

namespace LazyWriter

/-- A step of the system in which the rest of the cache manager inserts a stream that is not on the
dirty list next to a node of it, and removes only a stream of it: the ring it works on runs through
`CcDirtySharedCacheMapList`. -/
inductive ListStep (T : Tunables) : State → State → Prop
  | run {s s' : State} (ℓ : Label) : step T ℓ s = some s' → ListStep T s s'
  | insertStream {s : State} (x n : Nat) (l : List Nat) :
      s.masterLock = false → s.links.Ring l → l.Nodup → ccDirtySharedCacheMapList ∈ l → n ∈ l →
      x ∉ l → (s.maps x).flags.isCursor = false →
      ListStep T s { s with links := s.links.insertTailList n x }
  | removeStream {s : State} (x : Nat) (l : List Nat) :
      s.masterLock = false → s.links.Ring l → l.Nodup → ccDirtySharedCacheMapList ∈ l → x ∈ l →
      (s.maps x).flags.isCursor = false → (s.maps x).flags.writeQueued = false →
      ListStep T s { s with links := s.links.removeEntryList x }

/-- The states a run of `ListStep` from `State.init N` reaches. -/
inductive ListReachable (T : Tunables) (N : Nat) : State → Prop
  | init : ListReachable T N (State.init N)
  | step {s s' : State} : ListReachable T N s → ListStep T s s' → ListReachable T N s'

lemma ListStep.step {T : Tunables} {s s' : State} : ListStep T s s' → Step T s s'
  | .run ℓ h => .run ℓ h
  | .insertStream x n l h1 h2 h3 _ h5 h6 h7 => .insertStream x n l h1 h2 h3 h5 h6 h7
  | .removeStream x l h1 h2 h3 _ h5 h6 h7 => .removeStream x l h1 h2 h3 h5 h6 h7

lemma ListReachable.reachable {T : Tunables} {N : Nat} {s : State} (h : ListReachable T N s) :
    Reachable T N s := by
  induction h with
  | init => exact .init
  | step _ hs ih => exact ih.step hs.step

/-- A run of labels from a state of `ListReachable` ends in one. -/
lemma ListReachable.runAll {T : Tunables} {N : Nat} {s s' : State} {ls : List Label}
    (h : ListReachable T N s) (hr : LazyWriter.runAll T ls s = some s') : ListReachable T N s' := by
  induction ls generalizing s with
  | nil => cases hr; exact h
  | cons ℓ ls ih =>
    obtain ⟨s1, h1, h2⟩ := Option.bind_eq_some.1 hr
    exact ih (h.step (.run ℓ h1)) h2

/-- `IS_CURSOR` of every node. -/
def State.cursors (s : State) (x : Nat) : Bool := (s.maps x).flags.isCursor

/-- The stream a scan stands on in its walk: from the first node of the walk to the move to the
next one, through the release of the master lock for a dispatch or for lock courtesy. -/
def Scan.current? (sc : Scan) : Option Nat :=
  match sc.pc with
  | .loop | .alloc | .posting _ | .courtesy => some sc.sharedCacheMap
  | _ => none

section Cursors

variable {T : Tunables} {s s' s1 : State} {sc sc' : Scan} {inp : Input}

lemma State.cursors_of_maps (h : s'.maps = s.maps) : s'.cursors = s.cursors := by
  unfold State.cursors; rw [h]

/-- Changing one stream in a way that keeps its `IS_CURSOR` keeps every `IS_CURSOR`. -/
lemma State.cursors_update (x : Nat) (hm : ∀ y ≠ x, s'.maps y = s.maps y)
    (hc : (s'.maps x).flags.isCursor = (s.maps x).flags.isCursor) : s'.cursors = s.cursors := by
  funext y
  by_cases hy : y = x
  · subst hy; exact hc
  · simp only [State.cursors, hm y hy]

lemma State.updateMap_cursors {x : Nat} {f : SharedCacheMap → SharedCacheMap}
    (hf : (f (s.maps x)).flags.isCursor = (s.maps x).flags.isCursor) :
    (s.updateMap x f).cursors = s.cursors :=
  State.cursors_update x (fun _ hy => Function.update_noteq hy _ _) (by simp [State.updateMap, hf])

/-- An iteration of the walk changes `LazyWritePassCount`, `PagesToWrite` and the pin of its
stream, never `IS_CURSOR`. -/
lemma Scan.walk_cursors (c : Bool) : (Scan.walk T c s sc).1.cursors = s.cursors := by
  obtain ⟨hf, -, -⟩ := eligible_flags (T := T) sc.pagesToWrite c (s.maps sc.sharedCacheMap)
  dsimp only [Scan.walk]
  split_ifs
  · rfl
  all_goals
    refine State.cursors_update sc.sharedCacheMap (fun y hy => ?_) ?_
    · simp [Function.update_noteq hy]
    · simp [SharedCacheMap.pin, hf]

lemma scanStep_cursors (h : scanStep T inp s sc = some (s1, sc')) : s1.cursors = s.cursors := by
  rcases scanStep_cases h with ⟨-, -, h⟩ | ⟨-, h⟩ | ⟨-, -, h⟩ | ⟨e, -, -, h⟩ | ⟨-, -, h⟩ |
    ⟨-, h⟩ | ⟨-, h⟩ <;> rw [show s1 = _ from congrArg Prod.fst h]
  · unfold Scan.start; split_ifs <;> rfl
  · exact Scan.walk_cursors _
  · unfold Scan.allocate; split
    · rfl
    · exact State.updateMap_cursors rfl
  · exact (State.cursors_of_maps (by simp [Scan.post])).trans
      (State.updateMap_cursors (x := sc.sharedCacheMap) (f := SharedCacheMap.unbias) rfl)
  · exact (State.cursors_of_maps (Scan.advance_maps _ _)).trans (State.updateMap_cursors rfl)
  · unfold Scan.drain; split
    · exact State.cursors_of_maps (ccPostWorkQueue_maps _ _)
    · rfl
  · exact State.cursors_of_maps (ccScheduleLazyWriteScan_maps false)

lemma threadStep_cursors {th th' : Thread} (h : threadStep T inp s th = some (s1, th')) :
    s1.cursors = s.cursors := by
  rcases threadStep_cases h with ⟨item, w, -, h1⟩ | ⟨item, w, e, q, -, -, h1⟩ | ⟨_, _, _, _, _, -, -, rfl, -⟩ |
    ⟨_, _, _, _, _, _, -, h1, -⟩ | ⟨_, -, rfl, -⟩ | ⟨_, -, -, rfl, -⟩ | ⟨_, _, -, h1, -⟩
  · rw [show s1 = _ from congrArg Prod.fst h1]; exact State.cursors_of_maps (workerTop_maps item w)
  · rw [show s1 = _ from congrArg Prod.fst h1]
    unfold workerDispatch
    split
    · rfl
    · split_ifs with hr
      · simp [ccWriteBehind, hr]
      · show (ccWriteBehind _ inp.io s).cursors = s.cursors
        rw [ccWriteBehind, if_neg hr]
        exact State.updateMap_cursors rfl
    · rfl
    · rfl
  · rfl
  · exact scanStep_cursors h1
  · rfl
  · rfl
  · exact scanStep_cursors h1

lemma ccWaitForCurrentLazyWriterActivity_maps : (ccWaitForCurrentLazyWriterActivity s).maps = s.maps :=
  waitInsert_maps _

lemma ccScanDpc_maps (ok : Bool) : (ccScanDpc ok s).maps = s.maps := by
  unfold ccScanDpc; split <;> simp [ccAllocateWorkQueueEntry]

/-- The rest of the cache manager changes only streams that are not cursors, and keeps their
`IS_CURSOR`. -/
lemma envStep_cursors {a : EnvAction} (h : envStep a s = some s') : s'.cursors = s.cursors := by
  cases a with
  | setStream x d o f mwd wft tmp =>
    simp only [envStep] at h
    split_ifs at h
    cases h
    exact State.updateMap_cursors rfl
  | postReadAhead q => cases h; exact State.cursors_of_maps (ccPostWorkQueue_maps _ _)
  | _ => simp only [envStep] at h; (try split_ifs at h); cases h; rfl

lemma Step.cursors (h : Step T s s') : s'.cursors = s.cursors := by
  cases h with
  | run ℓ h =>
    cases ℓ with
    | schedule f =>
      obtain ⟨-, -, rfl⟩ := step_schedule h
      exact State.cursors_of_maps (ccScheduleLazyWriteScan_maps f)
    | wait =>
      obtain ⟨-, rfl⟩ := step_wait h
      exact State.cursors_of_maps ccWaitForCurrentLazyWriterActivity_maps
    | waitAllocate => obtain rfl := step_waitAllocate h; rfl
    | waitInsert i => obtain ⟨-, e, -, rfl⟩ := step_waitInsert h; exact State.cursors_of_maps (waitInsert_maps e)
    | scanDpc ok =>
      obtain ⟨-, rfl⟩ := step_scanDpc h
      exact State.cursors_of_maps (ccScanDpc_maps ok)
    | scanDpcAllocate => obtain ⟨-, rfl⟩ := step_scanDpcAllocate h; rfl
    | scanDpcPost i => obtain ⟨e, -, rfl⟩ := step_scanDpcPost h; exact State.cursors_of_maps (ccPostWorkQueue_maps _ _)
    | env a => exact envStep_cursors h
    | thread t inp =>
      obtain ⟨th, s1, th', -, h1, rfl⟩ := step_thread h
      have h2 := threadStep_cursors h1
      exact h2
  | insertStream => rfl
  | removeStream => rfl

/-- `IS_CURSOR` is set on the list head and the cursor and on no other node, in every reachable
state. -/
lemma Reachable.isCursor {N : Nat} (h : Reachable T N s) (x : Nat) :
    (s.maps x).flags.isCursor = true ↔ x = ccDirtySharedCacheMapList ∨ x = ccLazyWriterCursor := by
  induction h with
  | init => simp only [State.init]; split_ifs with hx <;> simp [cursorMap, cleanMap, hx]
  | @step s s' _ hs ih =>
    show s'.cursors x = true ↔ _
    rw [congrFun hs.cursors x]
    exact ih

end Cursors

section Walkers

variable {T : Tunables} {s s1 : State} {sc sc' : Scan} {inp : Input}

lemma Scan.current?_eq {S : Nat} (h : sc.current? = some S) : S = sc.sharedCacheMap := by
  unfold Scan.current? at h
  split at h
  all_goals first | exact (Option.some.inj h).symm | cases h

/-- A scan in its walk that does not hold the master lock has its `+1` on its stream. -/
lemma Scan.bias_of_current {S : Nat} (hS : sc.current? = some S) (hl : sc.holdsLock = false) :
    sc.bias S = 1 := by
  have hS' := Scan.current?_eq hS
  subst hS'
  unfold Scan.current? at hS; unfold Scan.holdsLock at hl; unfold Scan.bias
  cases hp : sc.pc <;> simp [hp] at hS hl ⊢

/-- Only a scan in its walk changes the dirty list. -/
lemma scanStep_links (h : scanStep T inp s sc = some (s1, sc')) (hc : sc.current? = none) :
    s1.links = s.links := by
  rcases scanStep_cases h with ⟨-, -, h⟩ | ⟨hpc, -⟩ | ⟨hpc, -, -⟩ | ⟨e, hpc, -, -⟩ | ⟨hpc, -, -⟩ |
    ⟨-, h⟩ | ⟨-, h⟩
  · rw [show s1 = _ from congrArg Prod.fst h]; unfold Scan.start; split_ifs <;> rfl
  · simp [Scan.current?, hpc] at hc
  · simp [Scan.current?, hpc] at hc
  · simp [Scan.current?, hpc] at hc
  · simp [Scan.current?, hpc] at hc
  · rw [show s1 = _ from congrArg Prod.fst h]; unfold Scan.drain; split <;> simp [ccPostWorkQueue]
  · rw [show s1 = _ from congrArg Prod.fst h]; exact ccScheduleLazyWriteScan_links false

/-- Where a scan stands after a step: where it stood, on the successor of that stream, or on the
successor of the cursor, where the walk starts (lines 228 and 352). -/
lemma scanStep_current (h : scanStep T inp s sc = some (s1, sc')) {S' : Nat}
    (hc : sc'.current? = some S') :
    sc.current? = some S' ∨ (∃ S, sc.current? = some S ∧ S' = s.links.flink S) ∨
      S' = s.links.flink ccLazyWriterCursor := by
  rcases scanStep_cases h with ⟨-, -, h⟩ | ⟨hpc, h⟩ | ⟨hpc, -, h⟩ | ⟨e, hpc, -, h⟩ | ⟨hpc, -, h⟩ |
    ⟨hpc, h⟩ | ⟨hpc, h⟩ <;> rw [show sc' = _ from congrArg Prod.snd h] at hc
  · unfold Scan.start at hc
    split_ifs at hc <;> simp [Scan.current?] at hc
    exact .inr (.inr hc.symm)
  · have hcur : sc.current? = some sc.sharedCacheMap := by simp [Scan.current?, hpc]
    dsimp only [Scan.walk] at hc
    split_ifs at hc <;>
      simp [Scan.current?, Scan.moveCursor_current, Scan.advance_pc, Scan.advance_next] at hc
    · exact .inl (hc ▸ hcur)
    · exact .inl (hc ▸ hcur)
    · exact .inr (.inl ⟨_, hcur, hc.symm⟩)
  · unfold Scan.allocate at hc
    split at hc <;> simp [Scan.current?] at hc
    exact .inl (by simp [Scan.current?, hpc, hc])
  · simp [Scan.post, Scan.current?, Scan.advance_pc, Scan.advance_next, ccPostWorkQueue,
      State.updateMap] at hc
    exact .inr (.inl ⟨_, by simp [Scan.current?, hpc], hc.symm⟩)
  · simp [Scan.courtesy, Scan.current?, Scan.advance_pc, Scan.advance_next, State.updateMap] at hc
    exact .inr (.inl ⟨_, by simp [Scan.current?, hpc], hc.symm⟩)
  · unfold Scan.drain at hc; split at hc <;> simp [Scan.current?, hpc] at hc
  · simp [Scan.poke, Scan.current?] at hc

lemma ccWriteBehind_links (S : Nat) (io : IoStatus) : (ccWriteBehind S io s).links = s.links := by
  unfold ccWriteBehind; split_ifs <;> rfl

lemma workerTop_links (item : Nat) (w : WorkerLocals) : (workerTop item w s).1.links = s.links := by
  have h : (workerRequeue w s).1.links = s.links := by
    rw [workerRequeue_fst]; split
    · next q _ => cases q <;> rfl
    · rfl
  dsimp only [workerTop, workerTake, idleWorker]
  split <;> (try split_ifs) <;> simp [h]

lemma workerDispatch_links (item : Nat) (w : WorkerLocals) (e : Entry) (q : Queue) (io : IoStatus) :
    (workerDispatch item w e q io s).1.links = s.links := by
  unfold workerDispatch
  split <;> (try split_ifs) <;> simp [ccWriteBehind_links, ccFreeWorkQueueEntry]

/-- A step of a thread changes the dirty list only by a step of the scan it runs. -/
lemma threadStep_links {th th' : Thread} (h : threadStep T inp s th = some (s1, th')) :
    s1.links = s.links ∨ ∃ sc sc', th.scan? = some sc ∧ scanStep T inp s sc = some (s1, sc') := by
  rcases threadStep_cases h with ⟨item, w, -, h1⟩ | ⟨item, w, e, q, -, -, h1⟩ |
    ⟨_, _, _, _, _, -, -, rfl, -⟩ | ⟨_, _, _, _, sc, sc', rfl, h1, -⟩ | ⟨_, -, rfl, -⟩ |
    ⟨_, -, -, rfl, -⟩ | ⟨sc, sc', rfl, h1, -⟩
  · exact .inl ((congrArg (fun p => p.1.links) h1).trans (workerTop_links item w))
  · exact .inl ((congrArg (fun p => p.1.links) h1).trans (workerDispatch_links ..))
  · exact .inl rfl
  · exact .inr ⟨sc, sc', rfl, h1⟩
  · exact .inl rfl
  · exact .inl rfl
  · exact .inr ⟨sc, sc', rfl, h1⟩

lemma waitInsert_links (e : Entry) : (waitInsert e s).links = s.links := by
  dsimp only [waitInsert]
  split_ifs
  · exact ccScheduleLazyWriteScan_links true
  · rfl

lemma ccWaitForCurrentLazyWriterActivity_links :
    (ccWaitForCurrentLazyWriterActivity s).links = s.links :=
  waitInsert_links _

lemma ccScanDpc_links (ok : Bool) : (ccScanDpc ok s).links = s.links := by
  unfold ccScanDpc; split <;> simp [ccPostWorkQueue, ccAllocateWorkQueueEntry]

lemma envStep_links {a : EnvAction} {s' : State} (h : envStep a s = some s') : s'.links = s.links := by
  cases a with
  | postReadAhead q => cases h; simp [ccPostWorkQueue, ccAllocateWorkQueueEntry]
  | _ => simp only [envStep] at h; (try split_ifs at h); cases h; rfl

end Walkers

/-- The dirty list is the ring `l`: `Links` links each node of `l` once, the list head and the
cursor among them, and every scan in its walk stands on a node of `l`. -/
structure ListInv (s : State) (l : List Nat) : Prop where
  ring : s.links.Ring l
  nodup : l.Nodup
  head : ccDirtySharedCacheMapList ∈ l
  cursor : ccLazyWriterCursor ∈ l
  scans : ∀ th ∈ s.threads, ∀ sc, th.scan? = some sc → ∀ S ∈ sc.current?, S ∈ l

section Steps

variable {T : Tunables} {s s' : State} {l : List Nat}

/-- A step that leaves the dirty list alone and starts at most an idle worker keeps `ListInv`. -/
lemma ListInv.frame (hi : ListInv s l) (hL : s'.links = s.links)
    (ht : s'.threads = s.threads ∨ ∃ i, s'.threads = s.threads ++ [.loop i .init]) : ListInv s' l where
  ring := hL ▸ hi.ring
  nodup := hi.nodup
  head := hi.head
  cursor := hi.cursor
  scans th hm := by
    rcases ht with ht | ⟨i, ht⟩ <;> rw [ht] at hm
    · exact hi.scans th hm
    · rcases List.mem_append.1 hm with hm | hm
      · exact hi.scans th hm
      · rw [List.mem_singleton.1 hm]; intro sc hsc; cases hsc

/-- The step of thread `t`: its scan makes at most one cursor splice next to the stream it stands
on, which keeps a ring of the same nodes, and moves on to a node of the ring. -/
lemma ListInv.thread (hi : ListInv s l) (hb : ∀ th ∈ s.threads, ∀ sc, th.scan? = some sc → sc.BehindOk)
    {t : Nat} {th th' : Thread} {inp : Input} {s1 : State} (ht : s.threads[t]? = some th)
    (h : threadStep T inp s th = some (s1, th')) :
    ∃ l', ListInv { s1 with threads := s1.threads.set t th' } l' := by
  have hm := List.getElem?_mem ht
  have hsplice : s1.links = s.links ∨
      ∃ S ∈ l, S ≠ ccLazyWriterCursor ∧ CursorSplice s.links s1.links S := by
    rcases threadStep_links h with hL | ⟨sc, sc', hsc, h1⟩
    · exact .inl hL
    · cases hcur : sc.current? with
      | none => exact .inl (scanStep_links h1 hcur)
      | some S =>
        rcases (scanStep_splice h1 (hb th hm sc hsc)).2 with ⟨hL, -⟩ | ⟨-, -, hS, hsp⟩
        · exact .inl hL
        · refine .inr ⟨_, ?_, hS, hsp⟩
          rw [← Scan.current?_eq hcur]
          exact hi.scans th hm sc hsc S hcur
  obtain ⟨l', hr', hd', hmem, -⟩ := ring_of_splice hi.ring hi.nodup hi.cursor hsplice
  refine ⟨l', ⟨hr', hd', (hmem _).2 hi.head, (hmem _).2 hi.cursor, fun th2 hm2 sc2 hsc2 S' hS' => ?_⟩⟩
  refine (hmem _).2 ?_
  rcases List.mem_or_eq_of_mem_set hm2 with hm2 | rfl
  · -- another thread, or the worker the step wakes
    rcases threadStep_threads h with h2 | ⟨i, h2⟩ <;> rw [h2] at hm2
    · exact hi.scans th2 hm2 sc2 hsc2 S' hS'
    · rcases List.mem_append.1 hm2 with hm2 | hm2
      · exact hi.scans th2 hm2 sc2 hsc2 S' hS'
      · rw [List.mem_singleton.1 hm2] at hsc2; cases hsc2
  · -- the thread that stepped
    rcases threadStep_scan? h hsc2 with rfl | ⟨sc, hsc, h1⟩
    · cases hS'
    · rcases scanStep_current h1 hS' with hc | ⟨S, hc, rfl⟩ | rfl
      · exact hi.scans th hm sc hsc S' hc
      · exact hi.ring.flink_mem (hi.scans th hm sc hsc S hc)
      · exact hi.ring.flink_mem hi.cursor

/-- The rest of the cache manager inserts a stream that is not on the list before a node of it. -/
lemma ListInv.insert (hi : ListInv s l) {x n : Nat} {l₁ : List Nat} (hr : s.links.Ring l₁)
    (hH : ccDirtySharedCacheMapList ∈ l₁) (hn : n ∈ l₁) (hx : x ∉ l₁) :
    ∃ l', ListInv { s with links := s.links.insertTailList n x } l' := by
  have hmem := hi.ring.mem_iff hr hi.head hH
  obtain ⟨a, b, rfl⟩ := List.append_of_mem ((hmem n).2 hn)
  have hx' : x ∉ a ++ n :: b := fun h => hx ((hmem x).1 h)
  have hp : (a ++ x :: n :: b).Perm (x :: (a ++ n :: b)) := List.perm_middle
  refine ⟨a ++ x :: n :: b, hi.ring.insertTailList hi.nodup hx',
    hp.nodup_iff.2 (List.nodup_cons.2 ⟨hx', hi.nodup⟩), ?_, ?_, fun th hm sc hsc S hS => ?_⟩
  · exact hp.mem_iff.2 (List.mem_cons_of_mem _ hi.head)
  · exact hp.mem_iff.2 (List.mem_cons_of_mem _ hi.cursor)
  · exact hp.mem_iff.2 (List.mem_cons_of_mem _ (hi.scans th hm sc hsc S hS))

/-- The rest of the cache manager removes a stream of the list that is neither the list head, nor
the cursor, nor a stream a scan stands on. -/
lemma ListInv.remove (hi : ListInv s l) {x : Nat} {l₁ : List Nat} (hr : s.links.Ring l₁)
    (hH : ccDirtySharedCacheMapList ∈ l₁) (hx : x ∈ l₁) (hxH : x ≠ ccDirtySharedCacheMapList)
    (hxC : x ≠ ccLazyWriterCursor)
    (hxs : ∀ th ∈ s.threads, ∀ sc, th.scan? = some sc → ∀ S ∈ sc.current?, S ≠ x) :
    ∃ l', ListInv { s with links := s.links.removeEntryList x } l' := by
  have hx' : x ∈ l := (hi.ring.mem_iff hr hi.head hH x).2 hx
  have hmem : ∀ y, y ≠ x → y ∈ l → y ∈ l.erase x := fun y hy h => hi.nodup.mem_erase_iff.2 ⟨hy, h⟩
  refine ⟨l.erase x, hi.ring.removeEntryList hi.nodup hx' fun hl => ?_, hi.nodup.erase x,
    hmem _ (Ne.symm hxH) hi.head, hmem _ (Ne.symm hxC) hi.cursor,
    fun th hm sc hsc S hS => hmem _ (hxs th hm sc hsc S hS) (hi.scans th hm sc hsc S hS)⟩
  exact hxH (List.mem_singleton.1 (hl ▸ hi.head)).symm

end Steps

section System

variable {T : Tunables} {N : Nat} {s s' : State} {l : List Nat}

/-- A scan in its walk while the master lock is free holds `WRITE_QUEUED` of its stream: it has
released the lock for a dispatch or for lock courtesy, and its pin or its `WriteBehind` holds the
flag. -/
lemma Reachable.current_queued (h : Reachable T N s) (hl : s.masterLock = false) :
    ∀ th ∈ s.threads, ∀ sc, th.scan? = some sc → ∀ S ∈ sc.current?,
      (s.maps S).flags.writeQueued = true := by
  intro th hm sc hsc S hS
  have hfree : sc.holdsLock = false := by
    have h0 : s.threads.countP Thread.holdsLock = 0 := by rw [h.lockInv, hl]; rfl
    simpa [Thread.holdsLock, hsc] using List.countP_eq_zero.1 h0 th hm
  have hp := Scan.owns_pos_of_bias S (h.posting th hm sc hsc) (Scan.bias_of_current hS hfree)
  exact (h.ownerInv.holder hm (hp.trans_le (Thread.scan_owns_le S hsc))).1

/-- Every step of `ListStep` from a reachable state keeps the dirty list one ring. -/
lemma ListStep.listInv (hr : Reachable T N s) (hi : ListInv s l) (h : ListStep T s s') :
    ∃ l', ListInv s' l' := by
  cases h with
  | run ℓ h =>
    cases ℓ with
    | schedule f =>
      obtain ⟨-, -, rfl⟩ := step_schedule h
      exact ⟨l, hi.frame (ccScheduleLazyWriteScan_links f)
        (.inl (State.threads_eq_of_pool (ccScheduleLazyWriteScan_pool f)))⟩
    | wait =>
      obtain ⟨-, rfl⟩ := step_wait h
      exact ⟨l, hi.frame ccWaitForCurrentLazyWriterActivity_links
        (.inl (State.threads_eq_of_pool ccWaitForCurrentLazyWriterActivity_pool))⟩
    | waitAllocate => obtain rfl := step_waitAllocate h; exact ⟨l, hi.frame rfl (.inl rfl)⟩
    | waitInsert i =>
      obtain ⟨-, e, -, rfl⟩ := step_waitInsert h
      exact ⟨l, hi.frame (waitInsert_links e) (.inl (State.threads_eq_of_pool (waitInsert_pool e)))⟩
    | scanDpc ok =>
      obtain ⟨-, rfl⟩ := step_scanDpc h
      exact ⟨l, hi.frame (ccScanDpc_links ok)
        ((ccScanDpc_pool ok).elim (.inl ∘ State.threads_eq_of_pool) threads_of_pool_post)⟩
    | scanDpcAllocate => obtain ⟨-, rfl⟩ := step_scanDpcAllocate h; exact ⟨l, hi.frame rfl (.inl rfl)⟩
    | scanDpcPost i =>
      obtain ⟨e, -, rfl⟩ := step_scanDpcPost h
      exact ⟨l, hi.frame (by simp [ccPostWorkQueue]) (ccPostWorkQueue_threads _ _)⟩
    | env a =>
      exact ⟨l, hi.frame (envStep_links h)
        ((envStep_pool h).elim (.inl ∘ State.threads_eq_of_pool) fun ⟨_, h⟩ => threads_of_pool_post h)⟩
    | thread t inp =>
      obtain ⟨th, s1, th', ht, h1, rfl⟩ := step_thread h
      exact hi.thread hr.behindOk ht h1
  | insertStream x n l₁ _ hr₁ _ hH hn hx _ => exact hi.insert hr₁ hH hn hx
  | removeStream x l₁ hl hr₁ _ hH hx hc hq =>
    -- the list head and the cursor are cursors, and a stream a scan stands on is `WRITE_QUEUED`
    have hcur : ∀ y, (y = ccDirtySharedCacheMapList ∨ y = ccLazyWriterCursor) → y ≠ x :=
      fun y hy hyx => absurd ((hr.isCursor y).2 hy) (by rw [hyx, hc]; decide)
    refine hi.remove hr₁ hH hx (hcur _ (.inl rfl)).symm (hcur _ (.inr rfl)).symm
      fun th hm sc hsc S hS hSx => ?_
    have hw := hr.current_queued hl th hm sc hsc S hS
    rw [hSx, hq] at hw
    exact Bool.false_ne_true hw

lemma ListReachable.listInv (hs : ListReachable T N s) : ∃ l, ListInv s l := by
  induction hs with
  | init => exact ⟨_, State.init_ring N, by decide, by simp, by simp, by simp [State.init]⟩
  | step hr h ih =>
    obtain ⟨l, hi⟩ := ih
    exact h.listInv hr.reachable hi

/-- The dirty list stays one well-formed ring over every interleaving of scans, workers and the rest
of the cache manager inserting and removing its streams: `Links` links a list `l` of distinct nodes
in a cycle, the list head and the cursor among them, and every scan in its walk (from the first node
it visits to the move to the next, through the releases of the master lock for a dispatch or for
lock courtesy) stands on a node of `l`, so the `Flink` it follows is a node of the list. -/
theorem dirty_list_stays_one_ring (hs : ListReachable T N s) :
    ∃ l, s.links.Ring l ∧ l.Nodup ∧ ccDirtySharedCacheMapList ∈ l ∧ ccLazyWriterCursor ∈ l ∧
      ∀ th ∈ s.threads, ∀ sc, th.scan? = some sc → ∀ S ∈ sc.current?, S ∈ l := by
  obtain ⟨l, hi⟩ := hs.listInv
  exact ⟨l, hi.ring, hi.nodup, hi.head, hi.cursor, hi.scans⟩

/-- The schedule of `dirty_list_stays_one_ring_released`: stream 2 is dirty, and the timer scan takes
the tick and pins stream 2, releasing the master lock to allocate its `WriteBehind`. -/
def releaseRun : List Label :=
  [.env (.setStream 2 100 1 4096 false false false), .env (.setTotalDirtyPages 100),
    .schedule false, .scanDpc true] ++ List.replicate 4 (.thread 0 ⟨true, true, ⟨true, false, false⟩⟩)

/-- While the scan of `releaseRun` has released the master lock in its walk, the rest of the cache
manager inserts stream 3 just behind stream 2, the scan's current stream. -/
theorem dirty_list_stays_one_ring_released :
    ∃ s : State, ListReachable ⟨1000, false, 16⟩ 1 s ∧ s.masterLock = false ∧
      (s.threads.filterMap Thread.scan?).map Scan.current? = [some 2] ∧ s.links.flink 2 = 3 ∧
      ∃ l, s.links.Ring l ∧ l.Nodup ∧ ccDirtySharedCacheMapList ∈ l ∧ ccLazyWriterCursor ∈ l ∧
        ∀ th ∈ s.threads, ∀ sc, th.scan? = some sc → ∀ S ∈ sc.current?, S ∈ l := by
  have h0 : ListReachable ⟨1000, false, 16⟩ 1 { State.init 1 with
      links := (State.init 1).links.insertTailList ccDirtySharedCacheMapList 2 } :=
    .step .init (.insertStream 2 _ _ rfl (State.init_ring 1) (by decide) (by simp) (by simp) (by decide) rfl)
  have h1 : (runAll ⟨1000, false, 16⟩ releaseRun { State.init 1 with
      links := (State.init 1).links.insertTailList ccDirtySharedCacheMapList 2 }).isSome := by
    decide
  have h2 := (h0.runAll (runAll_eq_getD h1 (State.init 1))).step (.insertStream 3 ccDirtySharedCacheMapList
    [ccDirtySharedCacheMapList, ccLazyWriterCursor, 2] (by decide) (by decide) (by decide) (by simp) (by simp)
    (by decide) (by decide))
  exact ⟨_, h2, by decide, by decide, by decide, dirty_list_stays_one_ring h2⟩

end System

end LazyWriter
