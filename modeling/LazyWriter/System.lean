import LazyWriter.Worker
import LazyWriter.Ring

/-!
# The system

All actors in one step relation. A `Label` names one atomic step: an external
`CcScheduleLazyWriteScan` (made, as its contract asks, under the master lock and only while
`ScanActive` is false), a half of a call of `CcWaitForCurrentLazyWriterActivity` or of an expiry of
the scan timer (the allocation, or the queueing of the `i`-th entry held between the two), a step
of a thread, or a change made by the rest of the cache manager (`EnvAction`). `wait` and
`scanDpc true` are the two halves of a call run back to back (`step_wait_eq`, `step_scanDpc_eq`),
and `scanDpc false` is an expiry whose allocation fails. `step` runs a label and is `none` when the
step cannot run. Two more steps of the rest of the cache manager change
the dirty list: they insert a stream before a node of the list, or remove a stream that is neither a
cursor nor `WRITE_QUEUED`; their conditions speak of the abstract list, so they are constructors of
`Step` rather than labels. No step of the environment sets or clears `WRITE_QUEUED`.

`State.init N` is the state after the cache manager's initialization, which is not in the source:
the dirty list holds its head and the cursor, and `N` worker items are idle. `Reachable T N` is
every state a run from it reaches, and `runAll` runs a list of labels, so that a run of the
system can be written down and evaluated (`Reachable.runAll`).
-/

namespace LazyWriter

/-- A change made by the rest of the cache manager: the collaborators' updates of the dirty-page
count and of the deferred writes, the `OtherWork` hint, the fields of a stream other than
`WRITE_QUEUED`, `IS_CURSOR`, `PagesToWrite` and `LazyWritePassCount`, and a read-ahead request. -/
inductive EnvAction
  | setTotalDirtyPages (v : ULONG)
  | setDeferredWrites (b : Bool)
  | setOtherWork
  | setStream (x : Nat) (dirtyPages : ULONG) (openCount fileSize : Nat)
      (modifiedWriteDisabled waitingForTeardown temporaryFile : Bool)
  | postReadAhead (q : Queue)

/-- One atomic step. -/
inductive Label
  | schedule (fastScan : Bool)
  | wait
  | waitAllocate
  | waitInsert (i : Nat)
  | scanDpc (allocOk : Bool)
  | scanDpcAllocate
  | scanDpcPost (i : Nat)
  | thread (t : Nat) (inp : Input)
  | env (a : EnvAction)

/-- A stream record as the rest of the cache manager sets it. -/
def SharedCacheMap.setByOthers (m : SharedCacheMap) (dirtyPages : ULONG) (openCount fileSize : Nat)
    (modifiedWriteDisabled waitingForTeardown temporaryFile : Bool) : SharedCacheMap :=
  { m with
    dirtyPages
    openCount
    fileSize
    flags := { m.flags with modifiedWriteDisabled, waitingForTeardown, temporaryFile } }

/-- The environment steps that need no abstract list. Those that take the master lock wait for it. -/
def envStep : EnvAction → State → Option State
  | .setTotalDirtyPages v, s => if s.masterLock then none else some { s with totalDirtyPages := v }
  | .setDeferredWrites b, s => some { s with deferredWrites := b }
  | .setOtherWork, s => if s.masterLock then none else some { s with otherWork := true }
  | .setStream x d o f mwd wft tmp, s =>
    if s.masterLock || (s.maps x).flags.isCursor then none
    else some (s.updateMap x fun m => m.setByOthers d o f mwd wft tmp)
  | .postReadAhead q, s =>
    let (e, s) := ccAllocateWorkQueueEntry .readAhead s
    some (ccPostWorkQueue e q s)

/-- The step a label names, if it can run. -/
def step (T : Tunables) : Label → State → Option State
  | .schedule fast, s =>
    if s.masterLock || s.scanActive then none else some (ccScheduleLazyWriteScan fast s)
  | .wait, s => if s.masterLock then none else some (ccWaitForCurrentLazyWriterActivity s)
  | .waitAllocate, s => some (waitAllocate s)
  | .waitInsert i, s =>
    if s.masterLock then none
    else s.callers[i]?.map fun e => waitInsert e { s with callers := s.callers.eraseIdx i }
  | .scanDpc ok, s => if s.timer.isSome then some (ccScanDpc ok s) else none
  | .scanDpcAllocate, s => if s.timer.isSome then some (scanDpcAllocate s) else none
  | .scanDpcPost i, s =>
    s.dpcs[i]?.map fun e => ccPostWorkQueue e .regular { s with dpcs := s.dpcs.eraseIdx i }
  | .thread t inp, s =>
    match s.threads[t]? with
    | some th => (threadStep T inp s th).map fun (s', th') => { s' with threads := s'.threads.set t th' }
    | none => none
  | .env a, s => envStep a s

/-- One step of the system. -/
inductive Step (T : Tunables) : State → State → Prop
  | run {s s' : State} (ℓ : Label) : step T ℓ s = some s' → Step T s s'
  | insertStream {s : State} (x n : Nat) (l : List Nat) :
      s.masterLock = false → s.links.Ring l → l.Nodup → n ∈ l → x ∉ l →
      (s.maps x).flags.isCursor = false →
      Step T s { s with links := s.links.insertTailList n x }
  | removeStream {s : State} (x : Nat) (l : List Nat) :
      s.masterLock = false → s.links.Ring l → l.Nodup → x ∈ l →
      (s.maps x).flags.isCursor = false → (s.maps x).flags.writeQueued = false →
      Step T s { s with links := s.links.removeEntryList x }

/-- The links of a dirty list holding only its head and the cursor. -/
def initLinks (n : Nat) : Nat :=
  if n = ccDirtySharedCacheMapList then ccLazyWriterCursor
  else if n = ccLazyWriterCursor then ccDirtySharedCacheMapList else n

/-- The record of the list head and of the cursor: `IS_CURSOR` and nothing else. -/
def cursorMap : SharedCacheMap := ⟨⟨false, false, false, true, false⟩, 0, 0, 0, 0, 0⟩

/-- The record of a stream nobody has touched yet. -/
def cleanMap : SharedCacheMap := ⟨⟨false, false, false, false, false⟩, 0, 0, 0, 0, 0⟩

/-- Modelled from the spec: the initialization of the cache manager is not in the source. The
dirty list holds its head and the cursor, `N` worker items are idle, and every counter is zero. -/
def State.init (N : Nat) : State where
  masterLock := false
  scanActive := false
  otherWork := false
  timer := none
  totalDirtyPages := 0
  pagesWrittenLastTime := 0
  dirtyPagesLastScan := 0
  pagesYetToWrite := 0
  deferredWrites := false
  postTick := []
  links := ⟨initLinks, initLinks⟩
  maps := fun n =>
    if n = ccDirtySharedCacheMapList ∨ n = ccLazyWriterCursor then cursorMap else cleanMap
  express := []
  regular := []
  idle := List.range N
  active := 0
  throttle := false
  threads := []
  nextEntry := 0
  freed := []
  signaled := []
  callers := []
  dpcs := []

/-- Removing the last element of a list leaves the rest. -/
lemma eraseIdx_append_singleton {α : Type} (l : List α) (a : α) : (l ++ [a]).eraseIdx l.length = l := by
  simp [List.eraseIdx_eq_take_drop_succ]

/-- A call of `CcWaitForCurrentLazyWriterActivity` that no other step interrupts is its allocation
and its queueing of the entry it allocated. -/
lemma step_wait_eq (T : Tunables) (s : State) :
    step T .wait s = (step T .waitAllocate s).bind (step T (.waitInsert s.callers.length)) := by
  simp only [step]
  split_ifs <;> simp [waitAllocate, ccAllocateWorkQueueEntry, eraseIdx_append_singleton,
    ccWaitForCurrentLazyWriterActivity, *]

/-- An expiry of the scan timer whose allocation succeeds and that no other step interrupts is the
allocation and the post of the entry it allocated. -/
lemma step_scanDpc_eq (T : Tunables) (s : State) :
    step T (.scanDpc true) s = (step T .scanDpcAllocate s).bind (step T (.scanDpcPost s.dpcs.length)) := by
  simp only [step]
  split_ifs
  · simp [scanDpcAllocate, ccAllocateWorkQueueEntry, List.getElem?_append_right le_rfl,
      eraseIdx_append_singleton, ccScanDpc]
  · rfl

/-- The states a run from `State.init N` reaches. -/
inductive Reachable (T : Tunables) (N : Nat) : State → Prop
  | init : Reachable T N (State.init N)
  | step {s s' : State} : Reachable T N s → Step T s s' → Reachable T N s'

/-- Run labels one after another; `none` as soon as one of them cannot run. -/
def runAll (T : Tunables) : List Label → State → Option State
  | [], s => some s
  | ℓ :: ls, s => (step T ℓ s).bind (runAll T ls)

/-- A run of labels from a reachable state ends in a reachable state. -/
lemma Reachable.runAll {T : Tunables} {N : Nat} {s s' : State} {ls : List Label}
    (h : Reachable T N s) (hr : LazyWriter.runAll T ls s = some s') : Reachable T N s' := by
  induction ls generalizing s with
  | nil => cases hr; exact h
  | cons ℓ ls ih =>
    obtain ⟨s1, h1, h2⟩ := Option.bind_eq_some.1 hr
    exact ih (h.step (.run ℓ h1)) h2

/-- A state a run of labels reaches, when a test of it is known to pass. -/
lemma Reachable.exists_of_runAll {T : Tunables} {N : Nat} {s : State} (h : Reachable T N s)
    (ls : List Label) {P : State → Bool} (hr : (LazyWriter.runAll T ls s).any P = true) :
    ∃ s', Reachable T N s' ∧ P s' = true := by
  cases h1 : LazyWriter.runAll T ls s with
  | none => simp [h1] at hr
  | some s' => exact ⟨s', h.runAll h1, by simpa [h1] using hr⟩

/-- A run of labels that goes through, as an equation. -/
lemma runAll_eq_getD {T : Tunables} {s : State} {ls : List Label}
    (hr : (LazyWriter.runAll T ls s).isSome) (d : State) :
    LazyWriter.runAll T ls s = some ((LazyWriter.runAll T ls s).getD d) :=
  (Option.getD_of_ne_none (Option.isSome_iff_ne_none.1 hr) d).symm

/-- The state a run of labels reaches, when the run is known to go through. -/
lemma Reachable.runAll_getD {T : Tunables} {N : Nat} {s : State} {ls : List Label}
    (h : Reachable T N s) (hr : (LazyWriter.runAll T ls s).isSome) (d : State) :
    Reachable T N ((LazyWriter.runAll T ls s).getD d) :=
  h.runAll (runAll_eq_getD hr d)

/-- The dirty list of the initial state is the ring of its head and the cursor. -/
lemma State.init_ring (N : Nat) :
    (State.init N).links.Ring [ccDirtySharedCacheMapList, ccLazyWriterCursor] :=
  ⟨rfl, rfl, rfl, rfl, trivial⟩

/-- The initial state with one stream inserted in the dirty list. -/
lemma Reachable.init_stream (T : Tunables) (N x : Nat)
    (hx : x ∉ [ccDirtySharedCacheMapList, ccLazyWriterCursor]) :
    Reachable T N { State.init N with
      links := (State.init N).links.insertTailList ccDirtySharedCacheMapList x } := by
  refine .step .init (.insertStream x _ _ rfl (State.init_ring N) (by decide) (by simp) hx ?_)
  simp only [List.mem_cons, List.mem_singleton, not_or, List.not_mem_nil, or_false] at hx
  simp [State.init, hx, cleanMap]

end LazyWriter
