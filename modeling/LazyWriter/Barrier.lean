import LazyWriter.Pool
import LazyWriter.Places

/-!
# The barrier of `CcWaitForCurrentLazyWriterActivity`

`CcWaitForCurrentLazyWriterActivity` (lines 83-118) queues an `EventSet` entry `E` on
`CcPostTickWorkQueue`. The next scan takes it at its top (lines 186-190) and posts it to the tail of
the regular queue after its walk (lines 364-368), and a worker pops it only when the express queue
is empty (lines 487-493) and, through the throttle of lines 497-501, when it is the only active
worker. So when `E` is signalled, every entry that was on a work queue or executing when `E` was
queued has been freed, except a `WriteBehind` that returned `CC_REQUEUE`: the worker keeps it
(lines 520-521) and puts it back at the tail of its queue (lines 481-484), behind `E`.
`barrier_holds_without_requeue` says that the barrier is exact as long as no worker holds an entry
to re-queue (`State.Quiet`); `Requeue.lean` places the re-queued entries behind `E`.

`Moves` says what one step does to the work queues and to the entries the workers execute
(`State.running`): the queues grow at their tails, a worker pops the head of one after re-queueing
the entry of its requeue slot, a worker frees the entry it executed, or a worker keeps a
`WriteBehind` to re-queue. `threadStep_moves` proves it for a thread and `Step.moves` for the
system. `Waiting` is the invariant while `E` waits: each entry of the snapshot taken at the call is
freed, executing, on the express queue, on the regular queue before `E` (`State.ahead`), or has
escaped as a `WriteBehind` kept to re-queue. When a worker pops `E`, the express queue is empty, `E`
heads the regular queue and no other entry executes, so nothing is left ahead of `E`
(`Waiting.step`). `QuietRun.waiting` and `Run.waiting` are the run lemmas.

Only the dispatch of an `EventSet` signals, and it frees the entry it signals (`Step.signaled`), so
`event_set_once_and_freed` holds over every run: no event is set twice, and a signalled entry is in
no queue and held by no worker.
-/

namespace LazyWriter

/-- The entry a worker executes, from its pop (line 504) to its free (line 547): a `LazyWriteScan`
entry while its scan runs. -/
def Thread.executing : Thread → List Entry
  | .exec _ _ e _ | .scan _ _ e _ _ => [e]
  | _ => []

/-- The entries the workers execute. -/
def State.running (s : State) : List Entry := s.threads.flatMap Thread.executing

/-- No worker holds an entry to re-queue (lines 481-484): no `CcWriteBehind` it ran returned
`CC_REQUEUE`. -/
def State.Quiet (s : State) : Prop := ∀ th ∈ s.threads, th.slot = none

instance (s : State) : Decidable s.Quiet :=
  inferInstanceAs (Decidable (∀ th ∈ s.threads, th.slot = none))

/-- The runs from `s` through states in which no worker holds an entry to re-queue. -/
inductive QuietRun (T : Tunables) (s : State) : State → Prop
  | refl : s.Quiet → QuietRun T s s
  | tail {s₁ s₂ : State} : QuietRun T s s₁ → Step T s₁ s₂ → s₂.Quiet → QuietRun T s s₂

/-- The runs of the system from `s`. -/
inductive Run (T : Tunables) (s : State) : State → Prop
  | refl : Run T s s
  | tail {s₁ s₂ : State} : Run T s s₁ → Step T s₁ s₂ → Run T s s₂

lemma Thread.holdsItem_of_executing {th : Thread} {e : Entry} (h : e ∈ th.executing) :
    th.holdsItem = true := by
  cases th <;> simp_all [Thread.executing, Thread.holdsItem]

lemma Thread.holdsItem_of_slot {th : Thread} {p : Entry × Queue} (h : th.slot = some p) :
    th.holdsItem = true := by
  cases th <;> simp_all [Thread.slot, Thread.holdsItem]

lemma Thread.holding_of_executing {th : Thread} {e : Entry} (h : e ∈ th.executing) :
    e ∈ th.holding := by
  cases th <;> simp_all [Thread.executing, Thread.holding, Thread.held]

/-- What a step from `s` to `s'` does to the work queues, to the entries `A` executing before it and
`A'` after it, and to `freed` and `signaled`: the queues grow at their tails and nothing starts or
stops executing; a worker pops the head of the express queue, or of the regular queue when the
express queue is empty (and then, for an `EventSet`, `guard` holds), after putting the entry of its
requeue slot at a tail; a worker frees the entry it executed, signalling it if it is an `EventSet`;
or a worker keeps the entry it executed in its requeue slot (lines 520-521), and `esc` holds of it. -/
inductive Moves (s s' : State) (A A' : List Entry) (guard : Prop) (esc : Entry → Prop) : Prop
  | keep : s.express <+: s'.express → s.regular <+: s'.regular → A'.Perm A → s'.freed = s.freed →
      s'.signaled = s.signaled → Moves s s' A A' guard esc
  | popExpress (e : Entry) : s.express <+: e :: s'.express → s.regular <+: s'.regular →
      e.isEventSet = false → A'.Perm (e :: A) → s'.freed = s.freed → s'.signaled = s.signaled →
      Moves s s' A A' guard esc
  | popRegular (e : Entry) : s.express = [] → s'.express = [] → s.regular <+: e :: s'.regular →
      A'.Perm (e :: A) → s'.freed = s.freed → s'.signaled = s.signaled →
      (e.isEventSet = true → guard) → Moves s s' A A' guard esc
  | free (e : Entry) : A.Perm (e :: A') → s'.express = s.express → s'.regular = s.regular →
      s'.freed = s.freed ++ [e.addr] →
      (s'.signaled = s.signaled ∨ s'.signaled = s.signaled ++ [e.addr]) → Moves s s' A A' guard esc
  | stash (e : Entry) : A.Perm (e :: A') → s'.express = s.express → s'.regular = s.regular →
      s'.freed = s.freed → s'.signaled = s.signaled → esc e → Moves s s' A A' guard esc

section Frames

variable {T : Tunables} {s s1 : State} {sc sc' : Scan} {inp : Input}

lemma ccPostWorkQueue_prefix (e : Entry) (q : Queue) :
    s.express <+: (ccPostWorkQueue e q s).express ∧ s.regular <+: (ccPostWorkQueue e q s).regular := by
  cases q <;> simp [ccPostWorkQueue]

/-- A step that changes the pool at most by one `CcPostWorkQueue` only appends to the queues. -/
lemma queues_prefix_of_pool (h : s1.pool = s.pool ∨ ∃ e q, s1.pool = (ccPostWorkQueue e q s).pool) :
    s.express <+: s1.express ∧ s.regular <+: s1.regular := by
  rcases h with h | ⟨e, q, h⟩ <;> simp only [State.pool, Prod.mk.injEq] at h <;>
    rw [h.2.2.2.1, h.2.2.2.2.1]
  · exact ⟨List.prefix_refl _, List.prefix_refl _⟩
  · exact ccPostWorkQueue_prefix e q

@[simp] lemma ccScheduleLazyWriteScan_signaled (fast : Bool) :
    (ccScheduleLazyWriteScan fast s).signaled = s.signaled := by
  unfold ccScheduleLazyWriteScan; split_ifs <;> rfl

@[simp] lemma ccPostWorkQueue_signaled (e : Entry) (q : Queue) :
    (ccPostWorkQueue e q s).signaled = s.signaled := by
  simp [ccPostWorkQueue]

@[simp] lemma Scan.advance_signaled (s : State) (sc : Scan) :
    (Scan.advance s sc).1.signaled = s.signaled := by
  unfold Scan.advance; split <;> rfl

@[simp] lemma Scan.moveCursor_signaled (mwd : Bool) (fv : Nat) (pass amount : ULONG) :
    (Scan.moveCursor s sc mwd fv pass amount).1.signaled = s.signaled := by
  unfold Scan.moveCursor; split_ifs <;> rfl

@[simp] lemma waitInsert_signaled (e : Entry) : (waitInsert e s).signaled = s.signaled := by
  dsimp only [waitInsert]; split_ifs <;> simp

/-- Line 110: the `EventSet` goes to the tail of `CcPostTickWorkQueue`. -/
lemma waitInsert_postTick (e : Entry) : (waitInsert e s).postTick = s.postTick ++ [e] := by
  dsimp only [waitInsert]; split_ifs <;> rfl

@[simp] lemma ccWaitForCurrentLazyWriterActivity_signaled :
    (ccWaitForCurrentLazyWriterActivity s).signaled = s.signaled :=
  waitInsert_signaled _

@[simp] lemma ccWaitForCurrentLazyWriterActivity_freed :
    (ccWaitForCurrentLazyWriterActivity s).freed = s.freed :=
  waitInsert_freed _ _

lemma ccWaitForCurrentLazyWriterActivity_postTick :
    (ccWaitForCurrentLazyWriterActivity s).postTick = s.postTick ++ [⟨s.nextEntry, .eventSet⟩] :=
  waitInsert_postTick _

@[simp] lemma ccScanDpc_signaled (ok : Bool) : (ccScanDpc ok s).signaled = s.signaled := by
  cases ok <;> simp [ccScanDpc, ccAllocateWorkQueueEntry]

@[simp] lemma ccScanDpc_freed (ok : Bool) : (ccScanDpc ok s).freed = s.freed := by
  cases ok <;> simp [ccScanDpc, ccAllocateWorkQueueEntry, ccPostWorkQueue]

lemma envStep_signaled {a : EnvAction} (h : envStep a s = some s1) : s1.signaled = s.signaled := by
  cases a with
  | postReadAhead q => cases h; simp [ccAllocateWorkQueueEntry]
  | _ => simp only [envStep] at h; (try split_ifs at h); cases h; rfl

@[simp] lemma workerTake_signaled (item : Nat) (w : WorkerLocals) :
    (workerTake item w s).1.signaled = s.signaled := by
  unfold workerTake; split <;> (try split_ifs) <;> simp [idleWorker]

@[simp] lemma workerRequeue_signaled (w : WorkerLocals) : (workerRequeue w s).1.signaled = s.signaled := by
  rw [workerRequeue_fst]; split <;> simp

/-- A scan signals nothing. -/
lemma scanStep_signaled (h : scanStep T inp s sc = some (s1, sc')) : s1.signaled = s.signaled := by
  rcases scanStep_cases h with ⟨-, -, h⟩ | ⟨-, h⟩ | ⟨-, -, h⟩ | ⟨e, -, -, h⟩ | ⟨-, -, h⟩ |
    ⟨-, h⟩ | ⟨-, h⟩ <;> rw [show s1 = _ from congrArg Prod.fst h]
  · unfold Scan.start; split_ifs <;> rfl
  · dsimp only [Scan.walk]; split_ifs <;> simp
  · unfold Scan.allocate; split <;> rfl
  · simp [Scan.post, State.updateMap]
  · simp [Scan.courtesy, State.updateMap]
  · unfold Scan.drain; split <;> simp
  · simp [Scan.poke]

end Frames

section Threads

variable {T : Tunables} {s s1 : State} {inp : Input}

/-- The head of the loop puts the entry of the requeue slot, a `WriteBehind`, at the tail of its
queue (lines 481-484): the queues grow at their tails, and the express queue still holds no
`EventSet`. -/
lemma workerRequeue_queues (w : WorkerLocals) (hsl : ∀ p ∈ w.requeue, ∃ S, p.1.work = .writeBehind S)
    (hx : ∀ e ∈ s.express, e.isEventSet = false) :
    s.express <+: (workerRequeue w s).1.express ∧ s.regular <+: (workerRequeue w s).1.regular ∧
      ∀ e ∈ (workerRequeue w s).1.express, e.isEventSet = false := by
  simp only [← State.queue_express, ← State.queue_regular, workerRequeue_queue]
  rcases hw : w.requeue with _ | ⟨e, q⟩
  · exact ⟨List.prefix_refl _, List.prefix_refl _, hx⟩
  obtain ⟨S, hS⟩ := hsl (e, q) hw
  have he : e.isEventSet = false := by simp [Entry.isEventSet, show e.work = _ from hS]
  dsimp only
  refine ⟨?_, ?_, fun x hm => ?_⟩
  · split_ifs <;> simp [List.prefix_append]
  · split_ifs <;> simp [List.prefix_append]
  · split_ifs at hm
    · rcases List.mem_append.1 hm with hm | hm
      · exact hx x hm
      · rw [List.mem_singleton.1 hm]; exact he
    · exact hx x hm

/-- The entry of the requeue slot goes to the tail of its queue (lines 481-484). -/
lemma workerRequeue_requeued {w : WorkerLocals} {b : Entry} {q : Queue} (hs : w.requeue = some (b, q)) :
    (workerRequeue w s).1.queue q = s.queue q ++ [b] := by
  rw [workerRequeue_queue, hs]
  exact if_pos rfl

/-- A step of a thread: the head of its loop pops the head of a queue, the express queue first, or
leaves the loop, after re-queueing the entry of its requeue slot; its dispatch frees the entry,
signalling an `EventSet`, starts a scan on it, or keeps a `WriteBehind` that returned `CC_REQUEUE`
in its requeue slot; a scan only appends to the queues. A worker pops an `EventSet` holding its
item, executing nothing, and as the only active worker. -/
lemma threadStep_moves {th th' : Thread} (h : threadStep T inp s th = some (s1, th'))
    (hsl : ∀ p ∈ th.slot, ∃ S, p.1.work = .writeBehind S) (hx : ∀ e ∈ s.express, e.isEventSet = false) :
    Moves s s1 th.executing th'.executing
      (th.holdsItem = true ∧ th.executing = [] ∧ ¬1 < s.active ∧
        ∀ b q, th.slot = some (b, q) → b ∈ s1.regular)
      (fun e => (∃ S, e.work = .writeBehind S) ∧ ∃ q, th'.slot = some (e, q)) := by
  rcases threadStep_cases h with ⟨item, w, rfl, h1⟩ | ⟨item, w, e, q, rfl, -, h1⟩ |
    ⟨item, w, e, q, sc, rfl, -, rfl, rfl⟩ | ⟨item, w, e, q, sc, sc', rfl, h1, rfl⟩ |
    ⟨ok, rfl, rfl, rfl⟩ | ⟨sc, rfl, -, rfl, rfl⟩ | ⟨sc, sc', rfl, h1, rfl⟩
  · -- the head of the loop (lines 473-506)
    rw [show s1 = _ from congrArg Prod.fst h1, show th' = _ from congrArg Prod.snd h1]
    obtain ⟨hpx, hpr, hxe⟩ := workerRequeue_queues w hsl hx
    have hf : (workerRequeue w s).1.freed = s.freed ∧ (workerRequeue w s).1.signaled = s.signaled := by
      rw [workerRequeue_fst]; split <;> simp
    dsimp only [workerTop]
    unfold workerTake
    rcases hp : workerPick (workerRequeue w s).1 with _ | ⟨q, e, rest⟩
    · exact .keep hpx hpr (.refl _) hf.1 hf.2
    obtain ⟨hq1, hq2⟩ := workerPick_eq_some hp
    dsimp only
    split_ifs with hc
    · exact .keep hpx hpr (.refl _) hf.1 hf.2
    · cases q
      · have hq : (workerRequeue w s).1.express = e :: rest := hq1
        exact .popExpress e (hq ▸ hpx) hpr (hxe e (hq ▸ List.mem_cons_self _ _)) (.refl _) hf.1 hf.2
      · have hq : (workerRequeue w s).1.regular = e :: rest := hq1
        have he := hq2 rfl
        refine .popRegular e (List.prefix_nil.1 (he ▸ hpx)) he (hq ▸ hpr) (.refl _) hf.1 hf.2
          fun hev => ⟨rfl, rfl, by simpa [hev] using hc, fun b q' hs => ?_⟩
        -- the entry the worker re-queued went to the tail of the regular queue, behind the `EventSet`
        have hq' := workerRequeue_requeued (s := s) (show w.requeue = some (b, q') from hs)
        have hbe : b ≠ e := by
          rintro rfl
          obtain ⟨S, hS⟩ := hsl (b, q') hs
          have hw : b.work = .writeBehind S := hS
          simp [Entry.isEventSet, hw] at hev
        cases q'
        · have h2 : (workerRequeue w s).1.express = s.express ++ [b] := hq'
          rw [he] at h2; simp at h2
        · have h2 : (workerRequeue w s).1.regular = s.regular ++ [b] := hq'
          have hm : b ∈ e :: rest := hq ▸ h2 ▸ List.mem_append_right _ (List.mem_singleton_self b)
          simpa [State.setQueue, hbe] using hm
  · -- the dispatch of lines 510-547
    rw [show s1 = _ from congrArg Prod.fst h1, show th' = _ from congrArg Prod.snd h1]
    unfold workerDispatch
    split <;> rename_i hk
    · exact .free e (.refl _) rfl rfl rfl (.inl rfl)
    · split_ifs with hr
      · exact .stash e (.refl _) (by simp [ccWriteBehind, hr]) (by simp [ccWriteBehind, hr])
          (by simp [ccWriteBehind, hr]) (by simp [ccWriteBehind, hr]) ⟨⟨_, hk⟩, q, rfl⟩
      · refine .free e (.refl _) ?_ ?_ ?_ (.inl ?_) <;>
          simp [ccWriteBehind, hr, ccFreeWorkQueueEntry, State.updateMap]
    · exact .free e (.refl _) rfl rfl rfl (.inr rfl)
    · exact .keep (List.prefix_refl _) (List.prefix_refl _) (.refl _) rfl rfl
  · -- the scan is over and its `LazyWriteScan` entry is freed
    exact .free e (.refl _) rfl rfl rfl (.inl rfl)
  · obtain ⟨h2, h3⟩ := queues_prefix_of_pool (scanStep_pool h1 |>.imp_right fun ⟨e, q, h, _⟩ => ⟨e, q, h⟩)
    exact .keep h2 h3 (.refl _) (scanStep_freed h1) (scanStep_signaled h1)
  · exact .keep (List.prefix_refl _) (List.prefix_refl _) (by unfold workerExit; split_ifs <;> rfl)
      rfl rfl
  · exact .keep (List.prefix_refl _) (List.prefix_refl _) (.refl _) rfl rfl
  · obtain ⟨h2, h3⟩ := queues_prefix_of_pool (scanStep_pool h1 |>.imp_right fun ⟨e, q, h, _⟩ => ⟨e, q, h⟩)
    exact .keep h2 h3 (.refl _) (scanStep_freed h1) (scanStep_signaled h1)

/-- Only the dispatch of an `EventSet` signals, and it frees the entry it signals (lines 526-531
and 547). -/
lemma threadStep_signaled {th th' : Thread} (h : threadStep T inp s th = some (s1, th')) :
    s1.signaled = s.signaled ∨ ∃ a, s1.signaled = s.signaled ++ [a] ∧ s1.freed = s.freed ++ [a] := by
  rcases threadStep_cases h with ⟨item, w, rfl, h1⟩ | ⟨item, w, e, q, rfl, -, h1⟩ |
    ⟨item, w, e, q, sc, rfl, -, rfl, rfl⟩ | ⟨item, w, e, q, sc, sc', rfl, h1, rfl⟩ |
    ⟨ok, rfl, rfl, rfl⟩ | ⟨sc, rfl, -, rfl, rfl⟩ | ⟨sc, sc', rfl, h1, rfl⟩
  · rw [show s1 = _ from congrArg Prod.fst h1]; exact .inl (by simp [workerTop])
  · rw [show s1 = _ from congrArg Prod.fst h1]
    unfold workerDispatch
    split
    · exact .inl rfl
    · split_ifs <;> exact .inl (by simp [ccWriteBehind, ccFreeWorkQueueEntry, State.updateMap, *])
    · exact .inr ⟨e.addr, rfl, rfl⟩
    · exact .inl rfl
  · exact .inl rfl
  · exact .inl (scanStep_signaled h1)
  · exact .inl rfl
  · exact .inl rfl
  · exact .inl (scanStep_signaled h1)

end Threads

section System

variable {T : Tunables} {N : Nat} {s s' : State}

/-- A step signals at most one entry, and frees it. -/
lemma Step.signaled (h : Step T s s') :
    s'.signaled = s.signaled ∨ ∃ a, s'.signaled = s.signaled ++ [a] ∧ s'.freed = s.freed ++ [a] := by
  cases h with
  | run ℓ h =>
    cases ℓ with
    | schedule f => obtain ⟨-, -, rfl⟩ := step_schedule h; exact .inl (by simp)
    | wait => obtain ⟨-, rfl⟩ := step_wait h; exact .inl (by simp)
    | scanDpc ok => obtain ⟨-, rfl⟩ := step_scanDpc h; exact .inl (by simp)
    | waitAllocate => obtain rfl := step_waitAllocate h; exact .inl rfl
    | waitInsert i => obtain ⟨-, e, -, rfl⟩ := step_waitInsert h; exact .inl (by simp)
    | scanDpcAllocate => obtain ⟨-, rfl⟩ := step_scanDpcAllocate h; exact .inl rfl
    | scanDpcPost i => obtain ⟨e, -, rfl⟩ := step_scanDpcPost h; exact .inl (by simp)
    | env a => exact .inl (envStep_signaled h)
    | thread t inp =>
      obtain ⟨th, s1, th', -, h1, rfl⟩ := step_thread h
      have h2 := threadStep_signaled h1
      exact h2
  | insertStream => exact .inl rfl
  | removeStream => exact .inl rfl

lemma Step.freed_prefix (h : Step T s s') : s.freed <+: s'.freed := by
  rcases h.freed with h | ⟨-, -, -, -, e, -, -, h, -⟩ <;> rw [h]
  exact List.prefix_append _ _

/-- Every signalled entry has been freed. -/
lemma Reachable.signaled_freed (h : Reachable T N s) : ∀ a ∈ s.signaled, a ∈ s.freed := by
  induction h with
  | init => simp [State.init]
  | step _ hs ih =>
    intro a ha
    rcases hs.signaled with h1 | ⟨b, h1, h2⟩ <;> rw [h1] at ha
    · exact hs.freed_prefix.subset (ih a ha)
    · rw [h2]
      exact (List.mem_append.1 ha).elim (fun ha => List.mem_append_left _ (ih a ha))
        (List.mem_append_right _)

/-- No entry is signalled twice: it is freed as it is signalled, and no entry is freed twice. -/
lemma Reachable.signaled_nodup (h : Reachable T N s) : s.signaled.Nodup := by
  induction h with
  | init => exact List.nodup_nil
  | step hr hs ih =>
    rcases hs.signaled with h1 | ⟨a, h1, h2⟩ <;> rw [h1]
    · exact ih
    · have hf := (hr.step hs).allocation.freed_nodup
      rw [h2, List.nodup_append] at hf
      exact List.nodup_append.2 ⟨ih, List.nodup_singleton a,
        List.disjoint_singleton.2 fun ha => List.disjoint_singleton.1 hf.2.2 (hr.signaled_freed a ha)⟩

lemma State.mem_entries_of_running {e : Entry} (h : e ∈ s.running) : e ∈ s.entries := by
  obtain ⟨th, ht, he⟩ := List.mem_flatMap.1 h
  exact List.mem_append_left _ (List.mem_append_right _ (List.mem_flatMap.2 ⟨th, ht, Thread.holding_of_executing he⟩))

/-- A worker that holds its item and executes nothing, as the only active worker: no entry is
executing. -/
lemma PoolInv.running_eq_nil (hp : PoolInv N s) {t : Nat} {th : Thread} (ht : s.threads[t]? = some th)
    (hh : th.holdsItem = true) (he : th.executing = []) (ha : ¬1 < s.active) : s.running = [] := by
  refine List.eq_nil_iff_forall_not_mem.2 fun e hm => ?_
  obtain ⟨th2, hm2, he2⟩ := List.mem_flatMap.1 hm
  obtain ⟨u, hu⟩ := List.mem_iff_getElem?.1 hm2
  have htu : t ≠ u := by rintro rfl; rw [ht] at hu; cases hu; simp [he] at he2
  have := two_le_countP ht hu htu hh (Thread.holdsItem_of_executing he2)
  rw [hp.active_eq] at ha; omega

lemma flatMap_executing_woken {l l' : List Thread} (h : l' = l ∨ ∃ i, l' = l ++ [.loop i .init]) :
    l'.flatMap Thread.executing = l.flatMap Thread.executing := by
  rcases h with rfl | ⟨i, rfl⟩ <;> simp [Thread.executing]

/-- A step that changes the pool at most by one `CcPostWorkQueue`, and frees and signals nothing. -/
lemma Moves.frame {g : Prop} {c : Entry → Prop}
    (hp : s'.pool = s.pool ∨ ∃ e q, s'.pool = (ccPostWorkQueue e q s).pool)
    (hf : s'.freed = s.freed) (hs : s'.signaled = s.signaled) : Moves s s' s.running s'.running g c := by
  obtain ⟨h1, h2⟩ := queues_prefix_of_pool hp
  refine .keep h1 h2 ?_ hf hs
  rw [State.running, State.running, flatMap_executing_woken
    (hp.elim (fun h => .inl (State.threads_eq_of_pool h)) fun ⟨_, _, h⟩ => threads_of_pool_post h)]

/-- The moves of a thread are the system's, the other threads executing `R`. -/
lemma Moves.lift {s1 : State} {A A' C C' R : List Entry} {g g' : Prop} {c c' : Entry → Prop}
    {l : List Thread} (h : Moves s s1 A A' g c) (hC : C.Perm (A ++ R)) (hC' : C'.Perm (A' ++ R))
    (hg : g → g') (hc : ∀ e, c e → c' e) : Moves s { s1 with threads := l } C C' g' c' := by
  cases h with
  | keep h1 h2 h3 h4 h5 => exact .keep h1 h2 (hC'.trans ((h3.append_right R).trans hC.symm)) h4 h5
  | popExpress e h1 h2 h3 h4 h5 h6 =>
    exact .popExpress e h1 h2 h3 (hC'.trans ((h4.append_right R).trans (hC.symm.cons e))) h5 h6
  | popRegular e h1 h2 h3 h4 h5 h6 h7 =>
    exact .popRegular e h1 h2 h3 (hC'.trans ((h4.append_right R).trans (hC.symm.cons e))) h5 h6
      (hg ∘ h7)
  | free e h1 h2 h3 h4 h5 =>
    exact .free e (hC.trans ((h1.append_right R).trans (hC'.symm.cons e))) h2 h3 h4 h5
  | stash e h1 h2 h3 h4 h5 h6 =>
    exact .stash e (hC.trans ((h1.append_right R).trans (hC'.symm.cons e))) h2 h3 h4 h5 (hc e h6)

/-- `Moves` for a step of the system: a worker pops an `EventSet` only when no entry is executing,
and an entry that a worker keeps to re-queue is a `WriteBehind`, in a requeue slot after the step. -/
lemma Step.moves (hr : Reachable T N s) (hN : 0 < N) (h : Step T s s') :
    Moves s s' s.running s'.running
      (s.running = [] ∧ ∀ th ∈ s.threads, ∀ b q, th.slot = some (b, q) → b ∈ s'.regular)
      (fun e => (∃ S, e.work = .writeBehind S) ∧ ¬s'.Quiet) := by
  cases h with
  | run ℓ h =>
    cases ℓ with
    | schedule f =>
      obtain ⟨-, -, rfl⟩ := step_schedule h
      exact .frame (.inl (ccScheduleLazyWriteScan_pool f))
        (congrArg (fun l => l.2.2) (ccScheduleLazyWriteScan_ledger f)) (by simp)
    | wait =>
      obtain ⟨-, rfl⟩ := step_wait h
      exact .frame (.inl ccWaitForCurrentLazyWriterActivity_pool) (by simp) (by simp)
    | scanDpc ok =>
      obtain ⟨-, rfl⟩ := step_scanDpc h
      exact .frame ((ccScanDpc_pool ok).imp_right fun h => ⟨_, _, h⟩) (by simp) (by simp)
    | waitAllocate => obtain rfl := step_waitAllocate h; exact .frame (.inl rfl) rfl rfl
    | waitInsert i =>
      obtain ⟨-, e, -, rfl⟩ := step_waitInsert h
      exact .frame (.inl (waitInsert_pool e)) (waitInsert_freed _ _) (by simp)
    | scanDpcAllocate => obtain ⟨-, rfl⟩ := step_scanDpcAllocate h; exact .frame (.inl rfl) rfl rfl
    | scanDpcPost i =>
      obtain ⟨e, -, rfl⟩ := step_scanDpcPost h
      exact .frame (.inr ⟨e, _, scanDpcPost_pool e i⟩) (by simp [ccPostWorkQueue]) (by simp)
    | env a =>
      exact .frame ((envStep_pool h).imp_right fun ⟨q, h⟩ => ⟨_, q, h⟩) (envStep_freed h)
        (envStep_signaled h)
    | thread t inp =>
      obtain ⟨th, s1, th', ht, h1, rfl⟩ := step_thread h
      have hp := hr.pool hN
      obtain ⟨R, hR, hR'⟩ := flatMap_set_perm Thread.executing ht th'
      have hset := threadStep_set h1 ht
      have hm : th' ∈ s1.threads.set t th' := by
        rcases hset with h2 | ⟨i, h2⟩ <;> rw [h2]
        · exact mem_set_self ht
        · exact List.mem_append_left _ (mem_set_self ht)
      refine (threadStep_moves h1 (hr.slots th (List.getElem?_mem ht)) hp.express_events).lift hR ?_
        (fun ⟨hh, he, ha, hsl⟩ => ⟨hp.running_eq_nil ht hh he ha, fun th₂ hm₂ b q hs₂ => ?_⟩)
        fun e ⟨hw, q, hq⟩ => ⟨hw, fun hq' => by simp [hq' th' hm] at hq⟩
      · rw [State.running, flatMap_executing_woken hset]
        exact hR'
      · -- a requeue slot belongs to a worker holding its item, and only the popping worker holds one
        obtain ⟨u, hu⟩ := List.mem_iff_getElem?.1 hm₂
        by_cases htu : t = u
        · subst htu
          rw [ht] at hu; cases hu
          exact hsl b q hs₂
        · have h2 := two_le_countP (p := Thread.holdsItem) ht hu htu hh (Thread.holdsItem_of_slot hs₂)
          rw [← hp.active_eq] at h2; omega
  | insertStream => exact .keep (List.prefix_refl _) (List.prefix_refl _) (.refl _) rfl rfl
  | removeStream => exact .keep (List.prefix_refl _) (List.prefix_refl _) (.refl _) rfl rfl

end System

section Waiting

variable {T : Tunables} {N : Nat} {s s' : State} {E : Entry} {B : List Entry}

lemma IsPrefix.takeWhile {α : Type} (p : α → Bool) {l l' : List α} (h : l <+: l') :
    l.takeWhile p <+: l'.takeWhile p := by
  obtain ⟨r, rfl⟩ := h
  induction l with
  | nil => exact List.nil_prefix
  | cons x l ih => by_cases hx : p x <;> simp [List.takeWhile_cons, hx, ih]

/-- An entry stays allocated through a step that does not free it. -/
lemma EntryStep.mem {A A' : List Entry} (h : EntryStep s s' A A') (hE : E ∈ A)
    (hf : E.addr ∉ s'.freed) : E ∈ A' := by
  rcases h with ⟨h, -, -⟩ | ⟨w, h, -, -⟩ | ⟨e, h, -, h2⟩
  · exact h.mem_iff.2 hE
  · exact h.mem_iff.2 (List.mem_cons_of_mem _ hE)
  · rcases List.mem_cons.1 (h.mem_iff.1 hE) with rfl | hB
    · exact absurd (h2 ▸ List.mem_append_right _ (List.mem_singleton_self _)) hf
    · exact hB

/-- The entries ahead of `E`: on the express queue, on the regular queue before `E`, or executing. -/
def State.ahead (E : Entry) (s : State) : List Entry :=
  s.express ++ s.regular.takeWhile (· != E) ++ s.running

/-- The invariant while the `EventSet` `E` waits, for the entries `B` that were queued or executing
when it was queued: `E` is allocated, not executing and not signalled, and each entry of `B` has been
freed, is ahead of `E`, or satisfies `esc` (it has escaped the barrier). -/
structure Waiting (E : Entry) (B : List Entry) (esc : Entry → Prop) (s : State) : Prop where
  live : E ∈ s.entries
  idle : E ∉ s.running
  unsignaled : E.addr ∉ s.signaled
  ahead : ∀ b ∈ B, b.addr ∈ s.freed ∨ b ∈ s.ahead E ∨ esc b

/-- `Waiting` holds once `CcWaitForCurrentLazyWriterActivity` has queued its `EventSet`, for the
entries on the work queues or executing at the call: the new entry is behind all of them. -/
lemma Waiting.init (hr : Reachable T N s) (esc : Entry → Prop) :
    Waiting ⟨s.nextEntry, .eventSet⟩ (s.express ++ s.regular ++ s.running) esc
      (ccWaitForCurrentLazyWriterActivity s) := by
  have ha := hr.allocation
  have hpool := ccWaitForCurrentLazyWriterActivity_pool (s := s)
  simp only [State.pool, Prod.mk.injEq] at hpool
  obtain ⟨-, -, hth, hx, hreg, -⟩ := hpool
  have hrun : (ccWaitForCurrentLazyWriterActivity s).running = s.running := by
    rw [State.running, hth]; rfl
  have hfresh : ∀ e ∈ s.entries, e ≠ ⟨s.nextEntry, .eventSet⟩ := fun e he h =>
    Nat.lt_irrefl _ (h ▸ (ha.live e he).1)
  refine ⟨by simp [State.entries, State.pooled, ccWaitForCurrentLazyWriterActivity_postTick],
    hrun ▸ fun hm => hfresh _ (State.mem_entries_of_running hm) rfl, ?_, fun b hb => .inr (.inl ?_)⟩
  · rw [ccWaitForCurrentLazyWriterActivity_signaled]
    exact fun hm => Nat.lt_irrefl _ (ha.freed_lt _ (hr.signaled_freed _ hm))
  · rwa [State.ahead, hx, hreg, hrun, List.takeWhile_eq_self_iff.2 fun x hx =>
      bne_iff_ne.2 (hfresh x (by simp [State.entries, State.pooled, hx]))]

/-- One step keeps `Waiting`, unless a worker pops `E`: then the express queue is empty, `E` heads the
regular queue and nothing executes, so every entry of `B` has been freed or has escaped, and `E`
executes. An entry
escapes only as a `WriteBehind` kept to re-queue, which `hesc` makes `esc` hold of. -/
lemma Waiting.step {esc : Entry → Prop} (hr : Reachable T N s) (hN : 0 < N) (hE : E.isEventSet = true)
    (hw : Waiting E B esc s) (h : Step T s s')
    (hesc : ∀ e, (∃ S, e.work = .writeBehind S) → ¬s'.Quiet → esc e) :
    (E ∈ s'.running ∧ ∀ b ∈ B, b.addr ∈ s'.freed ∨ esc b) ∨ Waiting E B esc s' := by
  have ha := hr.allocation
  have hent := h.entries hr.drainOk hr.slotFree
  have hEf := (ha.live E hw.live).2
  cases h.moves hr hN with
  | keep h1 h2 h3 h4 h5 =>
    refine .inr ⟨hent.mem hw.live (h4 ▸ hEf), fun hm => hw.idle (h3.mem_iff.1 hm), h5 ▸ hw.unsignaled,
      fun b hb => (hw.ahead b hb).imp (h4 ▸ ·) (Or.imp_left fun hm => ?_)⟩
    simp only [State.ahead, List.mem_append] at hm ⊢
    rcases hm with (hm | hm) | hm
    · exact .inl (.inl (h1.subset hm))
    · exact .inl (.inr ((IsPrefix.takeWhile _ h2).subset hm))
    · exact .inr (h3.mem_iff.2 hm)
  | popExpress e h1 h2 h3 h4 h5 h6 =>
    have hne : E ≠ e := fun heq => by rw [← heq, hE] at h3; cases h3
    refine .inr ⟨hent.mem hw.live (h5 ▸ hEf), fun hm => ?_, h6 ▸ hw.unsignaled,
      fun b hb => (hw.ahead b hb).imp (h5 ▸ ·) (Or.imp_left fun hm => ?_)⟩
    · rcases List.mem_cons.1 (h4.mem_iff.1 hm) with h7 | h7
      · exact hne h7
      · exact hw.idle h7
    · simp only [State.ahead, List.mem_append] at hm ⊢
      rcases hm with (hm | hm) | hm
      · rcases List.mem_cons.1 (h1.subset hm) with rfl | hm
        · exact .inr (h4.mem_iff.2 (List.mem_cons_self _ _))
        · exact .inl (.inl hm)
      · exact .inl (.inr ((IsPrefix.takeWhile _ h2).subset hm))
      · exact .inr (h4.mem_iff.2 (List.mem_cons_of_mem _ hm))
  | popRegular e h1 h2 h3 h4 h5 h6 h7 =>
    have hpre := IsPrefix.takeWhile (· != E) h3
    by_cases heq : e = E
    · subst heq
      have hnil : s.ahead e = [] := by
        simpa [State.ahead, h1, (h7 hE).1, List.takeWhile_cons] using hpre
      refine .inl ⟨h4.mem_iff.2 (List.mem_cons_self _ _), fun b hb => ?_⟩
      rcases hw.ahead b hb with hf | hm | hc
      · exact .inl (h5 ▸ hf)
      · rw [hnil] at hm; exact absurd hm (List.not_mem_nil _)
      · exact .inr hc
    refine .inr ⟨hent.mem hw.live (h5 ▸ hEf), fun hm => ?_, h6 ▸ hw.unsignaled,
      fun b hb => (hw.ahead b hb).imp (h5 ▸ ·) (Or.imp_left fun hm => ?_)⟩
    · rcases List.mem_cons.1 (h4.mem_iff.1 hm) with h8 | h8
      · exact heq h8.symm
      · exact hw.idle h8
    · rw [List.takeWhile_cons, if_pos (bne_iff_ne.2 heq)] at hpre
      simp only [State.ahead, List.mem_append, h1, h2] at hm ⊢
      rcases hm with (hm | hm) | hm
      · exact absurd hm (List.not_mem_nil _)
      · rcases List.mem_cons.1 (hpre.subset hm) with rfl | hm
        · exact .inr (h4.mem_iff.2 (List.mem_cons_self _ _))
        · exact .inl (.inr hm)
      · exact .inr (h4.mem_iff.2 (List.mem_cons_of_mem _ hm))
  | free e h1 h2 h3 h4 h5 =>
    have he : e ∈ s.running := h1.mem_iff.2 (List.mem_cons_self _ _)
    have hne : e.addr ≠ E.addr := fun heq => hw.idle <|
      (List.inj_on_of_nodup_map ha.nodup (State.mem_entries_of_running he) hw.live heq) ▸ he
    have hEf' : E.addr ∉ s'.freed := by
      rw [h4]; simp only [List.mem_append, List.mem_singleton, not_or]; exact ⟨hEf, hne.symm⟩
    refine .inr ⟨hent.mem hw.live hEf', fun hm => hw.idle (h1.mem_iff.2 (List.mem_cons_of_mem _ hm)), ?_,
      fun b hb => ?_⟩
    · rcases h5 with h5 | h5 <;> rw [h5]
      · exact hw.unsignaled
      · simp only [List.mem_append, List.mem_singleton, not_or]; exact ⟨hw.unsignaled, hne.symm⟩
    · rcases hw.ahead b hb with hf | hm | hc
      · exact .inl (h4 ▸ List.mem_append_left _ hf)
      · simp only [State.ahead, List.mem_append, h2, h3] at hm ⊢
        rcases hm with hm | hm
        · exact .inr (.inl (.inl hm))
        rcases List.mem_cons.1 (h1.mem_iff.1 hm) with rfl | hm
        · exact .inl (h4 ▸ List.mem_append_right _ (List.mem_singleton_self _))
        · exact .inr (.inl (.inr hm))
      · exact .inr (.inr hc)
  | stash e h1 h2 h3 h4 h5 h6 =>
    refine .inr ⟨hent.mem hw.live (h4 ▸ hEf), fun hm => hw.idle (h1.mem_iff.2 (List.mem_cons_of_mem _ hm)),
      h5 ▸ hw.unsignaled, fun b hb => ?_⟩
    rcases hw.ahead b hb with hf | hm | hc
    · exact .inl (h4 ▸ hf)
    · simp only [State.ahead, List.mem_append, h2, h3] at hm ⊢
      rcases hm with hm | hm
      · exact .inr (.inl (.inl hm))
      rcases List.mem_cons.1 (h1.mem_iff.1 hm) with rfl | hm
      · exact .inr (.inr (hesc b h6.1 h6.2))
      · exact .inr (.inl (.inr hm))
    · exact .inr (.inr hc)

/-- Run labels one after another through states that satisfy `P`; `none` as soon as one of them
cannot run or leaves a state that fails `P`. -/
def runWhile (T : Tunables) (P : State → Bool) : List Label → State → Option State
  | [], s => some s
  | ℓ :: ls, s => (step T ℓ s).bind fun s' => if P s' then runWhile T P ls s' else none

/-- A property that every step into a state satisfying `P` keeps holds after `runWhile`. -/
lemma runWhile_induction {P : State → Bool} {R : State → Prop} {ls : List Label}
    (hstep : ∀ {s s'}, R s → Step T s s' → P s' = true → R s') (h0 : R s)
    (h : runWhile T P ls s = some s') : R s' := by
  induction ls generalizing s with
  | nil => cases h; exact h0
  | cons ℓ ls ih =>
    obtain ⟨s₂, h1, h2⟩ := Option.bind_eq_some.1 h
    split_ifs at h2 with hq
    exact ih (hstep h0 (.run ℓ h1) hq) h2

lemma QuietRun.of_runWhile {s₀ : State} {ls : List Label} (h0 : QuietRun T s₀ s)
    (h : runWhile T (fun s => decide s.Quiet) ls s = some s') : QuietRun T s₀ s' :=
  runWhile_induction (fun h1 h2 h3 => h1.tail h2 (of_decide_eq_true h3)) h0 h

lemma Run.of_runWhile {s₀ : State} {ls : List Label} (h0 : Run T s₀ s)
    (h : runWhile T (fun _ => true) ls s = some s') : Run T s₀ s' :=
  runWhile_induction (fun h1 h2 _ => h1.tail h2) h0 h

lemma QuietRun.quiet {s₁ : State} (h : QuietRun T s₁ s') : s'.Quiet := by
  cases h with
  | refl hq => exact hq
  | tail _ _ hq => exact hq

/-- Along a quiet run from a reachable state, `Waiting` holds until every entry of `B` is freed:
no entry escapes, since no worker keeps one to re-queue. -/
lemma QuietRun.waiting (hN : 0 < N) (hE : E.isEventSet = true) (hr : Reachable T N s) {s₁ : State}
    (hrun : QuietRun T s s₁) (hw : Waiting E B (fun _ => False) s) :
    Reachable T N s₁ ∧ ((∀ b ∈ B, b.addr ∈ s₁.freed) ∨ Waiting E B (fun _ => False) s₁) := by
  induction hrun with
  | refl _ => exact ⟨hr, .inr hw⟩
  | tail hrun h hq ih =>
    obtain ⟨hr1, hb | hw1⟩ := ih
    · exact ⟨hr1.step h, .inl fun b hb' => h.freed_prefix.subset (hb b hb')⟩
    · refine ⟨hr1.step h, ?_⟩
      rcases hw1.step hr1 hN hE h fun _ _ hnq => hnq hq with hb | hw2
      · exact .inl fun b hb' => (hb.2 b hb').resolve_right id
      · exact .inr hw2

/-- Along any run from a reachable state, `Waiting` holds until every entry of `B` is freed or is a
`WriteBehind`. -/
lemma Run.waiting (hN : 0 < N) (hE : E.isEventSet = true) (hr : Reachable T N s) {s₁ : State}
    (hrun : Run T s s₁) (hw : Waiting E B (fun e => ∃ S, e.work = .writeBehind S) s) :
    Reachable T N s₁ ∧ ((∀ b ∈ B, b.addr ∈ s₁.freed ∨ ∃ S, b.work = .writeBehind S) ∨
      Waiting E B (fun e => ∃ S, e.work = .writeBehind S) s₁) := by
  induction hrun with
  | refl => exact ⟨hr, .inr hw⟩
  | tail _ h ih =>
    obtain ⟨hr1, hb | hw1⟩ := ih
    · exact ⟨hr1.step h, .inl fun b hb' => (hb b hb').imp_left (h.freed_prefix.subset ·)⟩
    · exact ⟨hr1.step h, (hw1.step hr1 hN hE h fun _ he _ => he).imp_left And.right⟩

end Waiting

/-- `KeSetEvent` runs at most once for an `EventSet` entry, in the step that frees the entry
(lines 526-528 and 547): no address is signalled twice, and a signalled entry has been freed and is
in no queue and held by no thread. So the event on the stack of a caller of
`CcWaitForCurrentLazyWriterActivity` is not touched again once its wait can return. -/
theorem event_set_once_and_freed {T : Tunables} {N : Nat} {s : State} (hs : Reachable T N s) :
    s.signaled.Nodup ∧ ∀ a ∈ s.signaled, a ∈ s.freed ∧ a ∉ s.entries.map Entry.addr :=
  ⟨hs.signaled_nodup, fun a ha => ⟨hs.signaled_freed a ha, fun hm => by
    obtain ⟨e, he, rfl⟩ := List.mem_map.1 hm
    exact (hs.allocation.live e he).2 (hs.signaled_freed _ ha)⟩⟩

/-- A waiter alone with one worker item: the call, the expiry of the timer, and thread 0 running
the scan that moves the `EventSet` (entry 0) to the regular queue, freeing the `LazyWriteScan` entry
and signalling the `EventSet`. -/
theorem event_set_once_and_freed_run :
    ∃ s, Reachable ⟨1000, false, 16⟩ 1 s ∧ s.signaled = [0] ∧ s.signaled.Nodup ∧
      ∀ a ∈ s.signaled, a ∈ s.freed ∧ a ∉ s.entries.map Entry.addr := by
  have h1 : (runAll ⟨1000, false, 16⟩ ([.wait, .scanDpc true] ++
      List.replicate 11 (.thread 0 ⟨true, true, ⟨true, false, false⟩⟩)) (State.init 1)).isSome := by
    decide
  have hr := Reachable.init.runAll_getD h1 (State.init 1)
  exact ⟨_, hr, by decide, event_set_once_and_freed hr⟩

/-- The barrier of `CcWaitForCurrentLazyWriterActivity` when no `CcWriteBehind` returns
`CC_REQUEUE`: if, along a run from the call in which no worker holds an entry to re-queue, the
`EventSet` it queued (entry `s.nextEntry`) is signalled, then every entry that was on a work queue
or executing at the call has been freed. -/
theorem barrier_holds_without_requeue {T : Tunables} {N : Nat} (hN : 0 < N) {s s₁ s' : State}
    (hr : Reachable T N s) (hw : step T .wait s = some s₁) (hrun : QuietRun T s₁ s')
    (hsig : s.nextEntry ∈ s'.signaled) :
    ∀ e ∈ s.express ++ s.regular ++ s.running, e.addr ∈ s'.freed := by
  obtain ⟨-, rfl⟩ := step_wait hw
  obtain ⟨-, hb | hw'⟩ := hrun.waiting hN (by rfl) (hr.step (.run .wait hw)) (Waiting.init hr _)
  · exact hb
  · exact absurd hsig hw'.unsignaled

/-- The schedule of `barrier_holds_without_requeue_run` after the call: as `barrierSuffix`, but
the `WriteBehind` of thread 1 completes without `CC_REQUEUE` and is freed; thread 1 then pops the
`EventSet` as the only active worker and signals it. -/
def quietSuffix : List Label :=
  List.replicate 4 (.thread 0 ⟨true, true, ⟨true, false, false⟩⟩) ++ [.scanDpc true] ++
    List.replicate 11 (.thread 2 ⟨true, true, ⟨true, false, false⟩⟩) ++
    List.replicate 3 (.thread 1 ⟨true, true, ⟨true, false, false⟩⟩)

lemma barrierStart_wait : step ⟨1000, false, 16⟩ .wait barrierStart =
    some (ccWaitForCurrentLazyWriterActivity barrierStart) := by
  simp only [step]; exact if_neg (by decide)

theorem barrier_holds_without_requeue_run :
    ∃ s₁ s' : State, Reachable ⟨1000, false, 16⟩ 2 barrierStart ∧
      step ⟨1000, false, 16⟩ .wait barrierStart = some s₁ ∧ QuietRun ⟨1000, false, 16⟩ s₁ s' ∧
      barrierStart.nextEntry ∈ s'.signaled ∧
      barrierStart.running = [⟨0, .lazyWriteScan⟩, ⟨1, .writeBehind 2⟩] ∧ 0 ∈ s'.freed ∧ 1 ∈ s'.freed := by
  have h2 : (runWhile ⟨1000, false, 16⟩ (fun s => decide s.Quiet) quietSuffix
      (ccWaitForCurrentLazyWriterActivity barrierStart)).isSome := by
    decide
  have hrun := QuietRun.of_runWhile (.refl (by decide)) (Option.getD_of_ne_none
    (Option.isSome_iff_ne_none.1 h2) (State.init 2)).symm
  have hsig : barrierStart.nextEntry ∈ ((runWhile ⟨1000, false, 16⟩ (fun s => decide s.Quiet) quietSuffix
      (ccWaitForCurrentLazyWriterActivity barrierStart)).getD (State.init 2)).signaled := by
    decide
  have hb := barrier_holds_without_requeue (by decide) barrierStart_reachable barrierStart_wait hrun hsig
  exact ⟨_, _, barrierStart_reachable, barrierStart_wait, hrun, hsig, by decide,
    hb ⟨0, .lazyWriteScan⟩ (by decide), hb ⟨1, .writeBehind 2⟩ (by decide)⟩

end LazyWriter
