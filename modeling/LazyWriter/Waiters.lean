import LazyWriter.Barrier
import LazyWriter.Timer
import LazyWriter.Ownership

/-!
# Waiters are released in the order they called

Each call of `CcWaitForCurrentLazyWriterActivity` queues an `EventSet` entry at the tail of
`CcPostTickWorkQueue` (line 110) and waits for a worker to set its event (lines 526-529).
`State.waiters` lists the entries whose events are not yet set, in the order the lazy writer sets
them: the `EventSet` a worker executes, those on the regular queue, those the pending scan has taken
from `CcPostTickWorkQueue` (lines 186-190) and not yet posted (lines 364-368), and those still on
it.

`Step.waiters` says that every step keeps the list, appends the entry of a new call at its tail, or
sets the event of its head (`WaiterStep`). The queues are FIFO and a scan posts its local queue in
order to the tail of the regular queue (`scanStep_waiters`); a worker pops an `EventSet` only as the
only active worker (lines 497-501), so no other `EventSet` executes (`threadStep_waiters`); and only
the one pending scan of `Timer.lean` holds post-tick entries (`flatMap_take_drop_eq_nil`).
`WaiterStep.sublist` and `SerialRun.sublist` carry the order of two waiters along a run.

`waiters_released_in_call_order` follows over every run in which no worker starts the rescan of
line 557: of two calls, the event of the later one is set only once the event of the earlier one is.
The rescan takes `CcPostTickWorkQueue` at its top while the pending scan may still hold the entries
it took, so the order is stated over runs without it.
-/

namespace LazyWriter

/-- The `EventSet` entry a worker executes (lines 526-529). -/
def Thread.signalling (th : Thread) : List Entry := th.executing.filter Entry.isEventSet

/-- The local `PostTickWorkQueue` of the scan a thread runs. -/
def Thread.postTick (th : Thread) : List Entry := (th.scan?.map Scan.postTickWorkQueue).getD []

/-- The `EventSet` entries on the regular queue. -/
def State.regularEvents (s : State) : List Entry := s.regular.filter Entry.isEventSet

/-- The waiters of `CcWaitForCurrentLazyWriterActivity` whose events are not yet set, in the order
the lazy writer sets them. -/
def State.waiters (s : State) : List Entry :=
  s.threads.flatMap Thread.signalling ++ s.regularEvents ++ s.threads.flatMap Thread.postTick ++
    s.postTick

/-- What a step does to the waiters: nothing, a call appends one, or a worker sets the event of
the first one. -/
inductive WaiterStep (s s' : State) : Prop
  | keep : s'.waiters = s.waiters → s'.signaled = s.signaled → WaiterStep s s'
  | call (E : Entry) : s'.waiters = s.waiters ++ [E] → s'.signaled = s.signaled → WaiterStep s s'
  | signal (e : Entry) : s.waiters = e :: s'.waiters → s'.signaled = s.signaled ++ [e.addr] →
      WaiterStep s s'

/-- What a step of thread `th` to `th'`, from `s` to `s1`, does to the waiters: the thread's part
stays; it pops an `EventSet` off the regular queue, holding its item, executing nothing and as the
only active worker; it sets the event of the one it executes; its scan takes `CcPostTickWorkQueue`;
or its scan posts the head of its local queue to the regular queue. -/
inductive ThreadWaiters (s s1 : State) (th th' : Thread) : Prop
  | keep : th'.signalling = th.signalling → th'.postTick = th.postTick →
      s1.regularEvents = s.regularEvents → s1.postTick = s.postTick → s1.signaled = s.signaled →
      ThreadWaiters s s1 th th'
  | pop (e : Entry) : th.signalling = [] → th'.signalling = [e] → th'.postTick = th.postTick →
      s.regularEvents = e :: s1.regularEvents → s1.postTick = s.postTick →
      s1.signaled = s.signaled → th.holdsItem = true ∧ th.executing = [] ∧ ¬1 < s.active →
      ThreadWaiters s s1 th th'
  | signal (e : Entry) : th.signalling = [e] → th'.signalling = [] → th'.postTick = th.postTick →
      s1.regularEvents = s.regularEvents → s1.postTick = s.postTick →
      s1.signaled = s.signaled ++ [e.addr] → ThreadWaiters s s1 th th'
  | take : th.scanPending = true → th'.signalling = th.signalling → th.postTick = [] →
      th'.postTick = s.postTick → s1.regularEvents = s.regularEvents → s1.postTick = [] →
      s1.signaled = s.signaled → ThreadWaiters s s1 th th'
  | drain (e : Entry) : th.scanPending = true → th'.signalling = th.signalling →
      th.postTick = e :: th'.postTick → s1.regularEvents = s.regularEvents ++ [e] →
      s1.postTick = s.postTick → s1.signaled = s.signaled → ThreadWaiters s s1 th th'

/-- The runs from `s` in which no worker starts the rescan of line 557. -/
inductive SerialRun (T : Tunables) (s : State) : State → Prop
  | refl : SerialRun T s s
  | tail {s₁ s₂ : State} : SerialRun T s s₁ → Step T s₁ s₂ → s₂.NoRescan → SerialRun T s s₂

section Lists

/-- In a list with at most one element satisfying `p`, the one at position `t`, a function that is
empty off `p` is empty on the elements before and after position `t`. -/
lemma flatMap_take_drop_eq_nil {α β : Type} {f : α → List β} {p : α → Bool} {l : List α} {t : Nat}
    {a : α} (ht : l[t]? = some a) (hpa : p a = true) (hc : l.countP p ≤ 1)
    (hf : ∀ x ∈ l, f x ≠ [] → p x = true) :
    (l.take t).flatMap f = [] ∧ (l.drop (t + 1)).flatMap f = [] := by
  obtain ⟨hlt, rfl⟩ := List.getElem?_eq_some_iff.1 ht
  have hcount := congrArg (List.countP p) (List.take_append_drop t l)
  rw [List.drop_eq_getElem_cons hlt, List.countP_append, List.countP_cons, if_pos hpa] at hcount
  have hnil : ∀ {m : List α}, m.countP p = 0 → (∀ x ∈ m, x ∈ l) → m.flatMap f = [] := fun hm hs =>
    List.flatMap_eq_nil_iff.2 fun x hx => by
      by_contra hne
      exact List.countP_eq_zero.1 hm x hx (hf x (hs x hx) hne)
  exact ⟨hnil (by omega) fun _ => List.mem_of_mem_take, hnil (by omega) fun _ => List.mem_of_mem_drop⟩

lemma flatMap_woken {β : Type} {f : Thread → List β} (hf : ∀ i, f (.loop i .init) = [])
    {l l' : List Thread} (h : l' = l ∨ ∃ i, l' = l ++ [.loop i .init]) : l'.flatMap f = l.flatMap f := by
  rcases h with rfl | ⟨i, rfl⟩ <;> simp [hf]

end Lists

section Frames

variable {T : Tunables} {s s' s1 : State} {inp : Input}

lemma regular_of_pool_post {e : Entry} {q : Queue} (h : s'.pool = (ccPostWorkQueue e q s).pool) :
    s'.regular = if q = .regular then s.regular ++ [e] else s.regular := by
  have hw : ∀ x : State, (wakeWorker x).regular = x.regular := fun x => by
    unfold wakeWorker; split <;> rfl
  rw [show s'.regular = _ from congrArg (·.2.2.2.2.1) h]
  show (wakeWorker _).regular = _
  rw [hw]; cases q <;> rfl

lemma regularEvents_of_pool (h : s'.pool = s.pool) : s'.regularEvents = s.regularEvents := by
  rw [State.regularEvents, show s'.regular = s.regular from congrArg (·.2.2.2.2.1) h]; rfl

/-- A `CcPostWorkQueue` of anything but an `EventSet` keeps the `EventSet` entries of the regular
queue. -/
lemma regularEvents_of_pool_post {e : Entry} {q : Queue} (h : s'.pool = (ccPostWorkQueue e q s).pool)
    (he : e.isEventSet = false) : s'.regularEvents = s.regularEvents := by
  rw [State.regularEvents, regular_of_pool_post h]; split <;> simp [State.regularEvents, he]

lemma Scan.DrainOk.postTick_done {sc : Scan} (hd : sc.DrainOk) (hpc : sc.pc = .done) :
    sc.postTickWorkQueue = [] := by
  unfold Scan.DrainOk at hd
  split at hd
  · exact hd.2.1
  · obtain ⟨-, -, -, -, -, -, -, h⟩ := hd; exact h (.inr hpc)

/-- A thread that holds post-tick entries runs the pending scan: its scan has taken them at its
top, and drains them all before it returns. -/
lemma Thread.scanPending_of_postTick {th : Thread} (hn : th.rescanning = false)
    (hd : ∀ sc, th.scan? = some sc → sc.DrainOk) (h : th.postTick ≠ []) : th.scanPending = true := by
  cases th with
  | scan item w e q sc =>
    simp only [Thread.scanPending, bne_iff_ne, ne_eq]
    exact fun hpc => h ((hd sc rfl).postTick_done hpc)
  | rescan sc => cases hn
  | _ => exact absurd rfl h

/-- A scan posts the head of its local post-tick queue to the tail of the regular queue, takes
`CcPostTickWorkQueue` at its top, and otherwise posts only `WriteBehind` entries. -/
lemma scanStep_waiters {item : Nat} {w : WorkerLocals} {e : Entry} {q : Queue} {sc sc' : Scan}
    (h : scanStep T inp s sc = some (s1, sc')) (hpo : sc.Posting)
    (hpt : ∀ e ∈ sc.postTickWorkQueue, e.work = .eventSet) (hd : sc.DrainOk) :
    ThreadWaiters s s1 (.scan item w e q sc) (.scan item w e q sc') := by
  have hp : (Thread.scan item w e q sc).scanPending = true := by
    have : sc.pc ≠ .done := fun hd => by simp [scanStep, hd] at h
    simpa [Thread.scanPending] using this
  have hsig := scanStep_signaled h
  rcases scanStep_cases h with ⟨hpc, -, h⟩ | ⟨-, h⟩ | ⟨-, -, h⟩ | ⟨e', he, -, h⟩ | ⟨-, -, h⟩ |
    ⟨-, h⟩ | ⟨-, h⟩ <;> rw [show s1 = _ from congrArg Prod.fst h] at hsig ⊢ <;>
    rw [show sc' = _ from congrArg Prod.snd h]
  · by_cases hq : s.totalDirtyPages = 0 ∧ s.otherWork = false
    · rw [Scan.start_quiescent T hq]
      split_ifs <;> exact .keep rfl rfl rfl rfl rfl
    · obtain ⟨h1, h2, -⟩ := Scan.start_tick T sc hq
      exact .take hp rfl (hd.postTick_top hpc) (congrArg (·.1) h2) (regularEvents_of_pool Scan.start_pool)
        (congrArg (·.1) h1) hsig
  · exact .keep rfl (congrArg (·.1) (Scan.walk_frame _).2) (regularEvents_of_pool (Scan.walk_pool _))
      (congrArg (·.1) (Scan.walk_frame _).1) hsig
  · exact .keep rfl (congrArg (·.1) (Scan.allocate_frame _).2)
      (regularEvents_of_pool (Scan.allocate_pool _)) (congrArg (·.1) (Scan.allocate_frame _).1) hsig
  · exact .keep rfl (congrArg (·.1) (Scan.post_frame e' s sc).2)
      (regularEvents_of_pool_post (Scan.post_pool e') (by simp [Entry.isEventSet, hpo e' he]))
      (congrArg (·.1) (Scan.post_frame e' s sc).1) hsig
  · exact .keep rfl (congrArg (·.1) Scan.courtesy_frame.2) (regularEvents_of_pool Scan.advance_pool)
      (congrArg (·.1) Scan.courtesy_frame.1) hsig
  · unfold Scan.drain
    split
    · next e' rest hq =>
      have he : e'.isEventSet = true := by
        simp [Entry.isEventSet, hpt e' (by rw [hq]; exact List.mem_cons_self _ _)]
      refine .drain e' hp rfl hq ?_ (congrArg (·.1) (ccPostWorkQueue_sched _ _)) (by simp)
      simp [State.regularEvents, regular_of_pool_post (q := .regular) rfl, he]
    · exact .keep rfl rfl rfl rfl rfl
  · exact .keep rfl rfl (regularEvents_of_pool (ccScheduleLazyWriteScan_pool false))
      (congrArg (·.1) (ccScheduleLazyWriteScan_sched false)) hsig

/-- The head of the loop pops an `EventSet` off the regular queue only as the only active worker
(lines 497-501). Otherwise the `EventSet` entries of the regular queue stay and the worker executes
none: it re-queues a `WriteBehind`, and no `EventSet` is on the express queue. -/
lemma workerTop_regularEvents (item : Nat) (w : WorkerLocals)
    (hsl : ∀ p ∈ w.requeue, ∃ S, p.1.work = .writeBehind S) (hx : ∀ e ∈ s.express, e.isEventSet = false) :
    ((workerTop item w s).2.signalling = [] ∧ (workerTop item w s).1.regularEvents = s.regularEvents) ∨
      ∃ e, (workerTop item w s).2.signalling = [e] ∧
        s.regularEvents = e :: (workerTop item w s).1.regularEvents ∧ ¬1 < s.active := by
  have hq : ∀ q, ((workerRequeue w s).1.queue q).filter Entry.isEventSet =
      (s.queue q).filter Entry.isEventSet := by
    intro q
    rw [workerRequeue_queue]
    rcases hw : w.requeue with _ | ⟨e, q'⟩
    · rfl
    · obtain ⟨S, hS⟩ := hsl (e, q') hw
      dsimp only
      split_ifs <;> simp [Entry.isEventSet, show e.work = _ from hS]
  have hreg : (workerRequeue w s).1.regularEvents = s.regularEvents := hq .regular
  have hxe : ((workerRequeue w s).1.queue .express).filter Entry.isEventSet = [] := by
    rw [hq, State.queue_express, List.filter_eq_nil_iff]; exact fun x hx' => by simp [hx x hx']
  dsimp only [workerTop]
  unfold workerTake
  rcases hp : workerPick (workerRequeue w s).1 with _ | ⟨q, e, rest⟩
  · exact .inl ⟨rfl, hreg⟩
  obtain ⟨hq1, hq2⟩ := workerPick_eq_some hp
  dsimp only
  split_ifs with hc
  · exact .inl ⟨rfl, hreg⟩
  cases q
  · rw [hq1] at hxe
    have he : e.isEventSet = false := by simpa using List.filter_eq_nil_iff.1 hxe e (List.mem_cons_self _ _)
    exact .inl ⟨by simp [Thread.signalling, Thread.executing, he], hreg⟩
  · have h1 := hq .regular
    rw [hq1] at h1
    cases he : e.isEventSet
    · refine .inl ⟨by simp [Thread.signalling, Thread.executing, he], ?_⟩
      simpa [State.regularEvents, State.setQueue, he] using h1
    · refine .inr ⟨e, by simp [Thread.signalling, Thread.executing, he], ?_, by simpa [he] using hc⟩
      simpa [State.regularEvents, State.setQueue, he] using h1.symm

/-- What a step of a thread that runs no rescan does to the waiters (`ThreadWaiters`). -/
lemma threadStep_waiters {th th' : Thread} (h : threadStep T inp s th = some (s1, th'))
    (hn : th.rescanning = false) (hsl : ∀ p ∈ th.slot, ∃ S, p.1.work = .writeBehind S)
    (hx : ∀ e ∈ s.express, e.isEventSet = false) (hse : th.ScanEntry)
    (hpo : ∀ sc, th.scan? = some sc → sc.Posting)
    (hpt : ∀ sc, th.scan? = some sc → ∀ e ∈ sc.postTickWorkQueue, e.work = .eventSet)
    (hd : ∀ sc, th.scan? = some sc → sc.DrainOk) :
    ThreadWaiters s s1 th th' := by
  rcases threadStep_cases h with ⟨item, w, rfl, h1⟩ | ⟨item, w, e, q, rfl, -, h1⟩ |
    ⟨item, w, e, q, sc, rfl, hpc, rfl, rfl⟩ | ⟨item, w, e, q, sc, sc', rfl, h1, rfl⟩ |
    ⟨ok, rfl, rfl, rfl⟩ | ⟨sc, rfl, -, -, -⟩ | ⟨sc, sc', rfl, -, -⟩
  · -- the head of the loop (lines 473-506)
    rw [show s1 = _ from congrArg Prod.fst h1, show th' = _ from congrArg Prod.snd h1]
    have hpt' : (workerTop item w s).2.postTick = [] := by
      dsimp only [workerTop]
      rcases workerTake_snd item (workerRequeue w s).2 (workerRequeue w s).1 with h2 | ⟨e, q, h2⟩ <;>
        rw [h2] <;> rfl
    have hp : (workerTop item w s).1.postTick = s.postTick := congrArg (·.1) (workerTop_sched item w)
    have hsig : (workerTop item w s).1.signaled = s.signaled := by simp [workerTop]
    rcases workerTop_regularEvents item w hsl hx with ⟨h2, h3⟩ | ⟨e, h2, h3, h4⟩
    · exact .keep h2 hpt' h3 hp hsig
    · exact .pop e rfl h2 hpt' h3 hp hsig ⟨rfl, rfl, h4⟩
  · -- the dispatch of lines 510-547
    rw [show s1 = _ from congrArg Prod.fst h1, show th' = _ from congrArg Prod.snd h1]
    unfold workerDispatch
    split <;> rename_i hw
    · exact .keep (by simp [Thread.signalling, Thread.executing, Entry.isEventSet, hw]) rfl rfl rfl rfl
    · split_ifs with hq <;> refine .keep (by simp [Thread.signalling, Thread.executing, Entry.isEventSet, hw])
        rfl ?_ ?_ ?_ <;> simp [ccWriteBehind, ccFreeWorkQueueEntry, State.updateMap, State.regularEvents, hq]
    · exact .signal e (by simp [Thread.signalling, Thread.executing, Entry.isEventSet, hw]) rfl rfl rfl rfl rfl
    · exact .keep rfl rfl rfl rfl rfl
  · -- the scan is over and its `LazyWriteScan` entry is freed (line 547)
    have he : e.work = .lazyWriteScan := hse
    exact .keep (by simp [Thread.signalling, Thread.executing, Entry.isEventSet, he])
      ((hd sc rfl).postTick_done hpc).symm rfl rfl rfl
  · exact scanStep_waiters h1 (hpo sc rfl) (hpt sc rfl) (hd sc rfl)
  · exact .keep (by unfold workerExit; split_ifs <;> rfl) (by unfold workerExit; split_ifs <;> rfl)
      rfl rfl rfl
  · cases hn
  · cases hn

end Frames

section System

variable {T : Tunables} {N : Nat} {s s' : State}

/-- Line 110: the entry of a call joins the waiters at their tail. -/
lemma waitInsert_waiters (e : Entry) : (waitInsert e s).waiters = s.waiters ++ [e] := by
  simp only [State.waiters, State.threads_eq_of_pool (waitInsert_pool e),
    regularEvents_of_pool (waitInsert_pool e), waitInsert_postTick, List.append_assoc]

lemma ccWaitForCurrentLazyWriterActivity_waiters :
    (ccWaitForCurrentLazyWriterActivity s).waiters = s.waiters ++ [⟨s.nextEntry, .eventSet⟩] :=
  waitInsert_waiters _

/-- A step that changes the pool at most by a `CcPostWorkQueue` of anything but an `EventSet`, and
neither the post-tick queue nor the signalled events, keeps the waiters. -/
lemma waiters_frame (hone : (s.threads.flatMap Thread.signalling).length ≤ 1)
    (hp : s'.pool = s.pool ∨ ∃ e q, s'.pool = (ccPostWorkQueue e q s).pool ∧ e.isEventSet = false)
    (hpt : s'.postTick = s.postTick) (hsig : s'.signaled = s.signaled) :
    WaiterStep s s' ∧ (s'.threads.flatMap Thread.signalling).length ≤ 1 := by
  have hth : s'.threads = s.threads ∨ ∃ i, s'.threads = s.threads ++ [.loop i .init] :=
    hp.elim (fun h => .inl (State.threads_eq_of_pool h)) fun ⟨_, _, h, _⟩ => threads_of_pool_post h
  have hreg : s'.regularEvents = s.regularEvents :=
    hp.elim regularEvents_of_pool fun ⟨_, _, h, he⟩ => regularEvents_of_pool_post h he
  have hS := flatMap_woken (f := Thread.signalling) (fun _ => rfl) hth
  exact ⟨.keep (by simp only [State.waiters, hS, flatMap_woken (f := Thread.postTick) (fun _ => rfl) hth,
    hreg, hpt]) hsig, hS ▸ hone⟩

lemma signalling_eq_nil_of_running (h : s.running = []) : s.threads.flatMap Thread.signalling = [] :=
  List.flatMap_eq_nil_iff.2 fun th hm => by
    simp [Thread.signalling, List.flatMap_eq_nil_iff.1 h th hm]

/-- `WaiterStep` for every step from a state reached without the rescan in which at most one worker
sets an event, and that bound again after the step. -/
lemma Step.waiters (hN : 0 < N) (hs : SerialReachable T N s)
    (hone : (s.threads.flatMap Thread.signalling).length ≤ 1) (h : Step T s s') :
    WaiterStep s s' ∧ (s'.threads.flatMap Thread.signalling).length ≤ 1 := by
  have hr := hs.reachable
  cases h with
  | run ℓ h =>
    cases ℓ with
    | schedule f =>
      obtain ⟨-, -, rfl⟩ := step_schedule h
      exact waiters_frame hone (.inl (ccScheduleLazyWriteScan_pool f))
        (congrArg (·.1) (ccScheduleLazyWriteScan_sched f)) (by simp)
    | wait =>
      obtain ⟨-, rfl⟩ := step_wait h
      refine ⟨.call _ ccWaitForCurrentLazyWriterActivity_waiters (by simp), ?_⟩
      rwa [State.threads_eq_of_pool ccWaitForCurrentLazyWriterActivity_pool]
    | scanDpc ok =>
      obtain ⟨-, rfl⟩ := step_scanDpc h
      exact waiters_frame hone ((ccScanDpc_pool ok).imp_right fun h => ⟨_, _, h, by rfl⟩)
        (congrArg (·.1) (ccScanDpc_sched ok)) (by simp)
    | waitAllocate => obtain rfl := step_waitAllocate h; exact ⟨.keep rfl rfl, hone⟩
    | waitInsert i =>
      obtain ⟨-, e, -, rfl⟩ := step_waitInsert h
      refine ⟨.call e (waitInsert_waiters e) (by simp), ?_⟩
      rwa [State.threads_eq_of_pool (waitInsert_pool e)]
    | scanDpcAllocate => obtain ⟨-, rfl⟩ := step_scanDpcAllocate h; exact ⟨.keep rfl rfl, hone⟩
    | scanDpcPost i =>
      -- the entry a DPC holds is a `LazyWriteScan`
      obtain ⟨e, he, rfl⟩ := step_scanDpcPost h
      have hw : e.isEventSet = false := by
        simp [Entry.isEventSet, hr.pendingWork.dpcs e (List.getElem?_mem he)]
      exact waiters_frame hone (.inr ⟨e, _, scanDpcPost_pool e i, hw⟩)
        (congrArg (·.1) (ccPostWorkQueue_sched _ _)) (by simp)
    | env a =>
      exact waiters_frame hone ((envStep_pool h).imp_right fun ⟨q, h⟩ => ⟨_, q, h, by rfl⟩)
        (by rcases envStep_sched h with h1 | ⟨-, h1⟩ <;> exact congrArg (·.1) h1) (envStep_signaled h)
    | thread t inp =>
      obtain ⟨th, s1, th', ht, h1, rfl⟩ := step_thread h
      have hm := List.getElem?_mem ht
      have hset := threadStep_set h1 ht
      have split : ∀ f : Thread → List Entry, (∀ i, f (.loop i .init) = []) →
          s.threads.flatMap f =
            (s.threads.take t).flatMap f ++ (f th ++ (s.threads.drop (t + 1)).flatMap f) ∧
          (s1.threads.set t th').flatMap f =
            (s.threads.take t).flatMap f ++ (f th' ++ (s.threads.drop (t + 1)).flatMap f) :=
        fun f hf => by rw [flatMap_woken hf hset]; exact flatMap_set_split f ht th'
      -- the events the other workers set, and the post-tick entries the other threads hold
      obtain ⟨P, Q, hS, hS'⟩ : ∃ P Q, s.threads.flatMap Thread.signalling = P ++ (th.signalling ++ Q) ∧
          (s1.threads.set t th').flatMap Thread.signalling = P ++ (th'.signalling ++ Q) :=
        ⟨_, _, split Thread.signalling fun _ => rfl⟩
      obtain ⟨P', Q', hL, hL', alone⟩ : ∃ P' Q', s.threads.flatMap Thread.postTick = P' ++ (th.postTick ++ Q') ∧
          (s1.threads.set t th').flatMap Thread.postTick = P' ++ (th'.postTick ++ Q') ∧
          (th.scanPending = true → P' = [] ∧ Q' = []) := by
        obtain ⟨hL, hL'⟩ := split Thread.postTick fun _ => rfl
        refine ⟨_, _, hL, hL', fun hp => ?_⟩
        obtain ⟨-, -, -, hc⟩ := TimerInv.of_pending hs.timerInv hm hp
        exact flatMap_take_drop_eq_nil ht hp hc.le fun x hx =>
          Thread.scanPending_of_postTick (hs.noRescan x hx) (hr.drainOk x hx)
      have hw : s.waiters =
          P ++ (th.signalling ++ Q) ++ s.regularEvents ++ (P' ++ (th.postTick ++ Q')) ++ s.postTick := by
        rw [State.waiters, hS, hL]
      have hw' : State.waiters { s1 with threads := s1.threads.set t th' } =
          P ++ (th'.signalling ++ Q) ++ s1.regularEvents ++ (P' ++ (th'.postTick ++ Q')) ++ s1.postTick := by
        rw [← hS', ← hL']; rfl
      cases threadStep_waiters h1 (hs.noRescan th hm) (hr.slots th hm) (hr.pool hN).express_events
        (hr.scanEntry th hm) (hr.posting th hm) (hr.postTickEvents.scans th hm) (hr.drainOk th hm) with
      | keep h2 h3 h4 h5 h6 =>
        exact ⟨.keep (by rw [hw, hw', h2, h3, h4, h5]) h6, by rwa [hS', h2, ← hS]⟩
      | pop e h2 h3 h4 h5 h6 h7 hg =>
        -- the worker that pops an `EventSet` is the only one executing an entry
        have h0 := signalling_eq_nil_of_running ((hr.pool hN).running_eq_nil ht hg.1 hg.2.1 hg.2.2)
        obtain ⟨rfl, rfl⟩ : P = [] ∧ Q = [] := by simpa [hS, h2] using h0
        exact ⟨.keep (by rw [hw, hw', h2, h3, h4, h5, h6]; simp) h7, by rw [hS', h3]; rfl⟩
      | signal e h2 h3 h4 h5 h6 h7 =>
        -- the worker that sets an event is the only one setting one
        have hlen := hS ▸ hone
        simp only [h2, List.length_append, List.length_singleton] at hlen
        obtain ⟨rfl, rfl⟩ : P = [] ∧ Q = [] :=
          ⟨List.length_eq_zero.1 (by omega), List.length_eq_zero.1 (by omega)⟩
        exact ⟨.signal e (by rw [hw, hw', h2, h3, h4, h5, h6]; simp) h7, by rw [hS', h3]; simp⟩
      | take hp h2 h3 h4 h5 h6 h7 =>
        obtain ⟨rfl, rfl⟩ := alone hp
        exact ⟨.keep (by rw [hw, hw', h2, h3, h4, h5, h6]; simp) h7, by rwa [hS', h2, ← hS]⟩
      | drain e hp h2 h3 h4 h5 h6 =>
        obtain ⟨rfl, rfl⟩ := alone hp
        exact ⟨.keep (by rw [hw, hw', h2, h3, h4, h5]; simp) h6, by rwa [hS', h2, ← hS]⟩
  | insertStream => exact ⟨.keep rfl rfl, hone⟩
  | removeStream => exact ⟨.keep rfl rfl, hone⟩

/-- At most one worker sets an event, over every run without the rescan. -/
lemma SerialReachable.signalling_le (hN : 0 < N) (h : SerialReachable T N s) :
    (s.threads.flatMap Thread.signalling).length ≤ 1 := by
  induction h with
  | init => simp [State.init]
  | step h0 hst _ ih => exact (hst.waiters hN h0 ih).2

lemma SerialReachable.waiterStep (hN : 0 < N) (hs : SerialReachable T N s) (h : Step T s s') :
    WaiterStep s s' :=
  (h.waiters hN hs (hs.signalling_le hN)).1

lemma SerialRun.serialReachable (hs : SerialReachable T N s) (h : SerialRun T s s') :
    SerialReachable T N s' := by
  induction h with
  | refl => exact hs
  | tail _ h hn ih => exact .step ih h hn

lemma SerialRun.of_runWhile {s₀ : State} {ls : List Label} (h0 : SerialRun T s₀ s)
    (h : runWhile T (fun s => decide s.NoRescan) ls s = some s') : SerialRun T s₀ s' :=
  runWhile_induction (fun h1 h2 h3 => h1.tail h2 (of_decide_eq_true h3)) h0 h

/-- A waiter `E` with the waiters `L` behind it stays so until its event is set. -/
lemma WaiterStep.sublist {E : Entry} {L : List Entry} (h : WaiterStep s s')
    (hL : E.addr ∈ s.signaled ∨ (E :: L).Sublist s.waiters) : E.addr ∈ s'.signaled ∨ (E :: L).Sublist s'.waiters := by
  cases h with
  | keep h1 h2 => rwa [h1, h2]
  | call E' h1 h2 => rw [h1, h2]; exact hL.imp_right fun h => h.trans (List.sublist_append_left _ _)
  | signal e h1 h2 =>
    rw [h2]
    rcases hL with hL | hL
    · exact .inl (List.mem_append_left _ hL)
    rw [h1] at hL
    rcases List.sublist_cons_iff.1 hL with hL | ⟨r, hr, -⟩
    · exact .inr hL
    · obtain ⟨rfl, -⟩ := List.cons.inj hr
      exact .inl (List.mem_append_right _ (List.mem_singleton_self _))

lemma SerialRun.sublist (hN : 0 < N) (hs : SerialReachable T N s) (h : SerialRun T s s') {E : Entry}
    {L : List Entry} (hL : E.addr ∈ s.signaled ∨ (E :: L).Sublist s.waiters) :
    E.addr ∈ s'.signaled ∨ (E :: L).Sublist s'.waiters := by
  induction h with
  | refl => exact hL
  | tail hrun hst _ ih => exact ((hrun.serialReachable hs).waiterStep hN hst).sublist ih

lemma Thread.holding_of_postTick {th : Thread} {e : Entry} (h : e ∈ th.postTick) : e ∈ th.holding := by
  cases th <;> simp_all [Thread.postTick, Thread.scan?, Thread.holding, Thread.held]

/-- A waiter is allocated. -/
lemma State.mem_entries_of_waiters {e : Entry} (h : e ∈ s.waiters) : e ∈ s.entries := by
  have hth : ∀ {f : Thread → List Entry}, (∀ th, e ∈ f th → e ∈ th.holding) →
      e ∈ s.threads.flatMap f → e ∈ s.entries := fun hf h => by
    obtain ⟨th, ht, he⟩ := List.mem_flatMap.1 h
    exact List.mem_append_left _ (List.mem_append_right _ (List.mem_flatMap.2 ⟨th, ht, hf th he⟩))
  simp only [State.waiters, List.mem_append] at h
  rcases h with ((h | h) | h) | h
  · exact hth (fun _ he => Thread.holding_of_executing (List.mem_filter.1 he).1) h
  · exact List.mem_append_left _ (by simp [State.pooled, (List.mem_filter.1 h).1])
  · exact hth (fun _ => Thread.holding_of_postTick) h
  · exact List.mem_append_left _ (by simp [State.pooled, h])

/-- A waiter whose event is set is no longer waiting: it has been freed. -/
lemma Reachable.not_mem_waiters (hr : Reachable T N s) {E : Entry} (hE : E.addr ∈ s.signaled) :
    E ∉ s.waiters := fun hm =>
  (hr.allocation.live E (State.mem_entries_of_waiters hm)).2 (hr.signaled_freed _ hE)

end System

/-- Waiters are released in the order they called: if `CcWaitForCurrentLazyWriterActivity` is called
at `s` and again at `s₂`, later along a run in which no worker starts the rescan of line 557, then
once the event of the second call (entry `s₂.nextEntry`) is set, the event of the first call (entry
`s.nextEntry`) has been set. -/
theorem waiters_released_in_call_order {T : Tunables} {N : Nat} (hN : 0 < N) {s s₁ s₂ s₃ s₄ : State}
    (hs : SerialReachable T N s) (h₁ : step T .wait s = some s₁) (hr₁ : SerialRun T s₁ s₂)
    (h₂ : step T .wait s₂ = some s₃) (hr₂ : SerialRun T s₃ s₄) (hsig : s₂.nextEntry ∈ s₄.signaled) :
    s.nextEntry ∈ s₄.signaled := by
  have wait : ∀ {s s' : State}, SerialReachable T N s → step T .wait s = some s' →
      SerialReachable T N s' ∧ s'.waiters = s.waiters ++ [⟨s.nextEntry, .eventSet⟩] ∧
        s'.signaled = s.signaled := fun hs h => by
    obtain ⟨-, rfl⟩ := step_wait h
    refine ⟨.step hs (.run .wait h) ?_, ccWaitForCurrentLazyWriterActivity_waiters, by simp⟩
    rw [State.NoRescan, State.threads_eq_of_pool ccWaitForCurrentLazyWriterActivity_pool]
    exact hs.noRescan
  obtain ⟨hs₁, hw₁, -⟩ := wait hs h₁
  have h1 := hr₁.sublist hN hs₁ (E := ⟨s.nextEntry, .eventSet⟩) (L := []) (.inr (by simp [hw₁]))
  obtain ⟨hs₃, hw₃, hsig₃⟩ := wait (hr₁.serialReachable hs₁) h₂
  have h3 := hr₂.sublist hN hs₃ (E := ⟨s.nextEntry, .eventSet⟩) (L := [⟨s₂.nextEntry, .eventSet⟩])
    (by rw [hw₃, hsig₃]; exact h1.imp_right fun h => h.append (List.Sublist.refl _))
  refine h3.resolve_right fun hsub => ?_
  exact (hr₂.serialReachable hs₃).reachable.not_mem_waiters (E := ⟨s₂.nextEntry, .eventSet⟩) hsig
    (hsub.subset (List.mem_cons_of_mem _ (List.mem_singleton_self _)))

/-- After the first call of `waiters_released_in_call_order_run`: the timer scan on thread 0 takes
the `EventSet` (entry 0), posts it to the regular queue and goes idle. -/
def firstCallRun : List Label :=
  [.scanDpc true] ++ List.replicate 7 (.thread 0 ⟨true, true, ⟨true, false, false⟩⟩)

/-- After the second call, whose `EventSet` (entry 2) waits on `CcPostTickWorkQueue`: thread 0 pops
entry 0 and sets its event, the next timer scan runs on the worker it wakes (thread 1), takes
entry 2, posts it, and thread 1 pops it and sets its event. -/
def secondCallRun : List Label :=
  List.replicate 5 (.thread 0 ⟨true, true, ⟨true, false, false⟩⟩) ++ [.scanDpc true] ++
    List.replicate 11 (.thread 1 ⟨true, true, ⟨true, false, false⟩⟩)

/-- The state at the second call: entry 0 is on the regular queue and the scan timer is not set. -/
def secondCallStart : State :=
  (runWhile ⟨1000, false, 16⟩ (fun s => decide s.NoRescan) firstCallRun
    (ccWaitForCurrentLazyWriterActivity (State.init 1))).getD (State.init 1)

theorem waiters_released_in_call_order_run :
    ∃ s₁ s₃ s₄ : State, SerialReachable ⟨1000, false, 16⟩ 1 (State.init 1) ∧
      step ⟨1000, false, 16⟩ .wait (State.init 1) = some s₁ ∧
      SerialRun ⟨1000, false, 16⟩ s₁ secondCallStart ∧
      step ⟨1000, false, 16⟩ .wait secondCallStart = some s₃ ∧ SerialRun ⟨1000, false, 16⟩ s₃ s₄ ∧
      secondCallStart.nextEntry = 2 ∧ secondCallStart.nextEntry ∈ s₄.signaled ∧
      (State.init 1).nextEntry ∈ s₄.signaled := by
  have hw₁ : step ⟨1000, false, 16⟩ .wait (State.init 1) =
      some (ccWaitForCurrentLazyWriterActivity (State.init 1)) := by
    simp only [step]; exact if_neg (by decide)
  have h1 : (runWhile ⟨1000, false, 16⟩ (fun s => decide s.NoRescan) firstCallRun
      (ccWaitForCurrentLazyWriterActivity (State.init 1))).isSome := by
    decide
  have hr₁ : SerialRun ⟨1000, false, 16⟩ _ secondCallStart := SerialRun.of_runWhile .refl
    (Option.getD_of_ne_none (Option.isSome_iff_ne_none.1 h1) (State.init 1)).symm
  have hw₂ : step ⟨1000, false, 16⟩ .wait secondCallStart =
      some (ccWaitForCurrentLazyWriterActivity secondCallStart) := by
    simp only [step]; exact if_neg (by decide)
  have h2 : (runWhile ⟨1000, false, 16⟩ (fun s => decide s.NoRescan) secondCallRun
      (ccWaitForCurrentLazyWriterActivity secondCallStart)).isSome := by
    decide
  have hr₂ := SerialRun.of_runWhile .refl (Option.getD_of_ne_none
    (Option.isSome_iff_ne_none.1 h2) (State.init 1)).symm
  have hsig : secondCallStart.nextEntry ∈ ((runWhile ⟨1000, false, 16⟩ (fun s => decide s.NoRescan)
      secondCallRun (ccWaitForCurrentLazyWriterActivity secondCallStart)).getD (State.init 1)).signaled := by
    decide
  exact ⟨_, _, _, .init, hw₁, hr₁, hw₂, hr₂, by decide, hsig,
    waiters_released_in_call_order (by decide) .init hw₁ hr₁ hw₂ hr₂ hsig⟩

end LazyWriter
