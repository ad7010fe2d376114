import LazyWriter.Inversion

/-!
# The worker pool

The invariant `PoolInv` of the pool of worker items that `CcPostWorkQueue` and `CcWorkerThread`
share (lines 414-558): every worker item is idle or counted active, the count is the number of
threads that hold an item, queued work always has an active worker, the throttle is set only for
an `EventSet` at the head of the regular queue or for one the sole active worker is signalling, and
no `EventSet` is on the express queue or waits to be re-queued.

`PoolInv.post` is `CcPostWorkQueue`. The head of the loop is cut where the source cuts it:
`PoolInv.requeue` for lines 476-484 and `PoolInv.take` for lines 486-506, and `PoolInv.take_eventSet`
says when a worker pops an `EventSet`. Every other step changes one thread and posts at most once
(`PoolInv.setThread`). `Reachable.pool` is the run lemma and `pool_invariant` the headline.

The barrier the throttle builds is not tight: a `CC_REQUEUE` entry goes back to the tail of its
queue, behind an `EventSet` queued while it ran, and that `EventSet` is signalled before the entry
runs again (`requeue_overtakes_event`).
-/

namespace LazyWriter

namespace Thread

/-- Whether the thread holds its worker item: it is in the loop of `CcWorkerThread` and counted in
`CcNumberActiveWorkerThreads`. -/
def holdsItem : Thread → Bool
  | .loop .. | .exec .. | .scan .. => true
  | _ => false

/-- Whether the thread is the one that signals an `EventSet`: it is about to, or it has and drops
the throttle at the head of its next iteration (`DropThrottle`, lines 476-478). -/
def settingEvent : Thread → Bool
  | .exec _ _ e _ => e.isEventSet
  | .loop _ w => w.dropThrottle
  | _ => false

lemma holdsItem_of_settingEvent {th : Thread} (h : th.settingEvent = true) : th.holdsItem = true := by
  cases th <;> simp_all [settingEvent, holdsItem]

end Thread

section Lists

variable {α : Type} {p : α → Bool} {l : List α} {t : Nat} {a b : α}

/-- Two positions whose elements satisfy `p` count twice. -/
lemma two_le_countP {u : Nat} (ha : l[t]? = some a) (hb : l[u]? = some b) (htu : t ≠ u)
    (hpa : p a = true) (hpb : p b = true) : 2 ≤ l.countP p := by
  induction l generalizing t u with
  | nil => simp at ha
  | cons x l ih =>
    rw [List.countP_cons]
    cases t <;> cases u
    · exact absurd rfl htu
    · obtain rfl : x = a := by simpa using ha
      have : 0 < l.countP p := List.countP_pos_iff.2 ⟨b, List.getElem?_mem (by simpa using hb), hpb⟩
      rw [if_pos hpa]; omega
    · obtain rfl : x = b := by simpa using hb
      have : 0 < l.countP p := List.countP_pos_iff.2 ⟨a, List.getElem?_mem (by simpa using ha), hpa⟩
      rw [if_pos hpb]; omega
    · have := ih (by simpa using ha) (by simpa using hb) (by omega); split <;> omega

lemma mem_set_of_ne {x : α} (hx : x ∈ l) (ht : l[t]? = some a) (hne : x ≠ a) : x ∈ l.set t b := by
  obtain ⟨u, hu⟩ := List.mem_iff_getElem?.1 hx
  have htu : t ≠ u := by rintro rfl; exact hne (Option.some.inj (hu.symm.trans ht))
  exact List.mem_iff_getElem?.2 ⟨u, by rw [List.getElem?_set_ne htu]; exact hu⟩

lemma mem_set_self (ht : l[t]? = some a) : b ∈ l.set t b :=
  List.getElem?_mem (by rw [List.getElem?_set_self (List.getElem?_eq_some_iff.1 ht).1])

lemma countP_set (ht : l[t]? = some a) :
    (l.set t b).countP p + (if p a then 1 else 0) = l.countP p + (if p b then 1 else 0) := by
  obtain ⟨hlt, rfl⟩ := List.getElem?_eq_some_iff.1 ht
  have := List.boole_getElem_le_countP p l t hlt
  rw [List.countP_set _ _ _ _ hlt]
  omega

lemma countP_set_of_eq (ht : l[t]? = some a) (h : p b = p a) : (l.set t b).countP p = l.countP p := by
  have := countP_set (p := p) (b := b) ht; rw [h] at this; omega

end Lists

/-- The invariant of the worker pool. -/
structure PoolInv (N : Nat) (s : State) : Prop where
  /-- Every worker item is on the idle list or counted active. -/
  items : s.idle.length + s.active = N
  /-- The active count is the number of threads that hold a worker item. -/
  active_eq : s.active = s.threads.countP Thread.holdsItem
  /-- Queued work always has an active worker. -/
  busy : s.express ≠ [] ∨ s.regular ≠ [] → 0 < s.active
  /-- The throttle is set for an `EventSet` at the head of the regular queue, or for one that the
  sole active worker signals. -/
  throttled : s.throttle = true →
    (∃ e rest, s.regular = e :: rest ∧ e.isEventSet = true) ∨
    (s.active = 1 ∧ ∃ th ∈ s.threads, th.settingEvent = true)
  /-- No `EventSet` is on the express queue. -/
  express_events : ∀ e ∈ s.express, e.isEventSet = false
  /-- No `EventSet` waits to be re-queued. -/
  slots : ∀ th ∈ s.threads, ∀ p ∈ th.slot, p.1.isEventSet = false

section Preservation

variable {N : Nat} {s s' s1 : State} {t : Nat}

/-- The invariant reads only the pool. -/
lemma PoolInv.congr (h : PoolInv N s) (he : s'.pool = s.pool) : PoolInv N s' := by
  simp only [State.pool, Prod.mk.injEq] at he
  obtain ⟨h1, h2, h3, h4, h5, h6⟩ := he
  obtain ⟨hi, ha, hb, ht, hx, hs⟩ := h
  exact ⟨h1 ▸ h2 ▸ hi, h2 ▸ h3 ▸ ha, h4 ▸ h5 ▸ h2 ▸ hb, h6 ▸ h5 ▸ h2 ▸ h3 ▸ ht, h4 ▸ hx, h3 ▸ hs⟩

lemma PoolInv.active_pos (h : PoolInv N s) {th : Thread} (ht : th ∈ s.threads)
    (hh : th.holdsItem = true) : 0 < s.active :=
  h.active_eq ▸ List.countP_pos_iff.2 ⟨th, ht, hh⟩

/-- `CcPostWorkQueue` of an entry that is not an `EventSet` if it goes to the express queue. -/
lemma PoolInv.post (hN : 0 < N) (h : PoolInv N s) {e : Entry} {q : Queue}
    (hq : q = .express → e.isEventSet = false) : PoolInv N (ccPostWorkQueue e q s) := by
  set s2 := s.setQueue q (s.queue q ++ [e]) with hs2
  have hx : ∀ x ∈ s2.express, x.isEventSet = false := by
    cases q
    · simpa [hs2, or_imp, forall_and] using ⟨h.express_events, hq rfl⟩
    · simpa [hs2] using h.express_events
  have hr : ∀ x r, s.regular = x :: r → ∃ r', s2.regular = x :: r' := by
    rintro x r hxr
    cases q
    · exact ⟨r, by simpa [hs2] using hxr⟩
    · exact ⟨r ++ [e], by simp [hs2, hxr]⟩
  have ht : s2.throttle = true →
      (∃ x r, s2.regular = x :: r ∧ x.isEventSet = true) ∨
      (s2.active = 1 ∧ ∃ th ∈ s2.threads, th.settingEvent = true) := by
    intro hth
    rcases h.throttled (by simpa [hs2] using hth) with ⟨x, r, hxr, hev⟩ | hsole
    · obtain ⟨r', hr'⟩ := hr x r hxr; exact .inl ⟨x, r', hr', hev⟩
    · exact .inr (by simpa [hs2] using hsole)
  unfold ccPostWorkQueue
  rw [← hs2]
  rcases wakeWorker_cases s2 with ⟨hw, hwhy⟩ | ⟨i, rest, hth, hid, hw⟩ <;> rw [hw]
  · refine ⟨by simpa [hs2] using h.items, by simpa [hs2] using h.active_eq, fun _ => ?_, ht, hx,
      by simpa [hs2] using h.slots⟩
    simp only [hs2, setQueue_active]
    rcases hwhy with hth | hid
    · rcases h.throttled (by simpa [hs2] using hth) with ⟨x, r, hxr, -⟩ | ⟨h1, -⟩
      · exact h.busy (.inr (by simp [hxr]))
      · omega
    · have := h.items; simp only [hs2, setQueue_idle] at hid; simp [hid] at this; omega
  · refine ⟨?_, ?_, fun _ => by simp, fun h' => by simp_all, hx, ?_⟩
    · have := h.items; simp only [hs2, setQueue_idle] at hid; simp [hid, hs2] at this ⊢; omega
    · simp [hs2, h.active_eq, Thread.holdsItem]
    · intro th hm
      rcases List.mem_append.1 hm with hm | hm
      · exact h.slots th (by simpa [hs2] using hm)
      · simp at hm; subst hm; simp [Thread.slot, WorkerLocals.init]

/-- A step that changes one thread without changing whether it holds an item, and gives it no
`EventSet` to re-queue. -/
lemma PoolInv.setThread (h : PoolInv N s) {th th' : Thread} (ht : s.threads[t]? = some th)
    (hh : th'.holdsItem = th.holdsItem) (hs : th.settingEvent = true → th'.settingEvent = true)
    (hsl : ∀ p ∈ th'.slot, p.1.isEventSet = false) :
    PoolInv N { s with threads := s.threads.set t th' } := by
  refine ⟨h.items, (countP_set_of_eq ht hh).symm ▸ h.active_eq, h.busy, fun hth => ?_,
    h.express_events, fun x hx => ?_⟩
  · rcases h.throttled hth with hr | ⟨h1, x, hx, hxs⟩
    · exact .inl hr
    · by_cases hxe : x = th
      · exact .inr ⟨h1, th', mem_set_self ht, hs (hxe ▸ hxs)⟩
      · exact .inr ⟨h1, x, mem_set_of_ne hx ht hxe, hxs⟩
  · rcases List.mem_or_eq_of_mem_set hx with hx | rfl
    · exact h.slots x hx
    · exact hsl

/-- Lines 476-484: with the throttle dropped and the entry re-queued, the thread is at the head of
its loop with no `DropThrottle` and nothing to re-queue. -/
lemma PoolInv.requeue (h : PoolInv N s) {item : Nat} {w : WorkerLocals}
    (ht : s.threads[t]? = some (.loop item w)) :
    PoolInv N { (workerRequeue w s).1 with
      threads := s.threads.set t (.loop item (workerRequeue w s).2) } := by
  set s2 := (workerRequeue w s).1 with hs2
  have hslot : ∀ e q, w.requeue = some (e, q) → e.isEventSet = false := fun e q hw =>
    h.slots _ (List.getElem?_mem ht) (e, q) (by simp [Thread.slot, hw])
  have hq : ∀ q, s2.queue q = s.queue q ∨ ∃ e, e.isEventSet = false ∧ s2.queue q = s.queue q ++ [e] := by
    intro q
    rw [hs2, workerRequeue_queue]
    split
    · next e q' hw => split_ifs
                      · exact .inr ⟨e, hslot e q' hw, rfl⟩
                      · exact .inl rfl
    · exact .inl rfl
  have hx : ∀ e ∈ s2.express, e.isEventSet = false := by
    rcases hq .express with he | ⟨e, hev, he⟩ <;> simp only [State.queue_express] at he <;> rw [he]
    · exact h.express_events
    · simpa [or_imp, forall_and] using ⟨h.express_events, hev⟩
  have hr : ∀ x r, s.regular = x :: r → ∃ r', s2.regular = x :: r' := by
    rintro x r hxr
    rcases hq .regular with he | ⟨e, -, he⟩ <;> simp only [State.queue_regular] at he <;> rw [he, hxr]
    · exact ⟨r, rfl⟩
    · exact ⟨r ++ [e], rfl⟩
  refine ⟨by simpa [hs2] using h.items, ?_, fun _ => ?_, fun hth => ?_, hx, fun x hx => ?_⟩
  · simp only [hs2, workerRequeue_active]
    rw [countP_set_of_eq (p := Thread.holdsItem) (b := .loop item (workerRequeue w s).2) ht rfl]
    exact h.active_eq
  · simpa [hs2] using h.active_pos (List.getElem?_mem ht) rfl
  · simp only [hs2, workerRequeue_throttle, Bool.and_eq_true, Bool.not_eq_true'] at hth
    rcases h.throttled hth.1 with ⟨x, r, hxr, hev⟩ | ⟨h1, x, hx, hxs⟩
    · obtain ⟨r', hr'⟩ := hr x r hxr; exact .inl ⟨x, r', hr', hev⟩
    · refine .inr ⟨by simpa [hs2] using h1, x, mem_set_of_ne hx ht ?_, hxs⟩
      rintro rfl; simp [Thread.settingEvent, hth.2] at hxs
  · rcases List.mem_or_eq_of_mem_set hx with hx | rfl
    · exact h.slots x hx
    · simp [Thread.slot]

/-- A thread at the head of its loop without `DropThrottle`: the throttle it sees is for an
`EventSet` at the head of the regular queue, since it is not the thread that signals one. -/
lemma PoolInv.throttle_head (h : PoolInv N s) {item : Nat} {w : WorkerLocals}
    (ht : s.threads[t]? = some (.loop item w)) (hd : w.dropThrottle = false) (hth : s.throttle = true) :
    ∃ x r, s.regular = x :: r ∧ x.isEventSet = true := by
  rcases h.throttled hth with hr | ⟨h1, x, hx, hxs⟩
  · exact hr
  · obtain ⟨u, hu⟩ := List.mem_iff_getElem?.1 hx
    have htu : t ≠ u := by
      rintro rfl; rw [ht] at hu; cases hu; simp [Thread.settingEvent, hd] at hxs
    have := two_le_countP (p := Thread.holdsItem) ht hu htu rfl (Thread.holdsItem_of_settingEvent hxs)
    rw [← h.active_eq] at this; omega

/-- Leaving the loop (lines 551-553), idle or throttled. -/
lemma PoolInv.leave (h : PoolInv N s) {item : Nat} {w : WorkerLocals}
    (ht : s.threads[t]? = some (.loop item w)) (thr ok : Bool)
    (hbusy : s.express ≠ [] ∨ s.regular ≠ [] → 1 < s.active)
    (hthr : thr = true → ∃ x r, s.regular = x :: r ∧ x.isEventSet = true) :
    PoolInv N { idleWorker item { s with throttle := thr } with
      threads := s.threads.set t (.exited ok) } := by
  have hpos := h.active_pos (List.getElem?_mem ht) rfl
  have hc := countP_set (p := Thread.holdsItem) (b := .exited ok) ht
  simp only [Thread.holdsItem, if_true, Bool.false_eq_true, if_false] at hc
  refine ⟨?_, ?_, fun hq => ?_, fun h' => .inl (hthr h'), h.express_events, fun x hx => ?_⟩
  · simp [idleWorker]; have := h.items; omega
  · simp [idleWorker]; have := h.active_eq; omega
  · simp [idleWorker]; have := hbusy hq; omega
  · rcases List.mem_or_eq_of_mem_set hx with hx | rfl
    · exact h.slots x hx
    · simp [Thread.slot]

/-- Lines 486-506 from the head of the loop without `DropThrottle` or a re-queue. -/
lemma PoolInv.take (h : PoolInv N s) {item : Nat} {w : WorkerLocals}
    (ht : s.threads[t]? = some (.loop item w)) (hd : w.dropThrottle = false) :
    PoolInv N { (workerTake item w s).1 with threads := s.threads.set t (workerTake item w s).2 } := by
  have hpos := h.active_pos (List.getElem?_mem ht) rfl
  unfold workerTake
  rcases hp : workerPick s with _ | ⟨q, e, rest⟩
  · obtain ⟨hx, hr⟩ := workerPick_eq_none.1 hp
    refine h.leave ht s.throttle _ (by simp [hx, hr]) fun hth => ?_
    obtain ⟨x, r, hxr, -⟩ := h.throttle_head ht hd hth
    simp [hr] at hxr
  obtain ⟨hq, hqr⟩ := workerPick_eq_some hp
  have hev : q = .express → e.isEventSet = false := fun h' => by
    subst h'; exact h.express_events e (by simp [← State.queue_express, hq])
  dsimp only
  split_ifs with hc
  · simp only [Bool.and_eq_true, decide_eq_true_eq] at hc
    refine h.leave ht true _ (fun _ => hc.2) fun _ => ⟨e, rest, ?_, hc.1⟩
    cases q
    · exact absurd hc.1 (by simp [hev rfl])
    · exact hq
  · refine ⟨by simpa using h.items, ?_, fun _ => by simpa using hpos, fun hth => ?_, ?_,
      fun x hx => ?_⟩
    · simpa [countP_set_of_eq (p := Thread.holdsItem) (b := .exec item w e q) ht rfl] using h.active_eq
    · obtain ⟨x, r, hxr, hx⟩ := h.throttle_head ht hd (by simpa using hth)
      cases q
      · exact .inl ⟨x, r, by simpa using hxr, hx⟩
      · obtain ⟨rfl, rfl⟩ : x = e ∧ r = rest := by simpa [hxr] using hq
        refine .inr ⟨?_, .exec item w x .regular, mem_set_self ht, hx⟩
        simp only [hx, Bool.true_and, decide_eq_true_eq, not_lt] at hc
        simp only [setQueue_active]; omega
    · cases q
      · have hxe : s.express = e :: rest := hq
        intro x hx
        exact h.express_events x (by rw [hxe]; exact List.mem_cons_of_mem _ (by simpa using hx))
      · simpa using h.express_events
    · rcases List.mem_or_eq_of_mem_set hx with hx | rfl
      · exact h.slots x hx
      · exact h.slots (.loop item w) (List.getElem?_mem ht)

/-- A worker pops an `EventSet` only from the regular queue, with the express queue empty and no
other thread holding a worker item. -/
lemma PoolInv.take_eventSet (h : PoolInv N s) {item item' : Nat} {w w' : WorkerLocals} {e : Entry}
    {q : Queue} (ht : s.threads[t]? = some (.loop item w))
    (he : (workerTake item w s).2 = .exec item' w' e q) (hev : e.isEventSet = true) :
    q = .regular ∧ (workerTake item w s).1.express = [] ∧
      ∀ u x, u ≠ t → s.threads[u]? = some x → x.holdsItem = false := by
  unfold workerTake at he ⊢
  rcases hp : workerPick s with _ | ⟨q', e', rest⟩ <;> rw [hp] at he
  · cases he
  obtain ⟨hq, hqr⟩ := workerPick_eq_some hp
  dsimp only at he ⊢
  split_ifs at he ⊢ with hc
  cases he
  have hreg : q = .regular := by
    cases q
    · exact absurd hev (by simp [h.express_events e (by simp [← State.queue_express, hq])])
    · rfl
  subst hreg
  simp only [hev, Bool.true_and, decide_eq_true_eq, not_lt] at hc
  refine ⟨rfl, by simpa using hqr rfl, fun u x hu hx => ?_⟩
  by_contra hxh
  have := two_le_countP (p := Thread.holdsItem) ht hx (Ne.symm hu) rfl (by simpa using hxh)
  rw [← h.active_eq] at this; omega

/-- The head of the loop (lines 473-506). -/
lemma PoolInv.workerTop (h : PoolInv N s) {item : Nat} {w : WorkerLocals}
    (ht : s.threads[t]? = some (.loop item w)) :
    PoolInv N { (workerTop item w s).1 with threads := s.threads.set t (workerTop item w s).2 } := by
  have htu : (s.threads.set t (.loop item (workerRequeue w s).2))[t]? =
      some (.loop item (workerRequeue w s).2) :=
    List.getElem?_set_self (List.getElem?_eq_some_iff.1 ht).1
  have := (h.requeue ht).take htu (by simp)
  rw [workerTake_threads, List.set_set] at this
  exact this

/-- A step that changes one thread, and the pool at most by one `CcPostWorkQueue` of an entry that
is not an `EventSet` if it goes to the express queue. -/
lemma PoolInv.stepThread (hN : 0 < N) (h : PoolInv N s) {th th' : Thread}
    (ht : s.threads[t]? = some th)
    (h1 : s1.pool = s.pool ∨
      ∃ e q, (q = .express → e.isEventSet = false) ∧ s1.pool = (ccPostWorkQueue e q s).pool)
    (hh : th'.holdsItem = th.holdsItem) (hs : th.settingEvent = true → th'.settingEvent = true)
    (hsl : ∀ p ∈ th'.slot, p.1.isEventSet = false) :
    PoolInv N { s1 with threads := s1.threads.set t th' } := by
  have hI : PoolInv N s1 := h1.elim h.congr fun ⟨e, q, hq, he⟩ => (h.post hN hq).congr he
  have ht1 : s1.threads[t]? = some th := by
    rcases h1 with he | ⟨e, q, -, he⟩
    · rwa [State.threads_eq_of_pool he]
    · rcases threads_of_pool_post he with h2 | ⟨i, h2⟩ <;> rw [h2]
      · exact ht
      · rw [List.getElem?_append_left (List.getElem?_eq_some_iff.1 ht).1]; exact ht
  exact hI.setThread ht1 hh hs hsl

/-- The thread the dispatch of lines 510-547 leaves: still holding its item, the `EventSet`'s
signaller with `DropThrottle` set, and re-queueing nothing new but a `WriteBehind`. -/
lemma workerDispatch_thread (item : Nat) (w : WorkerLocals) (e : Entry) (q : Queue) (io : IoStatus)
    (s : State) :
    (workerDispatch item w e q io s).2.holdsItem = true ∧
    (e.isEventSet = true → (workerDispatch item w e q io s).2.settingEvent = true) ∧
    ((workerDispatch item w e q io s).2.slot = w.requeue ∨
      (e.isEventSet = false ∧ (workerDispatch item w e q io s).2.slot = some (e, q))) := by
  unfold workerDispatch
  split <;> rename_i hw
  · exact ⟨rfl, by simp [Entry.isEventSet, hw], .inl rfl⟩
  · split_ifs
    · exact ⟨rfl, by simp [Entry.isEventSet, hw], .inr ⟨by simp [Entry.isEventSet, hw], rfl⟩⟩
    · exact ⟨rfl, by simp [Entry.isEventSet, hw], .inl (WorkerLocals.afterWriteBehind_requeue w io)⟩
  · exact ⟨rfl, fun _ => rfl, .inl rfl⟩
  · exact ⟨rfl, by simp [Entry.isEventSet, hw], .inl rfl⟩

/-- A scan step posts no `EventSet` to the express queue. -/
lemma scanStep_pool_post {T : Tunables} {inp : Input} {sc sc' : Scan} (hp : sc.Posting)
    (h : scanStep T inp s sc = some (s1, sc')) :
    s1.pool = s.pool ∨
      ∃ e q, (q = .express → e.isEventSet = false) ∧ s1.pool = (ccPostWorkQueue e q s).pool := by
  rcases scanStep_pool h with h | ⟨e, q, he, hpe | ⟨rfl, -⟩⟩
  · exact .inl h
  · exact .inr ⟨e, q, fun _ => by simp [Entry.isEventSet, hp e hpe], he⟩
  · exact .inr ⟨e, .regular, (fun h => by cases h), he⟩

/-- One step of the system keeps the invariant. -/
lemma PoolInv.step {T : Tunables} (hN : 0 < N) (h : PoolInv N s)
    (hps : ∀ th ∈ s.threads, ∀ sc, th.scan? = some sc → sc.Posting) (hs : Step T s s') :
    PoolInv N s' := by
  cases hs with
  | run ℓ hl =>
    cases ℓ with
    | schedule f => obtain ⟨-, -, rfl⟩ := step_schedule hl; exact h.congr (ccScheduleLazyWriteScan_pool f)
    | wait => obtain ⟨-, rfl⟩ := step_wait hl; exact h.congr ccWaitForCurrentLazyWriterActivity_pool
    | waitAllocate => obtain rfl := step_waitAllocate hl; exact h.congr rfl
    | waitInsert i => obtain ⟨-, e, -, rfl⟩ := step_waitInsert hl; exact h.congr (waitInsert_pool e)
    | scanDpcAllocate => obtain ⟨-, rfl⟩ := step_scanDpcAllocate hl; exact h.congr rfl
    | scanDpcPost i =>
      obtain ⟨e, -, rfl⟩ := step_scanDpcPost hl
      exact (h.post hN fun h => by cases h).congr (scanDpcPost_pool e i)
    | scanDpc ok =>
      obtain ⟨-, rfl⟩ := step_scanDpc hl
      rcases ccScanDpc_pool ok with he | he
      · exact h.congr he
      · exact (h.post hN fun h => by cases h).congr he
    | env a =>
      rcases envStep_pool hl with he | ⟨q, he⟩
      · exact h.congr he
      · exact (h.post hN (e := ⟨s.nextEntry, .readAhead⟩) fun _ => rfl).congr he
    | thread t inp =>
      obtain ⟨th, s1, th', ht, h1, rfl⟩ := step_thread hl
      have hslot : ∀ p ∈ th.slot, p.1.isEventSet = false := h.slots th (List.getElem?_mem ht)
      rcases threadStep_cases h1 with ⟨item, w, rfl, h2⟩ | ⟨item, w, e, q, rfl, -, h2⟩ |
        ⟨item, w, e, q, sc, rfl, -, rfl, rfl⟩ | ⟨item, w, e, q, sc, sc', rfl, h2, rfl⟩ |
        ⟨ok, rfl, rfl, rfl⟩ | ⟨sc, rfl, -, rfl, rfl⟩ | ⟨sc, sc', rfl, h2, rfl⟩
      · rw [show s1 = _ from congrArg Prod.fst h2, show th' = _ from congrArg Prod.snd h2,
          workerTop_threads]
        exact h.workerTop ht
      · rw [show s1 = _ from congrArg Prod.fst h2, show th' = _ from congrArg Prod.snd h2]
        obtain ⟨hh, hse, hsl | ⟨hev, hsl⟩⟩ := workerDispatch_thread item w e q inp.io s <;>
          refine h.stepThread hN ht (.inl (workerDispatch_pool ..)) hh hse ?_ <;> rw [hsl]
        · exact hslot
        · simpa using hev
      · exact h.stepThread hN ht (.inl rfl) rfl (fun h => by cases h) hslot
      · exact h.stepThread hN ht (scanStep_pool_post (hps _ (List.getElem?_mem ht) sc rfl) h2) rfl
          (fun h => by cases h) hslot
      · exact h.stepThread hN ht (.inl rfl) (by unfold workerExit; split_ifs <;> rfl)
          (fun h => by cases h) (by unfold workerExit; split_ifs <;> simp [Thread.slot])
      · exact h.stepThread hN ht (.inl rfl) rfl (fun h => by cases h) (by simp [Thread.slot])
      · exact h.stepThread hN ht (scanStep_pool_post (hps _ (List.getElem?_mem ht) sc rfl) h2) rfl
          (fun h => by cases h) hslot
  | insertStream => exact h.congr rfl
  | removeStream => exact h.congr rfl

lemma PoolInv.init (N : Nat) : PoolInv N (State.init N) :=
  ⟨by simp [State.init], rfl, by simp [State.init], by simp [State.init], by simp [State.init],
    by simp [State.init]⟩

end Preservation

/-- The invariant holds along every run. -/
lemma Reachable.pool {T : Tunables} {N : Nat} {s : State} (hN : 0 < N) (h : Reachable T N s) :
    PoolInv N s := by
  induction h with
  | init => exact PoolInv.init N
  | step hr hs ih => exact ih.step hN hr.posting hs

/-- The schedule of `requeue_overtakes_event` before the call: stream 2 is dirty; the timer scan
(thread 0) posts its `WriteBehind` (entry 1), which wakes worker item 1 (thread 1), and thread 1
pops it; the scan ends its walk and releases the master lock. -/
def barrierPrefix : List Label :=
  [.env (.setStream 2 100 1 4096 false false false), .env (.setTotalDirtyPages 100),
    .schedule false, .scanDpc true] ++ List.replicate 6 (.thread 0 ⟨true, true, ⟨true, false, false⟩⟩) ++
    [.thread 1 ⟨true, true, ⟨true, false, false⟩⟩] ++ List.replicate 3 (.thread 0 ⟨true, true, ⟨true, false, false⟩⟩)

/-- The state of `requeue_overtakes_event` at the call: the timer scan (thread 0) has walked the
dirty list, posted a `WriteBehind` of stream 2 (entry 1) and released the master lock; its
`LazyWriteScan` (entry 0) and the `WriteBehind`, popped by thread 1, are executing. -/
def barrierStart : State :=
  (runAll ⟨1000, false, 16⟩ barrierPrefix { State.init 2 with
    links := (State.init 2).links.insertTailList ccDirtySharedCacheMapList 2 }).getD (State.init 2)

lemma barrierStart_reachable : Reachable ⟨1000, false, 16⟩ 2 barrierStart := by
  have h1 : (runAll ⟨1000, false, 16⟩ barrierPrefix { State.init 2 with
      links := (State.init 2).links.insertTailList ccDirtySharedCacheMapList 2 }).isSome := by
    decide
  exact (Reachable.init_stream ⟨1000, false, 16⟩ 2 2 (by decide)).runAll_getD h1 (State.init 2)

/-- The worker pool, from the initial pool of `N ≥ 1` idle items, over every run of the system:
(a) the items are idle or counted active and the count is the number of threads holding an item
(threads executing an entry or a scan included), (b) queued work has an active worker, (c) the
throttle stands for an `EventSet` at the head of the regular queue or signalled by the sole active
worker, and (d) a worker pops an `EventSet` only with the express queue empty and no other worker
holding an item. -/
theorem pool_invariant {T : Tunables} {N : Nat} (hN : 1 ≤ N) {s : State} (hs : Reachable T N s) :
    s.idle.length + s.active = N ∧ s.active = s.threads.countP Thread.holdsItem ∧
    (s.express ≠ [] ∨ s.regular ≠ [] → 1 ≤ s.active) ∧
    (s.throttle = true →
      (∃ e rest, s.regular = e :: rest ∧ e.isEventSet = true) ∨
      (s.active = 1 ∧ ∃ th ∈ s.threads, th.settingEvent = true)) ∧
    (∀ t inp s' item w item' w' e q, step T (.thread t inp) s = some s' →
      s.threads[t]? = some (.loop item w) → s'.threads[t]? = some (.exec item' w' e q) →
      e.isEventSet = true →
      q = .regular ∧ s'.express = [] ∧
        ∀ u x, u ≠ t → s'.threads[u]? = some x → x.holdsItem = false) := by
  have h := hs.pool hN
  refine ⟨h.items, h.active_eq, h.busy, h.throttled, ?_⟩
  intro t inp s' item w item' w' e q hl ht ht' hev
  obtain ⟨th, s1, th', ht1, h1, rfl⟩ := step_thread hl
  rw [ht] at ht1; cases ht1
  obtain ⟨rfl, rfl⟩ : s1 = (workerTop item w s).1 ∧ th' = (workerTop item w s).2 := by
    simp only [threadStep, Option.some.injEq] at h1; rw [h1]; exact ⟨rfl, rfl⟩
  have hlt := (List.getElem?_eq_some_iff.1 ht).1
  rw [workerTop_threads, List.getElem?_set_self hlt] at ht'
  replace ht' := Option.some.inj ht'
  have hu : (s.threads.set t (.loop item (workerRequeue w s).2))[t]? =
      some (.loop item (workerRequeue w s).2) := List.getElem?_set_self hlt
  obtain ⟨hq, hx, ho⟩ := (h.requeue ht).take_eventSet hu (by rw [workerTake_threads]; exact ht') hev
  rw [workerTake_threads] at hx
  refine ⟨hq, hx, fun u x hut hx' => ho u x hut ?_⟩
  simpa [workerTop_threads, List.getElem?_set_ne (Ne.symm hut)] using hx'


theorem pool_invariant_two_busy :
    barrierStart.idle = [] ∧ barrierStart.idle.length + barrierStart.active = 2 ∧
      barrierStart.active = barrierStart.threads.countP Thread.holdsItem ∧ barrierStart.active = 2 := by
  have h := pool_invariant (by decide) barrierStart_reachable
  exact ⟨by decide, h.1, h.2.1, by decide⟩

/-- The schedule after the call: thread 0 finishes and goes idle; the next timer scan (thread 2)
moves the `EventSet` to the regular queue, sees it at the head with two active workers, throttles
and goes idle; the `WriteBehind` of thread 1 returns `CC_REQUEUE`, and thread 1 puts it back
behind the `EventSet`, pops the `EventSet` as the sole active worker and signals it. -/
def barrierSuffix : List Label :=
  List.replicate 4 (.thread 0 ⟨true, true, ⟨true, false, false⟩⟩) ++ [.scanDpc true] ++
    List.replicate 11 (.thread 2 ⟨true, true, ⟨true, false, false⟩⟩) ++
    [.thread 1 ⟨true, true, ⟨true, true, false⟩⟩, .thread 1 ⟨true, true, ⟨true, false, false⟩⟩,
      .thread 1 ⟨true, true, ⟨true, false, false⟩⟩]

/-- A `WriteBehind` executing when `CcWaitForCurrentLazyWriterActivity` queues its `EventSet`
(entry `s₁.nextEntry`) is re-queued, and is back in the regular queue when the event is signalled:
`CC_REQUEUE` puts it behind the `EventSet` (lines 481-483). -/
theorem requeue_overtakes_event :
    ∃ s₁ s₂ : State, Reachable ⟨1000, false, 16⟩ 2 s₁ ∧
      (∃ ls, runAll ⟨1000, false, 16⟩ (.wait :: ls) s₁ = some s₂) ∧
      s₁.threads[1]? = some (.exec 1 .init ⟨1, .writeBehind 2⟩ .regular) ∧
      ⟨1, .writeBehind 2⟩ ∈ s₂.regular ∧ s₁.nextEntry ∈ s₂.signaled := by
  have h2 : (runAll ⟨1000, false, 16⟩ (.wait :: barrierSuffix) barrierStart).isSome := by
    decide
  exact ⟨_, _, barrierStart_reachable, ⟨_, runAll_eq_getD h2 (State.init 2)⟩, by decide, by decide,
    by decide⟩

end LazyWriter
