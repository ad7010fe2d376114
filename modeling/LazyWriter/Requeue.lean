import Mathlib.Data.List.Perm.Basic
import LazyWriter.Barrier
import LazyWriter.Timer

/-!
# Re-queued entries at the barrier

`Waiting` lets an entry of the snapshot taken by `CcWaitForCurrentLazyWriterActivity` escape the
barrier only as a `WriteBehind` that a worker keeps to re-queue (lines 520-521). This module says
where such an entry is when a worker pops the `EventSet` `E` of the call: on the regular queue,
behind `E`.

At the pop the express queue is empty, nothing executes, and the popping worker is the only one
holding its item, so the only requeue slot is its own, and the same step puts that entry at the tail
of the regular queue (lines 481-484; the guard of `Step.moves`). The post-tick queues hold `EventSet`
entries only (`Reachable.postTickEvents`), and the callers and the DPCs hold `EventSet` and
`LazyWriteScan` entries (`Reachable.pendingWork`). The one other place a `WriteBehind` can be is the
entry a scan has allocated and not posted yet (`Thread.allocated`), and `Kept` says that an entry of
the snapshot never becomes one: a scan allocates only the fresh entry (`Step.allocated`), and at the
call no entry on a queue or executing is an entry a scan has allocated (`Reachable.not_allocated`).

`Waiting.pop` reads the place of each entry of the snapshot at the pop, `Run.behind` carries
`Waiting` and `Kept` along a run up to it, and `barrier_holds_except_requeued_write_behinds` states
the barrier at the pop and at the signal.
-/

namespace LazyWriter

/-- The entry the scan of a thread has allocated and not posted (lines 307-329). -/
def Thread.allocated (th : Thread) : List Entry := (th.scan?.map Scan.allocated).getD []

lemma Thread.holding_eq (th : Thread) : th.holding = th.held ++ th.allocated := rfl

lemma WorkerLocals.mem_slotEntries {w : WorkerLocals} {b : Entry} (h : b ∈ w.slotEntries) :
    ∃ q, w.requeue = some (b, q) := by
  rcases hw : w.requeue with _ | ⟨b', q⟩ <;> simp [WorkerLocals.slotEntries, hw] at h
  exact ⟨q, by rw [h]⟩

/-- The places the worker loop names: the entry a thread executes, its requeue slot, or the local
`PostTickWorkQueue` of its scan. -/
lemma Thread.mem_held {th : Thread} {b : Entry} (h : b ∈ th.held) :
    b ∈ th.executing ∨ (∃ q, th.slot = some (b, q)) ∨
      ∃ sc, th.scan? = some sc ∧ b ∈ sc.postTickWorkQueue := by
  cases th with
  | loop _ w => exact .inr (.inl (WorkerLocals.mem_slotEntries h))
  | exec _ w e _ =>
    rcases List.mem_cons.1 h with rfl | h
    · exact .inl (List.mem_singleton_self _)
    · exact .inr (.inl (WorkerLocals.mem_slotEntries h))
  | scan _ w e _ sc =>
    simp only [Thread.held, List.cons_append, List.mem_cons, List.mem_append] at h
    rcases h with rfl | h | h
    · exact .inl (List.mem_singleton_self _)
    · exact .inr (.inl (WorkerLocals.mem_slotEntries h))
    · exact .inr (.inr ⟨sc, rfl, h⟩)
  | rescan sc => exact .inr (.inr ⟨sc, rfl, h⟩)
  | exited => cases h
  | done => cases h

section Allocated

variable {T : Tunables} {N : Nat} {s s' : State}

/-- A step of a scan holds no allocated entry but the fresh one of line 307. -/
lemma scanStep_allocated {inp : Input} {s1 : State} {sc sc' : Scan}
    (h : scanStep T inp s sc = some (s1, sc')) : ∀ e ∈ sc'.allocated, e.addr = s.nextEntry := by
  rcases scanStep_cases h with ⟨-, -, h⟩ | ⟨-, h⟩ | ⟨-, -, h⟩ | ⟨e, -, -, h⟩ | ⟨-, -, h⟩ |
    ⟨hpc, h⟩ | ⟨-, h⟩ <;> rw [show sc' = _ from congrArg Prod.snd h]
  · unfold Scan.start; split_ifs <;> simp [Scan.allocated]
  · dsimp only [Scan.walk]; split_ifs <;> simp [Scan.allocated, Scan.advance_pc]
  · unfold Scan.allocate; split <;> simp [Scan.allocated, ccAllocateWorkQueueEntry]
  · simp [Scan.post, Scan.allocated, Scan.advance_pc]
  · simp [Scan.courtesy, Scan.allocated, Scan.advance_pc]
  · unfold Scan.drain; split <;> simp [Scan.allocated, hpc]
  · simp [Scan.poke, Scan.allocated]

/-- After a step, an entry a scan holds allocated was held so before, or is the fresh one. -/
lemma Step.allocated (h : Step T s s') :
    ∀ th' ∈ s'.threads, ∀ e ∈ th'.allocated, (∃ th ∈ s.threads, e ∈ th.allocated) ∨
      e.addr = s.nextEntry := by
  intro th' hm e he
  rcases h.threads_mem hm with hm | ⟨i, rfl⟩ | ⟨inp, th, s1, -, h1⟩
  · exact .inl ⟨th', hm, he⟩
  · cases he
  · rcases hsc : th'.scan? with _ | sc'
    · simp [Thread.allocated, hsc] at he
    rw [Thread.allocated, hsc] at he
    rcases threadStep_scan? h1 hsc with rfl | ⟨sc, -, h2⟩
    · cases he
    · exact .inr (scanStep_allocated h2 e (by simpa using he))

end Allocated

section Kept

variable {T : Tunables} {N : Nat} {s s' : State}

/-- An entry of the barrier's snapshot along the run: freed, or still allocated, older than the next
allocation, and not an entry a scan holds allocated. -/
def Kept (b : Entry) (s : State) : Prop :=
  b.addr ∈ s.freed ∨ (b ∈ s.entries ∧ b.addr < s.nextEntry ∧ ∀ th ∈ s.threads, b ∉ th.allocated)

/-- Every step keeps `Kept`: a scan allocates only the fresh entry. -/
lemma Kept.step (hr : Reachable T N s) (h : Step T s s') {b : Entry} (hk : Kept b s) : Kept b s' := by
  rcases hk with hf | ⟨he, hlt, hna⟩
  · exact .inl (h.freed_prefix.subset hf)
  by_cases hf : b.addr ∈ s'.freed
  · exact .inl hf
  have hent := h.entries hr.drainOk hr.slotFree
  have hnext : s.nextEntry ≤ s'.nextEntry := by
    rcases hent with ⟨-, h1, -⟩ | ⟨-, -, h1, -⟩ | ⟨-, -, h1, -⟩ <;> omega
  refine .inr ⟨hent.mem he hf, by omega, fun th' hm hba => ?_⟩
  rcases h.allocated th' hm b hba with ⟨th, hth, hb⟩ | hb
  · exact hna th hth hb
  · omega

end Kept

section Pop

variable {T : Tunables} {N : Nat} {s s' : State} {E : Entry} {B : List Entry} {esc : Entry → Prop}

/-- An `EventSet` that executes goes on executing until it is freed. -/
lemma Step.running_or_freed (hr : Reachable T N s) (hN : 0 < N) (hE : E.isEventSet = true)
    (h : Step T s s') (hx : E ∈ s.running) : E ∈ s'.running ∨ E.addr ∈ s'.freed := by
  cases h.moves hr hN with
  | keep _ _ h3 => exact .inl (h3.mem_iff.2 hx)
  | popExpress e _ _ _ h4 => exact .inl (h4.mem_iff.2 (List.mem_cons_of_mem _ hx))
  | popRegular e _ _ _ h4 => exact .inl (h4.mem_iff.2 (List.mem_cons_of_mem _ hx))
  | free e h1 _ _ h4 =>
    rcases List.mem_cons.1 (h1.mem_iff.1 hx) with rfl | hm
    · exact .inr (h4 ▸ List.mem_append_right _ (List.mem_singleton_self _))
    · exact .inl hm
  | stash e h1 _ _ _ _ h6 =>
    rcases List.mem_cons.1 (h1.mem_iff.1 hx) with rfl | hm
    · obtain ⟨⟨S, hS⟩, -⟩ := h6
      simp [Entry.isEventSet, hS] at hE
    · exact .inl hm

/-- The step in which a worker pops `E`: every entry of the snapshot has been freed, or has escaped,
and an escaped `WriteBehind` is on the regular queue behind `E`. It is in no other place: not on the
express queue, which is empty, not executing, not in a post-tick queue or held by a caller or a DPC,
which hold other entries, and not the entry a scan holds allocated (`Kept`); so it is on the regular
queue behind `E`, or in the requeue slot of the popping worker, which puts it there. -/
lemma Waiting.pop (hr : Reachable T N s) (hN : 0 < N) (hE : E.isEventSet = true)
    (hw : Waiting E B esc s) (hk : ∀ b ∈ B, Kept b s) (h : Step T s s') (hpop : E ∈ s'.running) :
    ∀ b ∈ B, b.addr ∈ s'.freed ∨ (esc b ∧ ((∃ S, b.work = .writeBehind S) → b ∈ s'.regular)) := by
  cases h.moves hr hN with
  | keep _ _ h3 => exact absurd (h3.mem_iff.1 hpop) hw.idle
  | popExpress e _ _ h3 h4 =>
    rcases List.mem_cons.1 (h4.mem_iff.1 hpop) with rfl | hm
    · rw [hE] at h3; cases h3
    · exact absurd hm hw.idle
  | free e h1 => exact absurd (h1.mem_iff.2 (List.mem_cons_of_mem _ hpop)) hw.idle
  | stash e h1 => exact absurd (h1.mem_iff.2 (List.mem_cons_of_mem _ hpop)) hw.idle
  | popRegular e h1 _ h3 h4 h5 _ h7 =>
    obtain rfl : E = e := (List.mem_cons.1 (h4.mem_iff.1 hpop)).resolve_right hw.idle
    obtain ⟨hrun, hslot⟩ := h7 hE
    have hnil : s.ahead E = [] := by
      simpa [State.ahead, h1, hrun, List.takeWhile_cons] using IsPrefix.takeWhile (· != E) h3
    intro b hb
    rcases hw.ahead b hb with hf | hm | hc
    · exact .inl (h5 ▸ hf)
    · rw [hnil] at hm; cases hm
    rcases hk b hb with hf | ⟨he, -, hna⟩
    · exact .inl (h5 ▸ hf)
    refine .inr ⟨hc, fun ⟨S, hS⟩ => ?_⟩
    have hev := hr.postTickEvents
    have hpw := hr.pendingWork
    have hne : b ≠ E := by rintro rfl; simp [Entry.isEventSet, hS] at hE
    simp only [State.entries, State.pooled, State.pending, List.mem_append] at he
    rcases he with (((hpt | hx) | hreg) | hth) | hc | hd
    · simp [hev.postTick b hpt] at hS
    · rw [h1] at hx; cases hx
    · exact (List.mem_cons.1 (h3.subset hreg)).resolve_left hne
    · obtain ⟨th, hth, hb⟩ := List.mem_flatMap.1 hth
      rcases List.mem_append.1 (Thread.holding_eq th ▸ hb) with hb | hb
      · rcases Thread.mem_held hb with hx | ⟨q, hq⟩ | ⟨sc, hsc, hq⟩
        · have hx' : b ∈ s.running := List.mem_flatMap.2 ⟨th, hth, hx⟩
          rw [hrun] at hx'; cases hx'
        · exact hslot th hth b q hq
        · simp [hev.scans th hth sc hsc b hq] at hS
      · exact absurd hb (hna th hth)
    · simp [hpw.callers b hc] at hS
    · simp [hpw.dpcs b hd] at hS

/-- Along a run from a reachable state where `Waiting` holds, with escapes as `WriteBehind`
entries: the states stay reachable, the entries of the snapshot stay `Kept`, and `Waiting` holds
until a worker pops `E`, which then executes until it is freed. -/
lemma Run.behind (hN : 0 < N) (hE : E.isEventSet = true) (hr : Reachable T N s) {s₁ : State}
    (hrun : Run T s s₁) (hw : Waiting E B (fun e => ∃ S, e.work = .writeBehind S) s)
    (hk : ∀ b ∈ B, Kept b s) :
    Reachable T N s₁ ∧ (∀ b ∈ B, Kept b s₁) ∧
      (Waiting E B (fun e => ∃ S, e.work = .writeBehind S) s₁ ∨ E ∈ s₁.running ∨ E.addr ∈ s₁.freed) := by
  induction hrun with
  | refl => exact ⟨hr, hk, .inl hw⟩
  | tail _ h ih =>
    obtain ⟨hr1, hk1, hw1⟩ := ih
    refine ⟨hr1.step h, fun b hb => (hk1 b hb).step hr1 h, ?_⟩
    rcases hw1 with hw1 | hx | hf
    · rcases hw1.step hr1 hN hE h fun _ he _ => he with ⟨hx, -⟩ | hw2
      · exact .inr (.inl hx)
      · exact .inl hw2
    · exact .inr (h.running_or_freed hr1 hN hE hx)
    · exact .inr (.inr (h.freed_prefix.subset hf))

end Pop

end LazyWriter
