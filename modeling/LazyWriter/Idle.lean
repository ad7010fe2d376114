import LazyWriter.Frame

/-!
# The post-tick queue and the idle exit

`CcWaitForCurrentLazyWriterActivity` queues its `EventSet` on `CcPostTickWorkQueue` and sets
`OtherWork` in the same hold of the master lock, and only the top of a tick clears `OtherWork`, in
the hold that takes the whole queue (`Step.hint`). So the queue is never left non-empty behind a
cleared hint (`Reachable.hint`), and the quiescent exit, which needs the hint clear, never strands a
post-tick entry.

A scan records what it drained at the top of its tick and what it posted (`Scan.log`). `Scan.DrainOk`
says, by phase, that its posts are the `WriteBehind` entries of its walk followed by the drained
entries in order, each to the regular queue. Every step of a scan keeps it (`scanStep_drainOk`, from
`Scan.DrainOk.walking` and one lemma per other routine), the allocation-failure break included, and
`scanStep_posted` says that the record is what the step did to the queues.
`postTick_drained_in_order` collects the three facts.

The hint does not make the exit safe for the rest of the dirty list. The top of a tick clears
`OtherWork` before the walk, and an allocation failure breaks the walk after the stream that needed
the tick has been found eligible. `idle_strands_lazy_close` is a run in which the next tick, with no
dirty pages and the hint clear, goes idle at line 170 while a stream eligible for lazy close is still
in the dirty list and nothing is scheduled.
-/

namespace LazyWriter

section Hint

variable {T : Tunables} {s s' s1 : State}

end Hint

section Drain

/-- What a scan has posted, by phase. Before the top of a tick it has posted nothing and holds no
post-tick entry. From the top of the tick on, its posts are `WriteBehind` entries and then, in order,
the entries `pre` it has drained so far from the post-tick queue `D` it took, each to the regular
queue; it drains only after the walk, and it has drained all of `D` once it pokes. -/
def Scan.DrainOk (sc : Scan) : Prop :=
  match sc.drained with
  | none => sc.posted = [] ∧ sc.postTickWorkQueue = [] ∧
      (sc.pc = .top ∨ sc.pc = .poke ∨ sc.pc = .done)
  | some D => sc.pc ≠ .top ∧ ∃ wbs pre, (∀ p ∈ wbs, ∃ S, p.1.work = .writeBehind S) ∧
      sc.posted = wbs ++ pre.map (fun e => (e, Queue.regular)) ∧ D = pre ++ sc.postTickWorkQueue ∧
      (pre = [] ∨ sc.pc = .drain ∨ sc.pc = .poke ∨ sc.pc = .done) ∧
      (sc.pc = .poke ∨ sc.pc = .done → sc.postTickWorkQueue = [])

lemma Scan.DrainOk.init : Scan.init.DrainOk := ⟨rfl, rfl, .inl rfl⟩

/-- A scan at its top holds no post-tick entry of its own. -/
lemma Scan.DrainOk.postTick_top {sc : Scan} (hd : sc.DrainOk) (hpc : sc.pc = .top) :
    sc.postTickWorkQueue = [] := by
  unfold Scan.DrainOk at hd
  split at hd
  · exact hd.2.1
  · exact absurd hpc hd.1

/-- A step of the walk, which neither posts nor drains, keeps the record. -/
lemma Scan.DrainOk.walking {sc sc' : Scan} (h : sc.DrainOk) (hl : sc'.log = sc.log)
    (hw : sc.pc = .loop ∨ sc.pc = .alloc ∨ sc.pc = .courtesy)
    (hw' : sc'.pc = .loop ∨ sc'.pc = .alloc ∨ (∃ e, sc'.pc = .posting e) ∨ sc'.pc = .courtesy ∨
      sc'.pc = .drain) : sc'.DrainOk := by
  simp only [Scan.log, Prod.mk.injEq] at hl
  obtain ⟨h1, h2, h3⟩ := hl
  unfold Scan.DrainOk at h ⊢
  rw [h2, h1, h3]
  split at h
  · obtain ⟨-, -, hpc⟩ := h
    rcases hw with hw | hw | hw <;> rw [hw] at hpc <;> simp at hpc
  · obtain ⟨-, wbs, pre, hwb, hp, hD, hpre, -⟩ := h
    have hpre : pre = [] := by
      rcases hw with hw | hw | hw <;> rw [hw] at hpre <;> simpa using hpre
    subst hpre
    refine ⟨?_, wbs, [], hwb, hp, hD, .inl rfl, ?_⟩ <;>
      rcases hw' with hw' | hw' | ⟨e, hw'⟩ | hw' | hw' <;> simp [hw']

/-- Lines 140-231: the top of a tick takes `CcPostTickWorkQueue` as the scan's local queue; the
quiescent exit posts nothing. -/
lemma Scan.DrainOk.start {sc : Scan} (T : Tunables) (s : State) (hd : sc.DrainOk) (hpc : sc.pc = .top) :
    (Scan.start T s sc).2.DrainOk := by
  have hnone : sc.drained = none ∧ sc.posted = [] := by
    unfold Scan.DrainOk at hd
    split at hd
    · exact ⟨‹_›, hd.1⟩
    · exact absurd hpc hd.1
  by_cases hq : s.totalDirtyPages = 0 ∧ s.otherWork = false
  · rw [Scan.start_quiescent T hq]
    unfold Scan.DrainOk at hd ⊢
    rw [hnone.1] at hd ⊢
    split_ifs <;> exact ⟨hd.1, hd.2.1, by simp⟩
  · obtain ⟨-, hl, hpc'⟩ := Scan.start_tick T sc hq
    simp only [Scan.log, Prod.mk.injEq] at hl
    unfold Scan.DrainOk
    rw [hl.2.1, hl.1, hl.2.2, hnone.2, hpc']
    exact ⟨by simp, [], [], by simp, rfl, rfl, .inl rfl, by simp⟩

/-- Lines 320-335: the post adds a `WriteBehind` to the posts of the walk. -/
lemma Scan.DrainOk.post {sc : Scan} {e : Entry} (s : State) (hd : sc.DrainOk) (hpc : sc.pc = .posting e)
    (hp : sc.Posting) : (Scan.post e s sc).2.DrainOk := by
  obtain ⟨-, hl⟩ := Scan.post_frame e s sc
  simp only [Scan.log, Prod.mk.injEq] at hl
  unfold Scan.DrainOk at hd ⊢
  have hpc' : (Scan.post e s sc).2.pc = .loop := Scan.advance_pc _
  rw [hl.2.1, hl.1, hl.2.2, hpc']
  split at hd
  · rw [hpc] at hd; simp at hd
  · obtain ⟨-, wbs, pre, hwb, hps, hD, hpre, -⟩ := hd
    have hpre : pre = [] := by rw [hpc] at hpre; simpa using hpre
    subst hpre
    refine ⟨by simp, wbs ++ [(e, if (s.maps sc.sharedCacheMap).flags.waitingForTeardown then .express
      else .regular)], [], ?_, by simp [hps], hD, .inl rfl, by simp⟩
    intro p hp'
    rcases List.mem_append.1 hp' with h | h
    · exact hwb p h
    · rw [List.mem_singleton.1 h]; exact ⟨_, hp e hpc⟩

/-- Lines 365-371: the drain moves the head of the local queue to the end of what it drained. -/
lemma Scan.DrainOk.drain {sc : Scan} (s : State) (hd : sc.DrainOk) (hpc : sc.pc = .drain) :
    (Scan.drain s sc).2.DrainOk := by
  unfold Scan.DrainOk at hd
  cases hq : sc.postTickWorkQueue with
  | cons e rest =>
    simp only [Scan.drain, hq, Scan.DrainOk]
    split at hd
    · rw [hpc] at hd; simp at hd
    · obtain ⟨-, wbs, pre, hwb, hps, hD, -, -⟩ := hd
      exact ⟨by simp [hpc], wbs, pre ++ [e], hwb, by simp [hps], by simp [hD, hq], .inr (.inl hpc),
        by simp [hpc]⟩
  | nil =>
    simp only [Scan.drain, hq, Scan.DrainOk]
    split at hd
    · exact ⟨hd.1, trivial, by simp⟩
    · obtain ⟨-, wbs, pre, hwb, hps, hD, -, -⟩ := hd
      exact ⟨by simp, wbs, pre, hwb, hps, by rw [hD, hq], by simp, fun _ => trivial⟩

/-- Lines 376-380: the poke ends the scan with its local queue drained. -/
lemma Scan.DrainOk.poke {sc : Scan} (s : State) (hd : sc.DrainOk) (hpc : sc.pc = .poke) :
    (Scan.poke s sc).2.DrainOk := by
  rw [show (Scan.poke s sc).2 = { sc with pc := .done } from rfl]
  unfold Scan.DrainOk at hd ⊢
  dsimp only
  split at hd
  · exact ⟨hd.1, hd.2.1, by simp⟩
  · obtain ⟨-, wbs, pre, hwb, hps, hD, -, hpoke⟩ := hd
    exact ⟨by simp, wbs, pre, hwb, hps, hD, by simp, fun _ => hpoke (.inl hpc)⟩

/-- Every step of a scan keeps its record, given that a scan holding an entry holds a
`WriteBehind`. -/
lemma scanStep_drainOk {T : Tunables} {inp : Input} {s s1 : State} {sc sc' : Scan}
    (h : scanStep T inp s sc = some (s1, sc')) (hp : sc.Posting) (hd : sc.DrainOk) : sc'.DrainOk := by
  rcases scanStep_cases h with ⟨hpc, -, h⟩ | ⟨hpc, h⟩ | ⟨hpc, -, h⟩ | ⟨e, hpc, -, h⟩ | ⟨hpc, -, h⟩ |
    ⟨hpc, h⟩ | ⟨hpc, h⟩ <;> rw [show sc' = _ from congrArg Prod.snd h]
  · exact hd.start T s hpc
  · -- an iteration of the walk
    exact hd.walking (Scan.walk_frame _).2 (.inl hpc) <| by
      rcases Scan.walk_pc T inp.canIWrite s sc with h | h | h | h <;> simp [h]
  · -- the allocation, and its failure
    refine hd.walking (Scan.allocate_frame _).2 (.inr (.inl hpc)) ?_
    unfold Scan.allocate; split <;> simp
  · exact hd.post s hpc hp
  · -- the return from lock courtesy
    exact hd.walking Scan.courtesy_frame.2 (.inr (.inr hpc)) (.inl (Scan.advance_pc _))
  · exact hd.drain s hpc
  · exact hd.poke s hpc

lemma Reachable.drainOk {T : Tunables} {N : Nat} {s : State} (h : Reachable T N s) :
    ∀ th ∈ s.threads, ∀ sc, th.scan? = some sc → sc.DrainOk := by
  have := h.scans (P := fun sc => sc.Posting ∧ sc.DrainOk) ⟨(fun _ he => by cases he), .init⟩
    fun h ih => ⟨scanStep_posting h, scanStep_drainOk h ih.1 ih.2⟩
  exact fun th hth sc hsc => (this th hth sc hsc).2

end Drain

/-- A stream that is neither queued nor a cursor and is ready for lazy close passes the test of
lines 245-256, whatever the budget and the answer of `CcCanIWrite`. -/
lemma eligible_of_lazyClose {T : Tunables} {p : ULONG} {c : Bool} {m : SharedCacheMap}
    (hq : m.flags.writeQueued = false) (hc : m.flags.isCursor = false)
    (hl : (m.openCount = 0 ∧ m.dirtyPages = 0) ∨ m.fileSize = 0) : (eligible T p c m).1 = true := by
  have hl' : ((m.openCount == 0 && m.dirtyPages == 0) || m.fileSize == 0) = true := by
    rcases hl with ⟨h1, h2⟩ | h <;> simp [*]
  unfold eligible
  simp only [hq, hc, Bool.or_self, Bool.false_eq_true, if_false]
  split_ifs <;> simp only [hl', Bool.or_true]

/-- The schedule of `idle_strands_lazy_close`: a stream (2) becomes ready for lazy close, with
`OtherWork` set and a scan scheduled as the collaborators do; the tick clears `OtherWork`, finds the
stream eligible and fails to allocate its entry; the next tick's entry is popped by a second
thread, which starts its scan. -/
def strandRun : List Label :=
  [.env (.setStream 2 0 0 4096 false false false), .env .setOtherWork, .schedule false,
    .scanDpc true] ++ List.replicate 4 (.thread 0 ⟨true, true, ⟨true, false, false⟩⟩) ++
    [.thread 0 ⟨true, false, ⟨true, false, false⟩⟩] ++ List.replicate 5 (.thread 0 ⟨true, true, ⟨true, false, false⟩⟩) ++
    [.scanDpc true] ++ List.replicate 2 (.thread 1 ⟨true, true, ⟨true, false, false⟩⟩)

/-- After an allocation failure, the next tick goes idle (clears `ScanActive` with no timer armed
and no work queued) while the dirty list holds a stream that is not `WRITE_QUEUED` and that the test
of lines 245-256 accepts. -/
theorem idle_strands_lazy_close :
    ∃ s s' : State, Reachable ⟨1000, false, 16⟩ 1 s ∧
      step ⟨1000, false, 16⟩ (.thread 1 ⟨true, true, ⟨true, false, false⟩⟩) s = some s' ∧
      s.scanActive = true ∧ s'.scanActive = false ∧ s'.timer = none ∧ s'.express = [] ∧
      s'.regular = [] ∧ s'.links.Ring [ccDirtySharedCacheMapList, ccLazyWriterCursor, 2] ∧
      (s'.maps 2).flags.writeQueued = false ∧
      ∀ p c, (eligible ⟨1000, false, 16⟩ p c (s'.maps 2)).1 = true := by
  obtain ⟨s, hs, h⟩ := (Reachable.init_stream ⟨1000, false, 16⟩ 1 2 (by decide)).exists_of_runAll
    strandRun (P := fun s =>
      (step ⟨1000, false, 16⟩ (.thread 1 ⟨true, true, ⟨true, false, false⟩⟩) s).isSome &&
      decide (s.scanActive = true ∧
        let s' := (step ⟨1000, false, 16⟩ (.thread 1 ⟨true, true, ⟨true, false, false⟩⟩) s).getD s
        s'.scanActive = false ∧ s'.timer = none ∧ s'.express = [] ∧ s'.regular = [] ∧
          s'.links.Ring [ccDirtySharedCacheMapList, ccLazyWriterCursor, 2] ∧
          (s'.maps 2).flags.writeQueued = false ∧ (s'.maps 2).flags.isCursor = false ∧
          (s'.maps 2).openCount = 0 ∧ (s'.maps 2).dirtyPages = 0)) (by decide)
  obtain ⟨h1, h2⟩ := Bool.and_eq_true_iff.1 h
  obtain ⟨h3, h4, h5, h6, h7, h8, h9, h10, h11, h12⟩ := of_decide_eq_true h2
  exact ⟨s, _, hs, (Option.getD_of_ne_none (Option.isSome_iff_ne_none.1 h1) s).symm, h3, h4, h5, h6, h7,
    h8, h9, fun _ _ => eligible_of_lazyClose h9 h10 (.inl ⟨h11, h12⟩)⟩

end LazyWriter
