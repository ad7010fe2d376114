import LazyWriter.Places
import LazyWriter.Cursor
import Mathlib.Algebra.BigOperators.Group.List
import Mathlib.Algebra.Order.Ring.Nat

/-!
# Who holds `WRITE_QUEUED`

`WRITE_QUEUED` of a stream `S` stands for one holder. The scan becomes the holder when it sets the
flag, at the dispatch of line 301 or the lock courtesy of line 339 (`Scan.pins`); it hands the flag
to the `WriteBehind` entry it allocates at line 308, or gives it up at lines 314 and 344; the entry
keeps it while it is queued, in a requeue slot or executed, until `CcWriteBehind` clears it without
returning `CC_REQUEUE`. `State.owners` counts the `WriteBehind` entries of `S` (all of
`State.entries`, the one a scan has allocated included) and the pins of `S`, and `OwnerInv` says
that they number one while the flag is set and none otherwise.

`HolderStep` says what one step of a scan does for a stream: to its holders, to its flag and to its
`DirtyPages`. One lemma per routine of the scan proves it (`Scan.start_holders` to
`Scan.poke_holders`, the two unpins sharing `HolderStep.unpin`), and `scanStep_holders` collects
them; `threadStep_owns` does the same for the holders along a step of a worker. `Step.ownerInv`
lifts them to the system (`OwnerInv.frame` for the steps that touch no holder) and
`Reachable.ownerInv` holds along every run.
`write_queued_owned` collects: at most one `WriteBehind` of `S` exists, and only while the flag is
set; a scan sets, clears or hands over the flag only when no one else holds it; the `+1` a scan puts
on `DirtyPages` (`Scan.bias`) is outstanding only while it holds the flag, each step of the scan
changes `DirtyPages` by exactly the change of that `+1`, and a whole scan leaves `DirtyPages` as it
found it (`ScanRun.dirtyPages`).
-/

namespace LazyWriter

/-- Whether `e` is a `WriteBehind` entry of stream `S`. -/
def Entry.writes (S : Nat) (e : Entry) : Bool := decide (e.work = .writeBehind S)

/-- The scan holds `WRITE_QUEUED` of `S` itself: from setting it (lines 301 and 339) to the
allocation of its entry (line 308) or to clearing it (lines 314 and 344). -/
def Scan.pins (S : Nat) (sc : Scan) : Nat :=
  match sc.pc with
  | .alloc | .courtesy => if sc.sharedCacheMap = S then 1 else 0
  | _ => 0

/-- The scan's `+1` on `DirtyPages` of `S` (lines 302 and 339), outstanding until lines 315, 324
or 344 take it back. -/
def Scan.bias (S : Nat) (sc : Scan) : ULONG :=
  match sc.pc with
  | .alloc | .posting _ | .courtesy => if sc.sharedCacheMap = S then 1 else 0
  | _ => 0

/-- What a scan holds of `WRITE_QUEUED` of `S`: the `WriteBehind` entries of `S` it holds, and its
pin. -/
def Scan.owns (S : Nat) (sc : Scan) : Nat := sc.holding.countP (Entry.writes S) + sc.pins S

/-- The pin of a thread's scan. -/
def Thread.pins (S : Nat) (th : Thread) : Nat := (th.scan?.map (Scan.pins S)).getD 0

/-- What a thread holds of `WRITE_QUEUED` of `S`. -/
def Thread.owns (S : Nat) (th : Thread) : Nat := th.holding.countP (Entry.writes S) + th.pins S

/-- The holders of `WRITE_QUEUED` of `S`: its `WriteBehind` entries, wherever they are, and the
scans that pin it. -/
def State.owners (s : State) (S : Nat) : Nat :=
  s.entries.countP (Entry.writes S) + (s.threads.map (Thread.pins S)).sum

/-- `WRITE_QUEUED` of `S`, as a count. -/
def State.wq (s : State) (S : Nat) : Nat := if (s.maps S).flags.writeQueued then 1 else 0

/-- One holder while `WRITE_QUEUED` is set, none otherwise. -/
def OwnerInv (s : State) : Prop := ∀ S, s.owners S = s.wq S

lemma State.owners_eq (s : State) (S : Nat) :
    s.owners S = s.pooled.countP (Entry.writes S) + s.pending.countP (Entry.writes S) +
      (s.threads.map (Thread.owns S)).sum := by
  have h : Thread.owns S = fun th => th.holding.countP (Entry.writes S) + th.pins S := rfl
  simp only [State.owners, State.entries, List.countP_append, List.countP_flatMap, h,
    List.sum_map_add, Function.comp_def]
  omega

section Holders

variable {T : Tunables} {s s₁ : State} {sc sc' : Scan} {inp : Input}

/-- `eligible` changes neither the flags nor `DirtyPages`, and accepts no stream whose
`WRITE_QUEUED` is set (line 245). -/
lemma eligible_flags (p : ULONG) (c : Bool) (m : SharedCacheMap) :
    (eligible T p c m).2.flags = m.flags ∧ (eligible T p c m).2.dirtyPages = m.dirtyPages ∧
      ((eligible T p c m).1 = true → m.flags.writeQueued = false) := by
  unfold eligible
  split_ifs with h1
  · exact ⟨rfl, rfl, nofun⟩
  all_goals exact ⟨rfl, rfl, fun _ => by simp at h1; exact h1.1⟩

@[simp] lemma Scan.advance_maps (s : State) (sc : Scan) : (Scan.advance s sc).1.maps = s.maps := by
  unfold Scan.advance; split <;> rfl

@[simp] lemma Scan.moveCursor_maps (mwd : Bool) (fv : Nat) (pass amount : ULONG) :
    (Scan.moveCursor s sc mwd fv pass amount).1.maps = s.maps := by
  unfold Scan.moveCursor; split_ifs <;> rfl

@[simp] lemma Scan.advance_pooled (s : State) (sc : Scan) :
    (Scan.advance s sc).1.pooled = s.pooled := by
  unfold Scan.advance; split <;> rfl

lemma ccScheduleLazyWriteScan_maps (fast : Bool) : (ccScheduleLazyWriteScan fast s).maps = s.maps := by
  unfold ccScheduleLazyWriteScan; split_ifs <;> rfl

lemma waitInsert_maps (e : Entry) : (waitInsert e s).maps = s.maps := by
  dsimp only [waitInsert]
  split_ifs
  · exact ccScheduleLazyWriteScan_maps true
  · rfl

@[simp] lemma ccPostWorkQueue_maps (e : Entry) (q : Queue) : (ccPostWorkQueue e q s).maps = s.maps := by
  simp [ccPostWorkQueue]

/-- An iteration of the walk either pins its current stream, whose `WRITE_QUEUED` was clear, and
stops there, or changes no flag and no `DirtyPages`. -/
lemma Scan.walk_pins (T : Tunables) (c : Bool) (s : State) (sc : Scan) :
    ((Scan.walk T c s sc).2.pc = .alloc ∨ (Scan.walk T c s sc).2.pc = .courtesy) ∧
      (Scan.walk T c s sc).2.sharedCacheMap = sc.sharedCacheMap ∧
      (s.maps sc.sharedCacheMap).flags.writeQueued = false ∧
      (∀ x ≠ sc.sharedCacheMap, (Scan.walk T c s sc).1.maps x = s.maps x) ∧
      ((Scan.walk T c s sc).1.maps sc.sharedCacheMap).flags.writeQueued = true ∧
      ((Scan.walk T c s sc).1.maps sc.sharedCacheMap).dirtyPages =
        (s.maps sc.sharedCacheMap).dirtyPages + 1 ∨
    ((Scan.walk T c s sc).2.pc = .loop ∨ (Scan.walk T c s sc).2.pc = .drain) ∧
      ∀ x, ((Scan.walk T c s sc).1.maps x).flags = (s.maps x).flags ∧
        ((Scan.walk T c s sc).1.maps x).dirtyPages = (s.maps x).dirtyPages := by
  obtain ⟨hf, hd, hok⟩ := eligible_flags (T := T) sc.pagesToWrite c (s.maps sc.sharedCacheMap)
  generalize hw : Scan.walk T c s sc = p
  dsimp only [Scan.walk] at hw
  split_ifs at hw with hg h1 h2 <;> subst hw
  · exact .inr ⟨.inr rfl, fun _ => ⟨rfl, rfl⟩⟩
  · refine .inl ⟨.inl rfl, Scan.moveCursor_current _ _ _ _, hok h1, fun x hx => ?_, by simp,
      by simp [hd]⟩
    simp [Function.update_noteq hx]
  · have hw : (s.maps sc.sharedCacheMap).flags.writeQueued = false := by
      simp only [Bool.and_eq_true, Bool.not_eq_true', Bool.or_eq_false_iff, hf] at h2
      exact h2.2.1
    exact .inl ⟨.inr rfl, rfl, hw, fun x hx => by simp [Function.update_noteq hx], by simp,
      by simp [hd]⟩
  · refine .inr ⟨.inl (Scan.advance_pc _), fun x => ?_⟩
    by_cases hx : x = sc.sharedCacheMap
    · subst hx; simp [hf, hd]
    · simp [Function.update_noteq hx]

/-- A step that keeps the flag does not clear it. -/
lemma flag_kept {b : Bool} {P : Prop} : b = true → b = false → P := fun h1 h2 =>
  absurd (h1.symm.trans h2) Bool.true_eq_false_eq_False

/-- What a step of a scan, from `s` and `sc` to `s₁` and `sc'`, does for the stream `S`: the
shared queues and the scan together gain a holder exactly when the flag is set and lose one exactly
when it is cleared, the flag is cleared only where the scan holds the pin, and `DirtyPages` moves
exactly with the scan's `+1`. -/
structure HolderStep (S : Nat) (s : State) (sc : Scan) (s₁ : State) (sc' : Scan) : Prop where
  owns : sc.DrainOk → (sc.pins S = 1 → (s.maps S).flags.writeQueued = true) →
    s₁.pooled.countP (Entry.writes S) + sc'.owns S + s.wq S =
      s.pooled.countP (Entry.writes S) + sc.owns S + s₁.wq S
  clear : (s.maps S).flags.writeQueued = true → (s₁.maps S).flags.writeQueued = false → sc.pins S = 1
  dirty : (s₁.maps S).dirtyPages - sc'.bias S = (s.maps S).dirtyPages - sc.bias S

variable (S : Nat)

/-- A step that only moves entries between the shared queues and the scan, and touches neither
the flag of `S`, its `DirtyPages` nor the scan's `+1`. -/
lemma HolderStep.of_moves {s₁ : State} {sc' : Scan} (hf : (s₁.maps S).flags = (s.maps S).flags)
    (hd : (s₁.maps S).dirtyPages = (s.maps S).dirtyPages) (hb : sc'.bias S = sc.bias S)
    (ho : sc.DrainOk → s₁.pooled.countP (Entry.writes S) + sc'.owns S =
      s.pooled.countP (Entry.writes S) + sc.owns S) : HolderStep S s sc s₁ sc' where
  owns hd' _ := by
    have := ho hd'
    simp only [State.wq, hf]
    omega
  clear h1 h2 := flag_kept h1 (hf ▸ h2)
  dirty := by rw [hd, hb]

/-- Taking the master lock back and clearing the scan's pin on its stream (lines 313-315 and
343-344). -/
lemma HolderStep.unpin {s₁ : State} {sc' : Scan} (hl : s₁.pooled = s.pooled)
    (hm : s₁.maps = (s.updateMap sc.sharedCacheMap SharedCacheMap.unpin).maps)
    (hpin : sc.pins S = if sc.sharedCacheMap = S then 1 else 0)
    (hbias : sc.bias S = if sc.sharedCacheMap = S then 1 else 0)
    (ho : sc'.owns S + sc.pins S = sc.owns S) (hb : sc'.bias S = 0) : HolderStep S s sc s₁ sc' := by
  by_cases hSx : sc.sharedCacheMap = S
  · subst hSx
    simp only [if_true] at hpin hbias
    refine ⟨fun _ hw => ?_, fun _ _ => hpin, by simp [hm, hb, hbias, State.updateMap]⟩
    simp [State.wq, hl, hm, State.updateMap, hw hpin]
    omega
  · have hm' : s₁.maps S = s.maps S := by
      simp [hm, State.updateMap, Function.update_noteq (Ne.symm hSx)]
    simp only [hSx, if_false] at hpin hbias
    exact .of_moves S (by rw [hm']) (by rw [hm']) (by rw [hb, hbias]) fun _ => by rw [hl]; omega

/-- Lines 140-231: the top of the scan moves `CcPostTickWorkQueue` to its local queue. -/
lemma Scan.start_holders (T : Tunables) (hpc : sc.pc = .top) :
    HolderStep S s sc (Scan.start T s sc).1 (Scan.start T s sc).2 := by
  unfold Scan.start
  split_ifs <;> refine .of_moves S rfl rfl (by simp [Scan.bias, hpc]) fun hd => ?_ <;>
    simp [State.pooled, Scan.owns, Scan.holding, Scan.allocated, Scan.pins, hpc, hd.postTick_top hpc]
  omega

/-- An iteration of the walk pins its stream, whose flag was clear, or leaves every flag alone. -/
lemma Scan.walk_holders (T : Tunables) (c : Bool) (hpc : sc.pc = .loop) :
    HolderStep S s sc (Scan.walk T c s sc).1 (Scan.walk T c s sc).2 := by
  have hl : (Scan.walk T c s sc).1.pooled = s.pooled := congrArg Prod.fst (Scan.walk_ledger c)
  have hq : (Scan.walk T c s sc).2.postTickWorkQueue = sc.postTickWorkQueue :=
    congrArg Prod.fst (Scan.walk_frame c).2
  rcases Scan.walk_pins T c s sc with ⟨hp, hS, hw0, hx, hw1, hd1⟩ | ⟨hp, hx⟩
  · by_cases hSx : sc.sharedCacheMap = S
    · -- the pin of line 301 or 339
      subst hSx
      refine ⟨fun _ _ => ?_, fun h => flag_kept h hw0, ?_⟩ <;> rcases hp with hp | hp <;>
        simp [State.wq, Scan.owns, Scan.holding, Scan.allocated, Scan.pins, Scan.bias, hl, hq, hp, hpc,
          hS, hw0, hw1, hd1, BitVec.add_sub_cancel] <;> omega
    · have hm := hx S (Ne.symm hSx)
      refine .of_moves S (by rw [hm]) (by rw [hm]) ?_ fun _ => ?_ <;> rcases hp with hp | hp <;>
        simp [Scan.owns, Scan.holding, Scan.allocated, Scan.pins, Scan.bias, hl, hq, hp, hpc, hS, hSx]
  · refine .of_moves S (hx S).1 (hx S).2 ?_ fun _ => ?_ <;> rcases hp with hp | hp <;>
      simp [Scan.owns, Scan.holding, Scan.allocated, Scan.pins, Scan.bias, hl, hq, hp, hpc]

/-- Lines 308-318: the allocated entry takes the pin over; when the allocation fails the pin is
cleared. -/
lemma Scan.allocate_holders (ok : Bool) (hpc : sc.pc = .alloc) :
    HolderStep S s sc (Scan.allocate ok s sc).1 (Scan.allocate ok s sc).2 := by
  unfold Scan.allocate
  cases ok
  · exact .unpin S rfl rfl (by simp [Scan.pins, hpc]) (by simp [Scan.bias, hpc])
      (by simp [Scan.owns, Scan.holding, Scan.allocated, Scan.pins, hpc]) (by simp [Scan.bias])
  · refine .of_moves S rfl rfl (by simp [Scan.bias, hpc]) fun _ => ?_
    by_cases hSx : sc.sharedCacheMap = S <;>
      simp [ccAllocateWorkQueueEntry, State.pooled, Scan.owns, Scan.holding, Scan.allocated, Scan.pins,
        hpc, hSx, Entry.writes]

/-- Lines 320-335: the post hands the pin over from the scan to the queue it posts the entry to,
and takes the `+1` back. -/
lemma Scan.post_holders (e : Entry) (hpc : sc.pc = .posting e) :
    HolderStep S s sc (Scan.post e s sc).1 (Scan.post e s sc).2 := by
  have hp : (Scan.post e s sc).1.pooled.countP (Entry.writes S) =
      s.pooled.countP (Entry.writes S) + [e].countP (Entry.writes S) := by
    simp only [Scan.post, Scan.advance_pooled]
    rw [(ccPostWorkQueue_ledger _ _).1.countP_eq, List.countP_append]
    rfl
  have ho : (Scan.post e s sc).2.owns S + [e].countP (Entry.writes S) = sc.owns S := by
    simp [Scan.post, Scan.owns, Scan.holding, Scan.allocated, Scan.pins, hpc, Scan.advance_pc]
  have hm : (Scan.post e s sc).1.maps = (s.updateMap sc.sharedCacheMap SharedCacheMap.unbias).maps := by
    simp [Scan.post]
  by_cases hSx : sc.sharedCacheMap = S
  · subst hSx
    refine ⟨fun _ _ => ?_, fun h1 h2 => ?_, ?_⟩
    · simp only [State.wq, hm, State.updateMap, Function.update_same, SharedCacheMap.unbias_flags]
      omega
    · simp only [hm, State.updateMap, Function.update_same, SharedCacheMap.unbias_flags] at h2
      exact flag_kept h1 h2
    · simp [hm, State.updateMap, Scan.bias, hpc, Scan.post, Scan.advance_pc]
  · have hm' : (Scan.post e s sc).1.maps S = s.maps S := by
      simp [hm, State.updateMap, Function.update_noteq (Ne.symm hSx)]
    exact .of_moves S (by rw [hm']) (by rw [hm']) (by simp [Scan.post, Scan.bias, hpc, Scan.advance_pc, hSx])
      fun _ => by omega

/-- Lines 343-345: the return from lock courtesy clears the pin. -/
lemma Scan.courtesy_holders (hpc : sc.pc = .courtesy) :
    HolderStep S s sc (Scan.courtesy s sc).1 (Scan.courtesy s sc).2 :=
  .unpin S (Scan.advance_pooled _ _) (Scan.advance_maps _ _) (by simp [Scan.pins, hpc])
    (by simp [Scan.bias, hpc])
    (by simp [Scan.courtesy, Scan.owns, Scan.holding, Scan.allocated, Scan.pins, hpc, Scan.advance_pc])
    (by simp [Scan.courtesy, Scan.bias, Scan.advance_pc])

/-- Lines 365-371: the drain moves an entry of the local queue to the regular queue. -/
lemma Scan.drain_holders (hpc : sc.pc = .drain) :
    HolderStep S s sc (Scan.drain s sc).1 (Scan.drain s sc).2 := by
  unfold Scan.drain
  split
  · next e rest hq =>
    refine .of_moves S (by simp) (by simp) (by simp [Scan.bias, hpc]) fun _ => ?_
    rw [(ccPostWorkQueue_ledger _ _).1.countP_eq]
    simp [Scan.owns, Scan.holding, Scan.allocated, Scan.pins, hpc, hq, List.countP_cons]
    omega
  · exact .of_moves S rfl rfl (by simp [Scan.bias, hpc]) fun _ => by
      simp [State.pooled, Scan.owns, Scan.holding, Scan.allocated, Scan.pins, hpc]

/-- Lines 173-177 and 376-380: the poke at the end of the scan. -/
lemma Scan.poke_holders (hpc : sc.pc = .poke) :
    HolderStep S s sc (Scan.poke s sc).1 (Scan.poke s sc).2 := by
  have hl : (ccScheduleLazyWriteScan false s).pooled = s.pooled :=
    congrArg Prod.fst (ccScheduleLazyWriteScan_ledger false)
  exact .of_moves S (by simp [Scan.poke, ccScheduleLazyWriteScan_maps])
    (by simp [Scan.poke, ccScheduleLazyWriteScan_maps]) (by simp [Scan.poke, Scan.bias, hpc])
    fun _ => by simp [Scan.poke, Scan.owns, Scan.holding, Scan.allocated, Scan.pins, hpc, hl]

/-- What one step of a scan does for the stream `S`. -/
lemma scanStep_holders (h : scanStep T inp s sc = some (s₁, sc')) : HolderStep S s sc s₁ sc' := by
  rcases scanStep_cases h with ⟨hpc, -, h⟩ | ⟨hpc, h⟩ | ⟨hpc, -, h⟩ | ⟨e, hpc, -, h⟩ | ⟨hpc, -, h⟩ |
    ⟨hpc, h⟩ | ⟨hpc, h⟩ <;>
    rw [show s₁ = _ from congrArg Prod.fst h, show sc' = _ from congrArg Prod.snd h]
  · exact Scan.start_holders S T hpc
  · exact Scan.walk_holders S T _ hpc
  · exact Scan.allocate_holders S _ hpc
  · exact Scan.post_holders S e hpc
  · exact Scan.courtesy_holders S hpc
  · exact Scan.drain_holders S hpc
  · exact Scan.poke_holders S hpc

end Holders

/-- A thread running a scan executes a `LazyWriteScan` entry: the dispatch starts a scan only on
one (line 530). -/
def Thread.ScanEntry : Thread → Prop
  | .scan _ _ e _ _ => e.work = .lazyWriteScan
  | _ => True

lemma Reachable.scanEntry {T : Tunables} {N : Nat} {s : State} (h : Reachable T N s) :
    ∀ th ∈ s.threads, th.ScanEntry := by
  refine h.threads_all (fun _ => trivial) fun {inp s th s1 th'} h1 ih => ?_
  rcases threadStep_cases h1 with ⟨item, w, rfl, h2⟩ | ⟨item, w, e, q, rfl, -, h2⟩ |
    ⟨item, w, e, q, sc, rfl, -, -, rfl⟩ | ⟨item, w, e, q, sc, sc', rfl, -, rfl⟩ |
    ⟨ok, rfl, -, rfl⟩ | ⟨sc, rfl, -, -, rfl⟩ | ⟨sc, sc', rfl, -, rfl⟩
  · rw [show th' = _ from congrArg Prod.snd h2]
    dsimp only [workerTop]
    rcases workerTake_snd item (workerRequeue w s).2 (workerRequeue w s).1 with h3 | ⟨e, q, h3⟩ <;>
      rw [h3] <;> trivial
  · rw [show th' = _ from congrArg Prod.snd h2]
    unfold workerDispatch
    split <;> (try split_ifs) <;> simp_all [Thread.ScanEntry]
  · trivial
  · exact ih
  · unfold workerExit; split_ifs <;> trivial
  · trivial
  · trivial

section Threads

variable {T : Tunables} {s s₁ : State} {inp : Input} (S : Nat)

@[simp] lemma Thread.owns_loop (item : Nat) (w : WorkerLocals) :
    (Thread.loop item w).owns S = w.slotEntries.countP (Entry.writes S) := by
  simp [Thread.owns, Thread.pins, Thread.holding, Thread.held, Thread.scan?]

@[simp] lemma Thread.owns_exec (item : Nat) (w : WorkerLocals) (e : Entry) (q : Queue) :
    (Thread.exec item w e q).owns S = (e :: w.slotEntries).countP (Entry.writes S) := by
  simp [Thread.owns, Thread.pins, Thread.holding, Thread.held, Thread.scan?]

@[simp] lemma Thread.owns_scan (item : Nat) (w : WorkerLocals) (e : Entry) (q : Queue) (sc : Scan) :
    (Thread.scan item w e q sc).owns S = (e :: w.slotEntries).countP (Entry.writes S) + sc.owns S := by
  simp only [Thread.owns, Thread.pins, Thread.holding_scan, Thread.scan?, Scan.owns, List.countP_append,
    Option.map_some', Option.getD_some]
  omega

@[simp] lemma Thread.owns_rescan (sc : Scan) : (Thread.rescan sc).owns S = sc.owns S := rfl

@[simp] lemma Scan.owns_init : Scan.init.owns S = 0 := rfl

lemma Scan.DrainOk.owns_done {sc : Scan} (hd : sc.DrainOk) (hpc : sc.pc = .done) : sc.owns S = 0 := by
  simp [Scan.owns, hd.holding_done hpc, Scan.pins, hpc]

/-- A thread holds at least what its scan holds. -/
lemma Thread.scan_owns_le {th : Thread} {sc : Scan} (h : th.scan? = some sc) : sc.owns S ≤ th.owns S := by
  cases th <;> cases h <;> simp

@[simp] lemma workerTop_maps (item : Nat) (w : WorkerLocals) : (workerTop item w s).1.maps = s.maps := by
  have h : (workerRequeue w s).1.maps = s.maps := by
    rw [workerRequeue_fst]; split
    · next q _ => cases q <;> rfl
    · rfl
  dsimp only [workerTop, workerTake, idleWorker]
  split <;> (try split_ifs) <;> simp [h]

/-- What one step of a thread does to the holders of `WRITE_QUEUED` of `S`: as for a scan, the
shared queues and the thread together gain a holder exactly when the flag is set and lose one
exactly when it is cleared, here by the `CcWriteBehind` of an entry the thread executes. -/
lemma threadStep_owns {th th' : Thread} (h : threadStep T inp s th = some (s₁, th'))
    (hd : ∀ sc, th.scan? = some sc → sc.DrainOk) (hslot : th.SlotFree) (he : th.ScanEntry)
    (hw : 0 < th.owns S → (s.maps S).flags.writeQueued = true) :
    s₁.pooled.countP (Entry.writes S) + th'.owns S + s.wq S =
      s.pooled.countP (Entry.writes S) + th.owns S + s₁.wq S := by
  rcases threadStep_cases h with ⟨item, w, rfl, h1⟩ | ⟨item, w, e, q, rfl, -, h1⟩ |
    ⟨item, w, e, q, sc, rfl, hpc, rfl, rfl⟩ | ⟨item, w, e, q, sc, sc', rfl, h1, rfl⟩ |
    ⟨ok, rfl, rfl, rfl⟩ | ⟨sc, rfl, hpc, rfl, rfl⟩ | ⟨sc, sc', rfl, h1, rfl⟩
  · -- the head of the worker loop moves entries between the queues and the thread
    rw [show s₁ = _ from congrArg Prod.fst h1, show th' = _ from congrArg Prod.snd h1]
    have hp : ((workerTop item w s).1.pooled ++ (workerTop item w s).2.holding).Perm
        (s.pooled ++ w.slotEntries) :=
      (workerTake_entries (s := (workerRequeue w s).1) item (workerRequeue w s).2 (by simp)).1.trans
        (workerRequeue_entries w).1
    have h0 : (workerTop item w s).2.pins S = 0 := by
      dsimp only [workerTop]
      rcases workerTake_snd item (workerRequeue w s).2 (workerRequeue w s).1 with h3 | ⟨e, q, h3⟩ <;>
        rw [h3] <;> rfl
    have hc := hp.countP_eq (Entry.writes S)
    rw [List.countP_append, List.countP_append] at hc
    rw [Thread.owns_loop, Thread.owns, h0]
    simp only [State.wq, workerTop_maps]
    omega
  · -- the dispatch of lines 510-547 frees the entry, unless `CcWriteBehind` asks for a requeue
    have hw0 : w.requeue = none := hslot
    rw [show s₁ = _ from congrArg Prod.fst h1, show th' = _ from congrArg Prod.snd h1]
    simp only [Thread.owns_exec, WorkerLocals.slotEntries, hw0] at hw ⊢
    unfold workerDispatch
    split
    · next hk => simp [ccFreeWorkQueueEntry, State.pooled, State.wq, Entry.writes, hk,
        WorkerLocals.slotEntries, hw0]
    · next S' hk =>
      split_ifs with hr
      · simp [ccWriteBehind, hr, WorkerLocals.slotEntries]
      · by_cases hS : S' = S
        · subst hS
          have hq := hw (by simp [Entry.writes, hk])
          simp [ccWriteBehind, hr, ccFreeWorkQueueEntry, State.updateMap, State.pooled, State.wq, hq,
            Entry.writes, hk, WorkerLocals.slotEntries, hw0]
        · simp [ccWriteBehind, hr, ccFreeWorkQueueEntry, State.updateMap, State.pooled, State.wq,
            Entry.writes, hk, hS, Function.update_noteq (Ne.symm hS), WorkerLocals.slotEntries, hw0]
    · next hk => simp [ccFreeWorkQueueEntry, State.pooled, State.wq, Entry.writes, hk,
        WorkerLocals.slotEntries, hw0]
    · next hk => simp [Entry.writes, hk, WorkerLocals.slotEntries, hw0]
  · -- the scan has finished and its `LazyWriteScan` entry is freed
    have hw0 : w.requeue = none := hslot
    have he0 : e.work = .lazyWriteScan := he
    simp [ccFreeWorkQueueEntry, State.pooled, State.wq, (hd sc rfl).owns_done S hpc, Entry.writes, he0,
      WorkerLocals.slotEntries, hw0]
  · have := (scanStep_holders S h1).owns (hd sc rfl) fun hp => hw (by
      simp only [Thread.owns_scan, Scan.owns, hp]; omega)
    simp only [Thread.owns_scan]
    omega
  · unfold workerExit; split_ifs <;> rfl
  · rw [Thread.owns_rescan, (hd sc rfl).owns_done S hpc]
    rfl
  · simpa only [Thread.owns_rescan] using (scanStep_holders S h1).owns (hd sc rfl) fun hp => hw (by
      simp only [Thread.owns_rescan, Scan.owns, hp]; omega)

end Threads

section System

variable {T : Tunables} {s s' : State}

/-- Replacing the thread at `t` replaces its term in a sum over the threads. -/
lemma sum_map_set (f : Thread → Nat) {l : List Thread} {t : Nat} {x : Thread} (h : l[t]? = some x)
    (y : Thread) : ((l.set t y).map f).sum + f x = (l.map f).sum + f y := by
  induction l generalizing t with
  | nil => cases h
  | cons a l ih =>
    cases t with
    | zero =>
      rw [List.getElem?_cons_zero, Option.some.injEq] at h
      subst h
      simp only [List.set_cons_zero, List.map_cons, List.sum_cons]
      omega
    | succ t =>
      have := ih (by rwa [List.getElem?_cons_succ] at h)
      simp only [List.set_cons_succ, List.map_cons, List.sum_cons]
      omega

/-- What a thread holds is among the holders. -/
lemma Thread.owns_le_owners {th : Thread} (hm : th ∈ s.threads) (S : Nat) : th.owns S ≤ s.owners S := by
  obtain ⟨t, ht⟩ := List.mem_iff_getElem?.1 hm
  have h := sum_map_set (Thread.owns S) ht .done
  have h0 : Thread.done.owns S = 0 := rfl
  rw [State.owners_eq]
  omega

/-- A step that adds no `WriteBehind` entry to the shared queues and the pending entries, starts
at most an idle worker and keeps every `WRITE_QUEUED` keeps the holders. -/
lemma OwnerInv.frame (hi : OwnerInv s)
    (hp : ∀ S, s'.pooled.countP (Entry.writes S) + s'.pending.countP (Entry.writes S) =
      s.pooled.countP (Entry.writes S) + s.pending.countP (Entry.writes S))
    (ht : s'.threads = s.threads ∨ ∃ i, s'.threads = s.threads ++ [.loop i .init])
    (hm : ∀ S, (s'.maps S).flags.writeQueued = (s.maps S).flags.writeQueued) : OwnerInv s' := by
  intro S
  have hsum : (s'.threads.map (Thread.owns S)).sum = (s.threads.map (Thread.owns S)).sum := by
    rcases ht with h | ⟨i, h⟩ <;> simp [h, WorkerLocals.slotEntries, WorkerLocals.init]
  rw [State.owners_eq, hp, hsum, ← State.owners_eq, hi S]
  simp [State.wq, hm]

/-- A thread that holds `WRITE_QUEUED` of `S` is its only holder. -/
lemma OwnerInv.holder (hi : OwnerInv s) {th : Thread} (hm : th ∈ s.threads) {S : Nat}
    (hp : 0 < th.owns S) : (s.maps S).flags.writeQueued = true ∧ s.owners S = th.owns S := by
  have h0 := hi S
  have h1 := Thread.owns_le_owners hm S
  unfold State.wq at h0
  split_ifs at h0 with hq
  · exact ⟨hq, by omega⟩
  · omega

/-- Posting an entry that is not a `WriteBehind` of `S` adds no holder of `S`. -/
lemma ccPostWorkQueue_countP (e : Entry) (q : Queue) {S : Nat} (he : e.writes S = false) :
    (ccPostWorkQueue e q s).pooled.countP (Entry.writes S) + (ccPostWorkQueue e q s).pending.countP (Entry.writes S) =
      s.pooled.countP (Entry.writes S) + s.pending.countP (Entry.writes S) := by
  rw [(ccPostWorkQueue_ledger e q).1.countP_eq, List.countP_append]
  simp [he, State.pending]

/-- A step of the thread at `t` moves the holders as `threadStep_owns` says. -/
lemma OwnerInv.thread (hi : OwnerInv s) {t : Nat} {inp : Input} {th th' : Thread} {s1 : State}
    (hth : s.threads[t]? = some th) (h1 : threadStep T inp s th = some (s1, th'))
    (hd : ∀ sc, th.scan? = some sc → sc.DrainOk) (hslot : th.SlotFree) (he : th.ScanEntry) :
    OwnerInv { s1 with threads := s1.threads.set t th' } := by
  have hm := List.getElem?_mem hth
  intro S
  have h0 := hi S
  rw [State.owners_eq] at h0
  have h2 := threadStep_owns S h1 hd hslot he fun hp => (hi.holder hm hp).1
  have h3 := sum_map_set (Thread.owns S) hth th'
  -- a worker the step wakes holds nothing
  have hset : ((s1.threads.set t th').map (Thread.owns S)).sum =
      ((s.threads.set t th').map (Thread.owns S)).sum := by
    rcases threadStep_threads h1 with h4 | ⟨i, h4⟩ <;> rw [h4]
    rw [List.set_append_left _ _ (List.getElem?_eq_some_iff.1 hth).1]
    simp [WorkerLocals.slotEntries, WorkerLocals.init]
  obtain ⟨hc, hd⟩ := threadStep_pending h1
  rw [State.owners_eq]
  show s1.pooled.countP _ + (s1.callers ++ s1.dpcs).countP _ + ((s1.threads.set t th').map _).sum = s1.wq S
  rw [hc, hd]
  unfold State.pending at h0
  omega

/-- The rest of the cache manager posts read-aheads and changes streams, but never touches
`WRITE_QUEUED`. -/
lemma OwnerInv.env (hi : OwnerInv s) {a : EnvAction} (h : envStep a s = some s') : OwnerInv s' := by
  cases a with
  | postReadAhead q =>
    cases h
    exact hi.frame (fun _ => ccPostWorkQueue_countP _ _ rfl) (ccPostWorkQueue_threads _ _)
      fun _ => by simp [ccAllocateWorkQueueEntry]
  | setStream x d o f mwd wft tmp =>
    simp only [envStep] at h
    split_ifs at h
    cases h
    refine hi.frame (fun _ => rfl) (.inl rfl) fun S => ?_
    by_cases hx : S = x
    · subst hx; simp [State.updateMap, SharedCacheMap.setByOthers]
    · simp [State.updateMap, Function.update_noteq hx]
  | _ =>
    simp only [envStep] at h
    (try split_ifs at h)
    cases h
    exact hi.frame (fun _ => rfl) (.inl rfl) fun _ => rfl

/-- What a step of the system does to the holders: the thread that runs moves them, and every
other step keeps them. -/
lemma Step.ownerInv (h : Step T s s') (hi : OwnerInv s)
    (hd : ∀ th ∈ s.threads, ∀ sc, th.scan? = some sc → sc.DrainOk)
    (hslot : ∀ th ∈ s.threads, th.SlotFree) (he : ∀ th ∈ s.threads, th.ScanEntry) : OwnerInv s' := by
  cases h with
  | run ℓ h =>
    cases ℓ with
    | schedule f =>
      obtain ⟨-, -, rfl⟩ := step_schedule h
      have hl := ccScheduleLazyWriteScan_ledger (s := s) f
      simp only [State.ledger, Prod.mk.injEq] at hl
      exact hi.frame (fun _ => by rw [hl.1]; simp [State.pending])
        (.inl (State.threads_eq_of_pool (ccScheduleLazyWriteScan_pool f)))
        fun _ => by rw [ccScheduleLazyWriteScan_maps]
    | wait =>
      -- the `EventSet` entry goes to `CcPostTickWorkQueue`
      obtain ⟨-, rfl⟩ := step_wait h
      have hl := waitInsert_ledger (s := { s with nextEntry := s.nextEntry + 1 }) ⟨s.nextEntry, .eventSet⟩
      refine hi.frame (fun S => ?_) (.inl (State.threads_eq_of_pool ccWaitForCurrentLazyWriterActivity_pool))
        fun S => by rw [show (ccWaitForCurrentLazyWriterActivity s).maps = s.maps from waitInsert_maps _]
      rw [show (ccWaitForCurrentLazyWriterActivity s).pooled = _ from congrArg Prod.fst hl]
      simp [State.pooled, State.pending, ccWaitForCurrentLazyWriterActivity, ccAllocateWorkQueueEntry, Entry.writes]
    | waitAllocate =>
      obtain rfl := step_waitAllocate h
      exact hi.frame (fun S => by
          simp [State.pooled, State.pending, waitAllocate, ccAllocateWorkQueueEntry, Entry.writes])
        (.inl rfl) fun _ => rfl
    | waitInsert i =>
      -- the caller's entry goes from its hands to `CcPostTickWorkQueue`
      obtain ⟨-, e, he, rfl⟩ := step_waitInsert h
      have hl := waitInsert_ledger (s := { s with callers := s.callers.eraseIdx i }) e
      refine hi.frame (fun S => ?_) (.inl (State.threads_eq_of_pool (waitInsert_pool e)))
        fun S => by simp [waitInsert_maps]
      have hc := (perm_cons_eraseIdx he).countP_eq (Entry.writes S)
      rw [show (waitInsert e _).pooled = _ from congrArg Prod.fst hl]
      simp only [State.pooled, State.pending, waitInsert_callers, waitInsert_dpcs, List.countP_append,
        List.countP_cons, List.countP_nil] at hc ⊢
      omega
    | scanDpc ok =>
      obtain ⟨-, rfl⟩ := step_scanDpc h
      cases ok
      · exact hi.frame (fun _ => rfl) (.inl rfl) fun _ => rfl
      · exact hi.frame (fun _ => ccPostWorkQueue_countP _ _ rfl) (ccPostWorkQueue_threads _ _)
          fun _ => by simp [ccScanDpc, ccAllocateWorkQueueEntry]
    | scanDpcAllocate =>
      obtain ⟨-, rfl⟩ := step_scanDpcAllocate h
      exact hi.frame (fun S => by
          simp [State.pooled, State.pending, scanDpcAllocate, ccAllocateWorkQueueEntry, Entry.writes])
        (.inl rfl) fun _ => rfl
    | scanDpcPost i =>
      -- the DPC's entry goes from its hands to the regular queue
      obtain ⟨e, he, rfl⟩ := step_scanDpcPost h
      refine hi.frame (fun S => ?_) (ccPostWorkQueue_threads _ _) fun _ => by simp
      have hc := (perm_cons_eraseIdx he).countP_eq (Entry.writes S)
      rw [(ccPostWorkQueue_ledger e .regular).1.countP_eq]
      simp only [State.pooled, State.pending, ccPostWorkQueue_callers, ccPostWorkQueue_dpcs, List.countP_append,
        List.countP_cons, List.countP_nil] at hc ⊢
      omega
    | env a => exact hi.env h
    | thread t inp =>
      obtain ⟨th, s1, th', hth, h1, rfl⟩ := step_thread h
      have hm := List.getElem?_mem hth
      exact hi.thread hth h1 (hd th hm) (hslot th hm) (he th hm)
  | insertStream => exact hi.frame (fun _ => rfl) (.inl rfl) fun _ => rfl
  | removeStream => exact hi.frame (fun _ => rfl) (.inl rfl) fun _ => rfl

lemma Reachable.ownerInv {N : Nat} (h : Reachable T N s) : OwnerInv s := by
  induction h with
  | init =>
    intro S
    have hq : ((State.init N).maps S).flags.writeQueued = false := by
      simp only [State.init]; split_ifs <;> rfl
    simp only [State.wq, hq]
    rfl
  | step hr hs ih => exact hs.ownerInv ih hr.drainOk hr.slotFree hr.scanEntry

end System

section Scans

variable {T : Tunables} {s : State} (S : Nat)

/-- The `+1` of a scan on `DirtyPages` of `S` is outstanding only while the scan holds the flag:
its pin, or the `WriteBehind` of `S` it has allocated. -/
lemma Scan.owns_pos_of_bias {sc : Scan} (hp : sc.Posting) (hb : sc.bias S = 1) : 0 < sc.owns S := by
  unfold Scan.bias at hb
  split at hb <;> (try split_ifs at hb with hS) <;> (try exact absurd hb (by decide))
  · next hpc => simp [Scan.owns, Scan.pins, hpc, hS]
  · next e hpc =>
    simp only [Scan.owns, Scan.holding, Scan.allocated, hpc, List.countP_append, List.countP_singleton,
      Entry.writes, hp e hpc, hS, decide_True, if_true]
    omega
  · next hpc => simp [Scan.owns, Scan.pins, hpc, hS]

/-- Along a run of one scan from its start, `DirtyPages` less the scan's outstanding `+1` does not
move. -/
lemma ScanRun.dirtyPages {s' : State} {sc' : Scan} (h : ScanRun T s Scan.init s' sc') :
    (s'.maps S).dirtyPages - sc'.bias S = (s.maps S).dirtyPages := by
  induction h with
  | refl => simp [Scan.bias, Scan.init]
  | tail _ _ h ih => exact (scanStep_holders S h).dirty.trans ih

end Scans

/-- `WRITE_QUEUED` of every stream has one holder while it is set and none otherwise, along every
interleaving of scans, rescans, workers, `CcWriteBehind` and the rest of the cache manager: (a) at
most one `WriteBehind` of `S` exists, and only while the flag is set; (b) a step of a scan that
sets or clears the flag of `S`, or posts a `WriteBehind` of `S`, runs while no other thread and no
entry holds it; (c) the scan's `+1` on `DirtyPages` of `S` is outstanding only while the scan holds
the flag, each step of a scan moves `DirtyPages` exactly with that `+1`, and a scan run to its end
leaves every `DirtyPages` as it found it. -/
theorem write_queued_owned {T : Tunables} {N : Nat} {s : State} (hs : Reachable T N s) :
    (∀ S, s.owners S = (if (s.maps S).flags.writeQueued then 1 else 0) ∧
      s.entries.countP (Entry.writes S) ≤ 1 ∧
      (0 < s.entries.countP (Entry.writes S) → (s.maps S).flags.writeQueued = true)) ∧
    (∀ th ∈ s.threads, ∀ sc, th.scan? = some sc → ∀ S,
      (sc.bias S = 1 → (s.maps S).flags.writeQueued = true ∧ s.owners S = th.owns S) ∧
      ∀ inp s₁ sc', scanStep T inp s sc = some (s₁, sc') →
        ((s₁.maps S).flags.writeQueued ≠ (s.maps S).flags.writeQueued ∨
            s.pooled.countP (Entry.writes S) < s₁.pooled.countP (Entry.writes S) →
          s.owners S = th.owns S) ∧
        (s₁.maps S).dirtyPages - sc'.bias S = (s.maps S).dirtyPages - sc.bias S) ∧
    ∀ s₀ s' sc', ScanRun T s₀ Scan.init s' sc' → sc'.pc = .done →
      ∀ S, (s'.maps S).dirtyPages = (s₀.maps S).dirtyPages := by
  have hi := hs.ownerInv
  refine ⟨fun S => ?_, fun th hm sc hsc S => ⟨fun hb => ?_, fun inp s₁ sc' h1 => ⟨fun hc => ?_,
    (scanStep_holders S h1).dirty⟩⟩, fun s₀ s' sc' hr hpc S => ?_⟩
  · -- (a) the entries of `S` are among its holders
    have h0 := hi S
    unfold State.owners State.wq at h0
    refine ⟨h0, by split_ifs at h0 <;> omega, fun hp => ?_⟩
    split_ifs at h0 with hq
    · exact hq
    · omega
  · -- (c) the `+1` is the scan's own
    exact hi.holder hm ((Scan.owns_pos_of_bias S (hs.posting th hm sc hsc) hb).trans_le
      (Thread.scan_owns_le S hsc))
  · -- (b) a scan acts on the flag only where no one else holds it
    have hle := Thread.scan_owns_le S hsc
    have h0 := hi S
    cases hq : (s.maps S).flags.writeQueued
    · have := Thread.owns_le_owners hm S
      simp [State.wq, hq] at h0
      omega
    · -- the flag is set, so the scan itself must hold it
      refine (hi.holder hm (Nat.lt_of_lt_of_le ?_ hle)).2
      rcases hc with hc | hc
      · simp [Scan.owns, (scanStep_holders S h1).clear hq (by simpa [hq] using hc)]
      · have hown := (scanStep_holders S h1).owns (hs.drainOk th hm sc hsc) fun _ => hq
        have h2 : s.wq S = 1 := by simp [State.wq, hq]
        have h3 : s₁.wq S ≤ 1 := by unfold State.wq; split_ifs <;> omega
        omega
  · -- (c) a whole scan leaves `DirtyPages` as it found it
    simpa [Scan.bias, hpc] using hr.dirtyPages S

/-- On `barrierStart` the `WriteBehind` of stream 2 is executing: it is the one holder of
`WRITE_QUEUED`, which is set. -/
theorem write_queued_owned_posted :
    barrierStart.entries.countP (Entry.writes 2) = 1 ∧ (barrierStart.maps 2).flags.writeQueued = true ∧
      barrierStart.owners 2 = 1 := by
  have h := (write_queued_owned barrierStart_reachable).1 2
  have hp : 0 < barrierStart.entries.countP (Entry.writes 2) := by decide
  have hq := h.2.2 hp
  exact ⟨le_antisymm h.2.1 hp, hq, by rw [h.1, hq]; rfl⟩

end LazyWriter
