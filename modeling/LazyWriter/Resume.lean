import LazyWriter.Walk
import LazyWriter.Ownership

/-!
# Where the scan leaves the cursor

The walk of `CcLazyWriteScan` spends the page budget of lines 197-214 on the streams it finds
eligible (lines 245-256), each taking its `PagesToWrite` of lines 263-268 from what is left. At the
stream whose amount meets what is left the place of the next scan is decided (lines 271-299): the
cursor goes just behind that stream if it is a metadata stream, or the first one visited with a
pass count that is a multiple of 16 (`resumesBehind`), and just before it otherwise. The splice
before it is made at once; the splice behind it waits until the stream's entry is posted (lines
352-359).

`ResumeInv` says what a scan has done with the cursor so far, with one field for each phase of the
scan: at its top, before the budget is met (the list untouched and the budget left equal to the
budget less the amounts so far) and after it (`Placed`). Each routine of the scan keeps it
(`ResumeInv.start`, `ResumeInv.walk`, `ResumeInv.allocate`, `ResumeInv.post`, `ResumeInv.courtesy`,
`ResumeInv.drain`, `ResumeInv.poke`, dispatched by `ResumeInv.step`), and so does a step of anything
else that leaves the list alone. `BudgetRun` is a run of the scan in which every allocation
succeeds, with the streams it found eligible; `BudgetRun.resumeInv` carries the invariant along it,
together with `SpliceRun` of `Cursor.lean`. From them `cursor_lands_at_budget_stream` reads where
the cursor is when the scan ends, and `runScan` of `Cursor.lean` computes such a run for a scan alone.
-/

namespace LazyWriter

/-- A run of one scan in which every `CcAllocateWorkQueueEntry` succeeds, with the streams its walk
found eligible, in visit order. Once the scan is past its top, anything else may change anything but
the dirty list between two of its steps. -/
inductive BudgetRun (T : Tunables) : State → Scan → State → Scan → List (Nat × SharedCacheMap) → Prop
  | refl (s : State) (sc : Scan) : BudgetRun T s sc s sc []
  | cons {s s₁ s' : State} {sc sc₁ sc' : Scan} {E : List (Nat × SharedCacheMap)} (inp : Input) :
      inp.allocOk = true → scanStep T inp s sc = some (s₁, sc₁) → BudgetRun T s₁ sc₁ s' sc' E →
      BudgetRun T s sc s' sc' (Scan.found T inp s sc ++ E)
  | other {s s₁ s' : State} {sc sc' : Scan} {E : List (Nat × SharedCacheMap)} :
      sc.pc ≠ .top → s₁.links = s.links → BudgetRun T s₁ sc s' sc' E → BudgetRun T s sc s' sc' E

/-- The `PagesToWrite` that lines 263-268 give the streams of `E`. -/
def amounts (T : Tunables) (E : List (Nat × SharedCacheMap)) : List Nat :=
  E.map fun e => (writeAmount T e.2).toNat

@[simp] lemma amounts_length (T : Tunables) (E : List (Nat × SharedCacheMap)) :
    (amounts T E).length = E.length := List.length_map _ _

lemma amounts_concat (T : Tunables) (E : List (Nat × SharedCacheMap)) (e : Nat × SharedCacheMap) :
    amounts T (E ++ [e]) = amounts T E ++ [(writeAmount T e.2).toNat] := by
  simp [amounts]

/-- The `k`-th amount of `a` is the first that brings the sum of the amounts to `B`. -/
def BudgetMet (B : Nat) (a : List Nat) (k : Nat) : Prop :=
  B ≤ (a.take (k + 1)).sum ∧ ∀ j < k, (a.take (j + 1)).sum < B

instance (B : Nat) (a : List Nat) (k : Nat) : Decidable (BudgetMet B a k) :=
  inferInstanceAs (Decidable (_ ∧ _))

/-- The cursor goes just behind the stream `S` at which the budget is met, whose record was `m` when
tested, if `S` is a metadata stream (`MODIFIED_WRITE_DISABLED`) or is `FirstVisited` with a pass
count that is a multiple of 16 (lines 285-290); otherwise just before it. -/
def resumesBehind (fv : Option Nat) (S : Nat) (m : SharedCacheMap) : Bool :=
  m.flags.modifiedWriteDisabled || (decide (fv = some S) && decide (m.lazyWritePassCount.toNat % 16 = 0))

/-- The scan is inside its walk: at an iteration, or with its current stream pinned. -/
def Scan.InWalk (sc : Scan) : Prop :=
  sc.pc = .loop ∨ sc.pc = .alloc ∨ sc.pc = .courtesy ∨ ∃ e, sc.pc = .posting e

/-- The splice behind the current stream is decided and waits for the entry to be posted. -/
def Scan.Pending (sc : Scan) : Prop := sc.pc = .alloc ∨ ∃ e, sc.pc = .posting e

/-- Where the cursor is once the budget has been met at `S`, whose record was `m` when tested: the
splice behind `S` still waits for the entry of `S` to be posted, or it has been made, or the cursor
has been spliced in before `S`. -/
def Placed (L₀ : Links) (s : State) (sc : Scan) (S : Nat) (m : SharedCacheMap) : Prop :=
  if resumesBehind sc.firstVisited S m then
    (sc.moveBehindCursor = true ∧ s.links = L₀ ∧ sc.sharedCacheMap = S ∧ sc.Pending) ∨
      (sc.moveBehindCursor = false ∧
        s.links = (L₀.removeEntryList ccLazyWriterCursor).insertHeadList S ccLazyWriterCursor)
  else sc.moveBehindCursor = false ∧
    s.links = (L₀.removeEntryList ccLazyWriterCursor).insertTailList S ccLazyWriterCursor

/-- What a scan has done with the cursor, from the dirty list `L₀` and the budget `B`, having
found `E` eligible: before the budget is met the list is `L₀` and the budget left is `B` less the
amounts so far; once it is met, at the first stream whose amount reaches it, the cursor is placed
there. -/
structure ResumeInv (T : Tunables) (L₀ : Links) (B : Nat) (s : State) (sc : Scan)
    (E : List (Nat × SharedCacheMap)) : Prop where
  top : sc.pc = .top → E = [] ∧ sc.alreadyMoved = false
  unmoved : sc.alreadyMoved = false → s.links = L₀ ∧ sc.moveBehindCursor = false ∧
    (E = [] ∨ (amounts T E).sum < B) ∧ (sc.InWalk → sc.pagesToWrite.toNat + (amounts T E).sum = B)
  moved : sc.alreadyMoved = true → sc.firstVisited.isSome ∧
    ∃ k, ∃ hk : k < E.length, BudgetMet B (amounts T E) k ∧ Placed L₀ s sc E[k].1 E[k].2

section Steps

variable {T : Tunables} {L₀ : Links} {B : Nat} {s s₁ : State} {sc sc₁ : Scan}
  {E : List (Nat × SharedCacheMap)}

/-- Outside a pending splice `MoveBehindCursor` is clear. -/
lemma ResumeInv.not_behind (hi : ResumeInv T L₀ B s sc E) (hp : ¬sc.Pending) :
    sc.moveBehindCursor = false := by
  cases hm : sc.alreadyMoved
  · exact (hi.unmoved hm).2.1
  · obtain ⟨-, k, hk, -, hpl⟩ := hi.moved hm
    unfold Placed at hpl
    split_ifs at hpl
    · rcases hpl with ⟨-, -, -, h⟩ | ⟨h, -⟩
      · exact absurd h hp
      · exact h
    · exact hpl.1

/-- A step that keeps the list, `MoveBehindCursor` and `FirstVisited`, and keeps a pending splice
pending at the same stream, keeps the cursor placed. -/
lemma Placed.keep {S : Nat} {m : SharedCacheMap} (h : Placed L₀ s sc S m) (hL : s₁.links = s.links)
    (hmb : sc₁.moveBehindCursor = sc.moveBehindCursor) (hfv : sc₁.firstVisited = sc.firstVisited)
    (hpend : sc.moveBehindCursor = true → sc.Pending → sc₁.Pending ∧
      sc₁.sharedCacheMap = sc.sharedCacheMap) :
    Placed L₀ s₁ sc₁ S m := by
  unfold Placed at h ⊢
  rw [hfv, hmb, hL]
  split_ifs at h ⊢
  · rcases h with ⟨h3, h4, h5, h6⟩ | h3
    · exact .inl ⟨h3, h4, (hpend h3 h6).2.trans h5, (hpend h3 h6).1⟩
    · exact .inr h3
  · exact h

/-- `(x &&& 0xF) == 0`, the test of line 285, says that `x` is a multiple of 16. -/
lemma and_fifteen_eq_zero (x : ULONG) : ((x &&& 0xF) == 0) = decide (x.toNat % 16 = 0) := by
  have h : (x &&& 0xF).toNat = x.toNat % 16 := by
    rw [BitVec.toNat_and]
    exact Nat.and_pow_two_sub_one_eq_mod x.toNat 4
  rw [Bool.eq_iff_iff, beq_iff_eq, decide_eq_true_iff, ← h]
  exact ⟨fun h0 => by rw [h0]; rfl, fun h0 => BitVec.toNat_eq.2 (by simpa using h0)⟩

/-- The test of lines 285-286 is `resumesBehind`. -/
lemma moveCursor_test (fv S : Nat) (m : SharedCacheMap) :
    (m.flags.modifiedWriteDisabled || (fv == S && (m.lazyWritePassCount &&& 0xF) == 0)) =
      resumesBehind (some fv) S m := by
  have h : (fv == S) = decide (some fv = some S) := by by_cases h : fv = S <;> simp [h]
  rw [resumesBehind, h, and_fifteen_eq_zero]

@[simp] lemma Scan.advance_alreadyMoved (s : State) (sc : Scan) :
    (Scan.advance s sc).2.alreadyMoved = sc.alreadyMoved := by
  unfold Scan.advance; split <;> rfl

@[simp] lemma Scan.advance_moveBehindCursor (s : State) (sc : Scan) :
    (Scan.advance s sc).2.moveBehindCursor = false := by
  unfold Scan.advance; split <;> simp_all

@[simp] lemma Scan.advance_pagesToWrite (s : State) (sc : Scan) :
    (Scan.advance s sc).2.pagesToWrite = sc.pagesToWrite := by
  unfold Scan.advance; split <;> rfl

@[simp] lemma Scan.advance_firstVisited (s : State) (sc : Scan) :
    (Scan.advance s sc).2.firstVisited = sc.firstVisited := by
  unfold Scan.advance; split <;> rfl

/-- Without a pending splice the successor is fetched and the list left alone (lines 352-359). -/
lemma Scan.advance_links (s : State) (sc : Scan) :
    (Scan.advance s sc).1.links = if sc.moveBehindCursor then
      (s.links.removeEntryList ccLazyWriterCursor).insertHeadList sc.sharedCacheMap ccLazyWriterCursor
    else s.links := by
  unfold Scan.advance; split <;> simp_all

/-- Once the place of the cursor is decided, `FirstVisited` is set, and the walk keeps it. -/
lemma ResumeInv.firstVisited_keep (hi : ResumeInv T L₀ B s sc E) (h : sc.alreadyMoved = true) (S : Nat) :
    some (sc.firstVisited.getD S) = sc.firstVisited := by
  obtain ⟨x, hx⟩ := Option.isSome_iff_exists.1 (hi.moved h).1
  rw [hx]; rfl

/-- The budget met at the `k`-th amount stays met there when more amounts follow. -/
lemma BudgetMet.append {a : List Nat} {k : Nat} (h : BudgetMet B a k) (hk : k < a.length) (b : List Nat) :
    BudgetMet B (a ++ b) k := by
  have ht : ∀ j ≤ k, (a ++ b).take (j + 1) = a.take (j + 1) := fun j hj =>
    List.take_append_of_le_length (by omega)
  exact ⟨(ht k le_rfl).symm ▸ h.1, fun j hj => (ht j hj.le).symm ▸ h.2 j hj⟩

/-- The budget is met at the amount that brings the sum to it, when the amounts before it did not. -/
lemma BudgetMet.last {a : List Nat} {x : Nat} (hlt : a = [] ∨ a.sum < B) (hle : B ≤ a.sum + x) :
    BudgetMet B (a ++ [x]) a.length := by
  refine ⟨by rw [List.take_of_length_le (by simp), List.sum_append]; simpa using hle, fun j hj => ?_⟩
  rw [List.take_append_of_le_length (by omega)]
  rcases hlt with rfl | hlt
  · simp at hj
  · have := List.sum_take_add_sum_drop a (j + 1)
    omega

/-- A stream whose amount reaches the budget left, before the budget was met, is where it is met. -/
lemma BudgetMet.reached {p : ULONG} {e : Nat × SharedCacheMap} (hlt : E = [] ∨ (amounts T E).sum < B)
    (hB : p.toNat + (amounts T E).sum = B) (hge : writeAmount T e.2 ≥ p) :
    BudgetMet B (amounts T (E ++ [e])) E.length := by
  rw [amounts_concat, ← amounts_length T E]
  refine BudgetMet.last (hlt.imp_left fun h => by simp [h, amounts]) ?_
  have := BitVec.le_def.1 hge
  omega

/-- The frame of a step that finds nothing and leaves the cursor alone, before or after the budget
is met: `FirstVisited` may be set only while nothing is decided. -/
lemma ResumeInv.keep (hi : ResumeInv T L₀ B s sc E) (hL : s₁.links = s.links)
    (hm : sc₁.alreadyMoved = sc.alreadyMoved) (hmb : sc₁.moveBehindCursor = sc.moveBehindCursor)
    (hp : sc₁.pagesToWrite = sc.pagesToWrite)
    (hfv : sc.alreadyMoved = true → sc₁.firstVisited = sc.firstVisited)
    (htop : sc₁.pc ≠ .top) (hw : sc₁.InWalk → sc.InWalk)
    (hpend : sc.moveBehindCursor = true → sc.Pending → sc₁.Pending ∧
      sc₁.sharedCacheMap = sc.sharedCacheMap) :
    ResumeInv T L₀ B s₁ sc₁ E := by
  refine ⟨fun h => absurd h htop, fun h => ?_, fun h => ?_⟩
  · obtain ⟨h1, h2, h3, h4⟩ := hi.unmoved (hm ▸ h)
    exact ⟨hL.trans h1, hmb.trans h2, h3, fun hw' => hp ▸ h4 (hw hw')⟩
  · obtain ⟨h1, k, hk, h2, hpl⟩ := hi.moved (hm ▸ h)
    exact ⟨hfv (hm ▸ h) ▸ h1, k, hk, h2, hpl.keep hL hmb (hfv (hm ▸ h)) hpend⟩

/-- Lines 228-360: an iteration of the walk. -/
lemma ResumeInv.walk (hi : ResumeInv T L₀ B s sc E) (hpc : sc.pc = .loop) (inp : Input) :
    ResumeInv T L₀ B (Scan.walk T inp.canIWrite s sc).1 (Scan.walk T inp.canIWrite s sc).2
      (E ++ Scan.found T inp s sc) := by
  have hmb : sc.moveBehindCursor = false := hi.not_behind (by simp [Scan.Pending, hpc])
  dsimp only [Scan.walk]
  split_ifs with h0 h1 h2
  · -- the walk ends
    rw [show Scan.found T inp s sc = [] by simp [Scan.found, h0], List.append_nil]
    exact hi.keep rfl rfl rfl rfl (fun _ => rfl) (by simp) (by simp [Scan.InWalk])
      (fun _ => by simp [Scan.Pending, hpc])
  · -- an eligible stream
    rw [show Scan.found T inp s sc = [(sc.sharedCacheMap,
      (eligible T sc.pagesToWrite inp.canIWrite (s.maps sc.sharedCacheMap)).2)] by
      simp [Scan.found, hpc, h0, h1]]
    generalize (eligible T sc.pagesToWrite inp.canIWrite (s.maps sc.sharedCacheMap)).2 = m
    generalize hq : Scan.moveCursor _ _ _ _ _ _ = q
    obtain ⟨s₂, sc₂⟩ := q
    unfold Scan.moveCursor at hq
    split_ifs at hq with hmv hge hbh <;> cases hq
    · -- the place of the cursor was decided before
      obtain ⟨h1, k, hk, h2, hpl⟩ := hi.moved hmv
      refine ⟨nofun, fun h => absurd hmv (by simp_all), fun _ => ⟨by simpa [hi.firstVisited_keep hmv] using h1,
        k, by simp; omega, ?_, ?_⟩⟩
      · simpa [amounts] using h2.append (by simpa [amounts] using hk) _
      · rw [List.getElem_append_left hk]
        exact hpl.keep rfl rfl (hi.firstVisited_keep hmv _) (fun _ => by simp [Scan.Pending, hpc])
    all_goals
      obtain ⟨hL, hmb', hlt, heq⟩ := hi.unmoved (by simpa using hmv)
      have hB := heq (.inl hpc)
    · -- the budget is met here, and the cursor is to go just behind the stream
      refine ⟨nofun, fun h => absurd h (by simp), fun _ => ⟨by simp, E.length, by simp, ?_, ?_⟩⟩
      · exact BudgetMet.reached hlt hB hge
      · rw [moveCursor_test] at hbh
        simp [Placed, hbh, hL, Scan.Pending]
    · -- the budget is met here, and the cursor goes just before the stream
      refine ⟨nofun, fun h => absurd h (by simp), fun _ => ⟨by simp, E.length, by simp,
        BudgetMet.reached hlt hB hge, ?_⟩⟩
      rw [moveCursor_test] at hbh
      simp [Placed, hbh, hL, hmb']
    · -- the budget is not met yet, and what is left of it goes down by the amount
      have hlt' : (writeAmount T m).toNat < sc.pagesToWrite.toNat := by
        simpa [BitVec.le_def] using hge
      refine ⟨nofun, fun _ => ⟨hL, hmb', .inr ?_, fun _ => ?_⟩, fun h => absurd h (by simpa using hmv)⟩
      all_goals simp only [amounts_concat, List.sum_append, List.sum_singleton]
      · omega
      · rw [BitVec.toNat_sub_of_le (BitVec.le_def.2 hlt'.le)]
        omega
  · -- lock courtesy
    rw [show Scan.found T inp s sc = [] by simp [Scan.found, h1], List.append_nil]
    exact hi.keep rfl rfl rfl rfl (hi.firstVisited_keep · _) (by simp) (by simp [Scan.InWalk, hpc])
      (fun _ => by simp [Scan.Pending, hpc])
  · -- on to the next stream
    rw [show Scan.found T inp s sc = [] by simp [Scan.found, h1], List.append_nil]
    exact hi.keep (by simp [Scan.advance_links, hmb]) (by simp) (by simp [hmb]) (by simp)
      (by simpa using hi.firstVisited_keep · _) (by simp [Scan.advance_pc]) (by simp [Scan.InWalk, hpc])
      (fun _ => by simp [Scan.Pending, hpc])

/-- Lines 140-231: the top of the scan goes idle without a walk, or computes the budget and starts
the walk with all of it left. -/
lemma ResumeInv.start (hi : ResumeInv T L₀ B s sc E) (hpc : sc.pc = .top)
    (hB : (pagesToWrite s.totalDirtyPages s.pagesWrittenLastTime s.dirtyPagesLastScan
      T.dirtyPageTarget).toNat = B) :
    ResumeInv T L₀ B (Scan.start T s sc).1 (Scan.start T s sc).2 E := by
  obtain ⟨rfl, hm⟩ := hi.top hpc
  unfold Scan.start
  split_ifs
  · exact hi.keep rfl rfl rfl rfl (fun h => absurd h (by simp [hm])) nofun (by simp [Scan.InWalk])
      (by simp [Scan.Pending, hpc])
  · exact hi.keep rfl rfl rfl rfl (fun h => absurd h (by simp [hm])) nofun (by simp [Scan.InWalk])
      (by simp [Scan.Pending, hpc])
  · obtain ⟨hL, hmb, -, -⟩ := hi.unmoved hm
    exact ⟨nofun, fun _ => ⟨hL, hmb, .inl rfl, fun _ => by simpa [amounts] using hB⟩,
      fun h => absurd h (by simp [hm])⟩

/-- The post of lines 320-335 leaves the list and the cursor fields of the scan as the end of the
iteration makes them (lines 352-359). -/
lemma Scan.post_cursor (e : Entry) (s : State) (sc : Scan) :
    (Scan.post e s sc).1.links = (Scan.advance s sc).1.links ∧ (Scan.post e s sc).2.pc = .loop ∧
      (Scan.post e s sc).2.alreadyMoved = sc.alreadyMoved ∧
      (Scan.post e s sc).2.moveBehindCursor = false ∧
      (Scan.post e s sc).2.pagesToWrite = sc.pagesToWrite ∧
      (Scan.post e s sc).2.firstVisited = sc.firstVisited := by
  unfold Scan.post; simp [Scan.advance_links, State.updateMap, Scan.advance_pc]

/-- Lines 320-335 and the end of the iteration: the entry is posted, and a pending splice behind
the stream is made (lines 352-359). -/
lemma ResumeInv.post (hi : ResumeInv T L₀ B s sc E) {e : Entry} (hpc : sc.pc = .posting e) :
    ResumeInv T L₀ B (Scan.post e s sc).1 (Scan.post e s sc).2 E := by
  obtain ⟨hL, hpc', hm, hmb', hp, hfv⟩ := Scan.post_cursor e s sc
  rw [Scan.advance_links] at hL
  generalize Scan.post e s sc = p at *
  cases hmb : sc.moveBehindCursor
  · rw [hmb, if_neg (by simp)] at hL
    exact hi.keep hL hm (hmb'.trans hmb.symm) hp (fun _ => hfv) (by simp [hpc'])
      (fun _ => .inr (.inr (.inr ⟨e, hpc⟩))) (fun h => absurd h (by simp [hmb]))
  · -- the splice behind the stream at which the budget was met
    rw [hmb, if_pos rfl] at hL
    have ham : sc.alreadyMoved = true := by
      cases h : sc.alreadyMoved
      · simpa [hmb] using (hi.unmoved h).2.1
      · rfl
    obtain ⟨h1, k, hk, h2, hpl⟩ := hi.moved ham
    refine ⟨by simp [hpc'], fun h => absurd (hm.symm.trans h) (by simp [ham]),
      fun _ => ⟨hfv ▸ h1, k, hk, h2, ?_⟩⟩
    unfold Placed at hpl ⊢
    rw [hfv, hmb']
    split_ifs at hpl ⊢
    · rcases hpl with ⟨-, hL₀, hS, -⟩ | ⟨h, -⟩
      · exact .inr ⟨rfl, by rw [hL, hL₀, hS]⟩
      · simp [hmb] at h
    · simp [hmb] at hpl

/-- Lines 308-309: the allocation succeeds, and the stream stays pinned for its entry. -/
lemma ResumeInv.allocate (hi : ResumeInv T L₀ B s sc E) (hpc : sc.pc = .alloc) :
    ResumeInv T L₀ B (Scan.allocate true s sc).1 (Scan.allocate true s sc).2 E :=
  hi.keep rfl rfl rfl rfl (fun _ => rfl) nofun (fun _ => .inr (.inl hpc))
    (fun _ _ => ⟨.inr ⟨_, rfl⟩, rfl⟩)

/-- Lines 343-345: the lock courtesy ends, and the walk moves on. -/
lemma ResumeInv.courtesy (hi : ResumeInv T L₀ B s sc E) (hpc : sc.pc = .courtesy) :
    ResumeInv T L₀ B (Scan.courtesy s sc).1 (Scan.courtesy s sc).2 E := by
  have hmb := hi.not_behind (by simp [Scan.Pending, hpc])
  exact hi.keep (by simp [Scan.courtesy, Scan.advance_links, hmb, State.updateMap]) (by simp [Scan.courtesy])
    (by simp [Scan.courtesy, hmb]) (by simp [Scan.courtesy]) (fun _ => by simp [Scan.courtesy])
    (by simp [Scan.courtesy, Scan.advance_pc]) (fun _ => .inr (.inr (.inl hpc)))
    (fun h => absurd h (by simp [hmb]))

/-- Lines 365-371: the drain of the post-tick queue. -/
lemma ResumeInv.drain (hi : ResumeInv T L₀ B s sc E) (hpc : sc.pc = .drain) :
    ResumeInv T L₀ B (Scan.drain s sc).1 (Scan.drain s sc).2 E := by
  unfold Scan.drain
  split
  · exact hi.keep (by simp) rfl rfl rfl (fun _ => rfl) (by simp [hpc])
      (by simp [Scan.InWalk, hpc]) (by simp [Scan.Pending, hpc])
  · exact hi.keep rfl rfl rfl rfl (fun _ => rfl) nofun (by simp [Scan.InWalk])
      (by simp [Scan.Pending, hpc])

/-- Lines 376-380: the poke of the next scan. -/
lemma ResumeInv.poke (hi : ResumeInv T L₀ B s sc E) (hpc : sc.pc = .poke) :
    ResumeInv T L₀ B (Scan.poke s sc).1 (Scan.poke s sc).2 E :=
  hi.keep (ccScheduleLazyWriteScan_links false) rfl rfl rfl (fun _ => rfl) nofun
    (by simp [Scan.InWalk, Scan.poke]) (by simp [Scan.Pending, hpc])

lemma Scan.found_of_ne_loop {inp : Input} (h : sc.pc ≠ .loop) : Scan.found T inp s sc = [] := by
  simp [Scan.found, h]

/-- A step of a scan never goes back to the top. -/
lemma scanStep_pc_ne_top {inp : Input} (h : scanStep T inp s sc = some (s₁, sc₁)) : sc₁.pc ≠ .top := by
  rcases scanStep_cases h with ⟨-, -, h⟩ | ⟨-, h⟩ | ⟨-, -, h⟩ | ⟨e, -, -, h⟩ | ⟨-, -, h⟩ | ⟨hpc, h⟩ |
    ⟨-, h⟩ <;> rw [show sc₁ = _ from congrArg Prod.snd h]
  · unfold Scan.start; split_ifs <;> simp
  · rcases Scan.walk_pc T inp.canIWrite s sc with h | h | h | h <;> simp [h]
  · unfold Scan.allocate; split <;> simp
  · simp [Scan.post_cursor]
  · simp [Scan.courtesy, Scan.advance_pc]
  · unfold Scan.drain; split <;> simp [hpc]
  · simp [Scan.poke]

/-- Every step of a scan whose allocation succeeds keeps `ResumeInv`, with what it finds eligible
added. -/
lemma ResumeInv.step {inp : Input} (hi : ResumeInv T L₀ B s sc E) (hok : inp.allocOk = true)
    (hB : sc.pc = .top → (pagesToWrite s.totalDirtyPages s.pagesWrittenLastTime s.dirtyPagesLastScan
      T.dirtyPageTarget).toNat = B)
    (h : scanStep T inp s sc = some (s₁, sc₁)) :
    ResumeInv T L₀ B s₁ sc₁ (E ++ Scan.found T inp s sc) := by
  rcases scanStep_cases h with ⟨hpc, -, h⟩ | ⟨hpc, h⟩ | ⟨hpc, -, h⟩ | ⟨e, hpc, -, h⟩ | ⟨hpc, -, h⟩ |
    ⟨hpc, h⟩ | ⟨hpc, h⟩ <;> rw [show s₁ = _ from congrArg Prod.fst h, show sc₁ = _ from congrArg Prod.snd h]
  · rw [Scan.found_of_ne_loop (by simp [hpc]), List.append_nil]; exact hi.start hpc (hB hpc)
  · exact hi.walk hpc inp
  all_goals rw [Scan.found_of_ne_loop (by simp [hpc]), List.append_nil]
  · rw [hok]; exact hi.allocate hpc
  · exact hi.post hpc
  · exact hi.courtesy hpc
  · exact hi.drain hpc
  · exact hi.poke hpc

end Steps

/-- The budget is met at one amount at most. -/
lemma BudgetMet.unique {B : Nat} {a : List Nat} {k k' : Nat} (h : BudgetMet B a k) (h' : BudgetMet B a k') :
    k = k' := by
  by_contra hne
  rcases Nat.lt_or_gt_of_ne hne with hlt | hlt
  · exact absurd h.1 (not_le.2 (h'.2 k hlt))
  · exact absurd h'.1 (not_le.2 (h.2 k' hlt))

/-- The walk finds eligible only its current stream, which is not the cursor. -/
lemma Scan.found_current {T : Tunables} {inp : Input} {s : State} {sc : Scan} {e : Nat × SharedCacheMap}
    (h : e ∈ Scan.found T inp s sc) : e.1 = sc.sharedCacheMap ∧ sc.sharedCacheMap ≠ ccLazyWriterCursor := by
  unfold Scan.found at h
  split_ifs at h with hc
  · simp only [List.mem_singleton] at h
    subst h
    exact ⟨rfl, fun h => hc.2.1 (.inr h)⟩
  · simp at h

/-- The cursor spliced in just before a stream `S` of a ring is `S`'s predecessor. -/
lemma Links.Ring.flink_cursor_of_splice {L : Links} {l : List Nat} {S : Nat} (hr : L.Ring l) (hd : l.Nodup)
    (hS : S ∈ l) (hc : ccLazyWriterCursor ∈ l) (hSc : S ≠ ccLazyWriterCursor) :
    ((L.removeEntryList ccLazyWriterCursor).insertTailList S ccLazyWriterCursor).flink ccLazyWriterCursor =
      S := by
  obtain ⟨a, b, rfl⟩ := List.append_of_mem hS
  have hrot : (a ++ S :: b).IsRotated (S :: (b ++ a)) :=
    ⟨a.length, by rw [List.rotate_append_length_eq]; simp⟩
  have hc' : ccLazyWriterCursor ∈ b ++ a := by simpa [Ne.symm hSc, or_comm] using hc
  exact ((hr.isRotated hrot).moveBefore (hrot.nodup_iff.1 hd) hc').last_link.1

/-- A scan that has not started has done nothing with the cursor. -/
lemma ResumeInv.init (T : Tunables) (B : Nat) (s : State) : ResumeInv T s.links B s Scan.init [] :=
  ⟨fun _ => ⟨rfl, rfl⟩, fun _ => ⟨rfl, rfl, .inl rfl, fun h => by simp [Scan.InWalk, Scan.init] at h⟩,
    fun h => absurd h (by simp [Scan.init])⟩

/-- The runs of a scan keep `ResumeInv` from its start, stay on the ring they started on, and
find eligible only streams of it other than the cursor. -/
lemma BudgetRun.resumeInv {T : Tunables} {L₀ : Links} {l : List Nat} {B : Nat} {s s' : State} {sc sc' : Scan}
    {E E₀ : List (Nat × SharedCacheMap)} (hr : L₀.Ring l) (hd : l.Nodup) (hc : ccLazyWriterCursor ∈ l)
    (h : BudgetRun T s sc s' sc' E) (hi : ResumeInv T L₀ B s sc E₀) (hsp : SpliceRun L₀ l s sc)
    (hm : ∀ e ∈ E₀, e.1 ∈ l ∧ e.1 ≠ ccLazyWriterCursor)
    (hB : sc.pc = .top → (pagesToWrite s.totalDirtyPages s.pagesWrittenLastTime s.dirtyPagesLastScan
      T.dirtyPageTarget).toNat = B) :
    ResumeInv T L₀ B s' sc' (E₀ ++ E) ∧ SpliceRun L₀ l s' sc' ∧
      ∀ e ∈ E₀ ++ E, e.1 ∈ l ∧ e.1 ≠ ccLazyWriterCursor := by
  induction h generalizing E₀ with
  | refl => rw [List.append_nil]; exact ⟨hi, hsp, hm⟩
  | other htop hL _ ih =>
    exact ih (hi.keep hL rfl rfl rfl (fun _ => rfl) htop id (fun _ h => ⟨h, rfl⟩))
      ⟨hsp.behind, hL ▸ hsp.links, hsp.current⟩ hm (absurd · htop)
  | @cons s s₁ s' sc sc₁ sc' E inp hok h1 _ ih =>
    rw [← List.append_assoc]
    refine ih (hi.step hok hB h1) (hsp.step hr hd hc h1) (fun e he => ?_)
      (fun h => absurd h (scanStep_pc_ne_top h1))
    rcases List.mem_append.1 he with he | he
    · exact hm e he
    · obtain ⟨he1, hne⟩ := Scan.found_current he
      exact he1 ▸ ⟨hsp.current, hne⟩

section Landing

variable {T : Tunables} {s s' : State} {sc' : Scan} {E : List (Nat × SharedCacheMap)} {l : List Nat}

/-- `BudgetRun.resumeInv` from the first line of a scan, with the budget the scan computes. -/
lemma BudgetRun.resumeInv_init (hr : s.links.Ring l) (hd : l.Nodup) (hc : ccLazyWriterCursor ∈ l)
    (hrun : BudgetRun T s Scan.init s' sc' E) :
    ResumeInv T s.links (pagesToWrite s.totalDirtyPages s.pagesWrittenLastTime s.dirtyPagesLastScan
      T.dirtyPageTarget).toNat s' sc' E ∧ SpliceRun s.links l s' sc' ∧
      ∀ e ∈ E, e.1 ∈ l ∧ e.1 ≠ ccLazyWriterCursor := by
  simpa using hrun.resumeInv hr hd hc (ResumeInv.init T _ s) ⟨.of_false rfl, .inl ⟨rfl, le_refl _⟩, hc⟩
    (by simp) (fun _ => rfl)

/-- Where a scan that ran to its end left the dirty list, once its budget was met at the `k`-th
stream it found eligible: spliced once, just behind or just before that stream. -/
lemma BudgetRun.landing (hr : s.links.Ring l) (hd : l.Nodup) (hc : ccLazyWriterCursor ∈ l)
    (hrun : BudgetRun T s Scan.init s' sc' E) (hdone : sc'.pc = .done) {k : Nat} (hk : k < E.length)
    (hmet : BudgetMet (pagesToWrite s.totalDirtyPages s.pagesWrittenLastTime s.dirtyPagesLastScan
      T.dirtyPageTarget).toNat (amounts T E) k) :
    s'.links = if resumesBehind sc'.firstVisited E[k].1 E[k].2 then
      (s.links.removeEntryList ccLazyWriterCursor).insertHeadList E[k].1 ccLazyWriterCursor
    else (s.links.removeEntryList ccLazyWriterCursor).insertTailList E[k].1 ccLazyWriterCursor := by
  obtain ⟨hi, -, -⟩ := hrun.resumeInv_init hr hd hc
  cases ham : sc'.alreadyMoved
  · -- before the budget is met no prefix of the amounts reaches it
    obtain ⟨-, -, hlt, -⟩ := hi.unmoved ham
    rcases hlt with rfl | hlt
    · simp at hk
    · have := List.sum_take_add_sum_drop (amounts T E) (k + 1)
      exact absurd hmet.1 (by omega)
  · obtain ⟨-, k', hk', hmet', hpl⟩ := hi.moved ham
    obtain rfl := hmet.unique hmet'
    unfold Placed at hpl
    split_ifs at hpl ⊢
    · rcases hpl with ⟨-, -, -, hp⟩ | ⟨-, hL⟩
      · exact absurd hp (by simp [Scan.Pending, hdone])
      · exact hL
    · exact hpl.2

end Landing

/-- Lines 197-299 and 352-359, for a scan on a well-formed dirty list whose allocations all succeed
and that nothing else changes the list under. Let `E` be the streams found eligible, in visit order,
and `B` the budget of lines 197-214. If the amounts of the first `k + 1` of them are the first to
add up to `B`, the cursor has been spliced once, next to the `k`-th: just behind it if it is a
metadata stream or `FirstVisited` with a pass count that is a multiple of 16, just before it
otherwise. If no prefix of the amounts reaches `B`, the list is as the scan found it. -/
theorem cursor_lands_at_budget_stream {T : Tunables} {s s' : State} {sc' : Scan}
    {E : List (Nat × SharedCacheMap)} {l : List Nat} (hr : s.links.Ring l) (hd : l.Nodup)
    (hc : ccLazyWriterCursor ∈ l) (hrun : BudgetRun T s Scan.init s' sc' E) (hdone : sc'.pc = .done) :
    (∀ k (hk : k < E.length), BudgetMet (pagesToWrite s.totalDirtyPages s.pagesWrittenLastTime
        s.dirtyPagesLastScan T.dirtyPageTarget).toNat (amounts T E) k →
      if resumesBehind sc'.firstVisited E[k].1 E[k].2 then
        s'.links = (s.links.removeEntryList ccLazyWriterCursor).insertHeadList E[k].1 ccLazyWriterCursor ∧
          s'.links.flink E[k].1 = ccLazyWriterCursor
      else
        s'.links = (s.links.removeEntryList ccLazyWriterCursor).insertTailList E[k].1 ccLazyWriterCursor ∧
          s'.links.flink ccLazyWriterCursor = E[k].1) ∧
    ((∀ k < E.length, ((amounts T E).take (k + 1)).sum < (pagesToWrite s.totalDirtyPages
        s.pagesWrittenLastTime s.dirtyPagesLastScan T.dirtyPageTarget).toNat) → s'.links = s.links) := by
  obtain ⟨hi, -, hm⟩ := hrun.resumeInv_init hr hd hc
  constructor
  · intro k hk hmet
    have hS := hm _ (List.getElem_mem hk)
    have hL := hrun.landing hr hd hc hdone hk hmet
    split_ifs at hL ⊢
    · exact ⟨hL, by rw [hL]; simp [Links.insertHeadList]⟩
    · exact ⟨hL, by rw [hL]; exact hr.flink_cursor_of_splice hd hS.1 hc hS.2⟩
  · intro hno
    cases ham : sc'.alreadyMoved
    · exact (hi.unmoved ham).1
    · obtain ⟨-, k, hk, hmet, -⟩ := hi.moved ham
      exact absurd hmet.1 (not_le.2 (hno k hk))

lemma BudgetRun.of_runScan (T : Tunables) (inp : Input) (hok : inp.allocOk = true) (n : Nat) (s : State)
    (sc : Scan) : BudgetRun T s sc (runScan T inp n s sc).1 (runScan T inp n s sc).2.1
      (runScan T inp n s sc).2.2 := by
  induction n generalizing s sc with
  | zero => exact .refl s sc
  | succ n ih =>
    rw [runScan]
    split
    · next s₁ sc₁ h => exact .cons inp hok h (ih s₁ sc₁)
    · exact .refl s sc

/-- `threeStreams` with 5 dirty pages in stream 2 and 100 in stream 3: the budget of the tick is 13,
and the walk finds streams 2, 3 and 4 eligible, stream 4 for its lazy close. -/
def laterStreams : State :=
  { threeStreams with
    maps := Function.update (Function.update threeStreams.maps 2 ⟨⟨false, false, false, false, false⟩, 5, 0, 1, 4096, 0⟩)
      3 ⟨⟨false, false, false, false, false⟩, 100, 0, 1, 4096, 0⟩
    totalDirtyPages := 105 }

/-- On `laterStreams` stream 2 takes 5 pages of the budget of 13 and stream 3, the second stream
found, meets it; stream 3 is not `FirstVisited`, so the cursor ends just before it. -/
theorem cursor_lands_before_second_stream :
    (runScan ⟨1000, false, 16⟩ ⟨true, true, ⟨true, false, false⟩⟩ 14 laterStreams Scan.init).2.2.map Prod.fst =
      [2, 3, 4] ∧
    (runScan ⟨1000, false, 16⟩ ⟨true, true, ⟨true, false, false⟩⟩ 14 laterStreams Scan.init).1.links.flink
      ccLazyWriterCursor = 3 ∧
    (runScan ⟨1000, false, 16⟩ ⟨true, true, ⟨true, false, false⟩⟩ 14 laterStreams Scan.init).1.links.flink 2 =
      ccLazyWriterCursor := by
  have h := (cursor_lands_at_budget_stream (l := [ccDirtySharedCacheMapList, ccLazyWriterCursor, 2, 3, 4])
    (by decide) (by decide) (by decide)
    (BudgetRun.of_runScan ⟨1000, false, 16⟩ ⟨true, true, ⟨true, false, false⟩⟩ rfl 14 laterStreams Scan.init)
    (by decide)).1 1 (by decide) (by decide)
  rw [if_neg (by decide)] at h
  exact ⟨by decide, h.2, by rw [h.1]; decide⟩

end LazyWriter
