import LazyWriter.Resume

/-!
# The push-forward of a hot stream

Lines 245-256 add one to the `LazyWritePassCount` of every stream whose test reaches the increment,
and lines 285-290 put the cursor just behind the stream that meets the budget when it is
`FirstVisited` and its count has reached a multiple of 16. This module shows what that is for: over
scans one after another whose allocations all succeed, one stream cannot be the first visited and
meet the budget of more than 16 of them in a row.

`PassInv` says what a scan has done with the pass count of a stream `S` between its top and its end:
`S` is `FirstVisited` only if it was the cursor's successor when the scan started, and its count is
then the one its single test left, one more than before the scan. The lemmas on each routine
(`PassInv.start`, `PassInv.walk`, `PassInv.keep`) give `PassInv.step`, and `PassRun.firstVisited_eq`
is the run lemma. `PassRun` is a run of one scan in which anything may happen between its steps that
leaves the dirty list and the count of `S` alone; when every allocation succeeds it is a `BudgetRun`
(`PassRun.budgetRun`), so where the cursor lands (`BudgetRun.landing`) applies to it. `HotScan.push`
puts the two together for one scan that is hot for `S`, and `hot_stream_pushed_within_sixteen_scans`
follows by induction on the scans.

The bound needs the allocations to succeed. A failed `CcAllocateWorkQueueEntry` leaves the walk at
line 317, before the splice of lines 352-357 that would have put the cursor behind `S`; at the other
counts the cursor was spliced in before `S` already, ahead of the allocation. `HotAt.failing_scan`
runs such a scan symbolically from every state of one shape (`HotAt`) and ends in the same shape with
the count one higher, so in `hot_stream_kept_while_allocation_fails` every scan of an unbounded
sequence is hot for stream 2.
-/

namespace LazyWriter

section PassCount

variable {T : Tunables} {s s₁ : State} {sc sc₁ : Scan} {inp : Input}

/-- `updateMap` with a function that keeps the pass count keeps every pass count. -/
lemma State.updateMap_passCount {y : Nat} {f : SharedCacheMap → SharedCacheMap}
    (hf : ∀ m, (f m).lazyWritePassCount = m.lazyWritePassCount) (x : Nat) :
    ((s.updateMap y f).maps x).lazyWritePassCount = (s.maps x).lazyWritePassCount := by
  by_cases h : x = y
  · subst h; simp [State.updateMap, hf]
  · simp [State.updateMap, Function.update_noteq h]

/-- On a stream it accepts, the test of lines 245-256 adds one to the pass count when its
short-circuit evaluation reaches `++SharedCacheMap->LazyWritePassCount`: the stream has dirty pages,
is not waiting for teardown, and budget is left. -/
lemma eligible_passCount {p : ULONG} {c : Bool} {m : SharedCacheMap} (h : (eligible T p c m).1 = true)
    (hd : m.dirtyPages ≠ 0) (hw : m.flags.waitingForTeardown = false) (hp : p ≠ 0) :
    (eligible T p c m).2.lazyWritePassCount = m.lazyWritePassCount + 1 := by
  simp only [eligible] at h ⊢
  split_ifs at h ⊢ with h1 h2 <;> simp_all

/-- An iteration of the walk changes the pass count of its current stream only, to what the test
of lines 245-256 left, and not when the loop test ends the walk. -/
lemma Scan.walk_passCount (c : Bool) (s : State) (sc : Scan) (x : Nat) :
    ((Scan.walk T c s sc).1.maps x).lazyWritePassCount =
      if x = sc.sharedCacheMap ∧ ¬(sc.firstVisited = some x ∨ x = ccLazyWriterCursor)
      then (eligible T sc.pagesToWrite c (s.maps x)).2.lazyWritePassCount
      else (s.maps x).lazyWritePassCount := by
  dsimp only [Scan.walk]
  rcases eq_or_ne x sc.sharedCacheMap with rfl | hx
  · by_cases h0 : sc.firstVisited = some sc.sharedCacheMap ∨ sc.sharedCacheMap = ccLazyWriterCursor
    · rw [if_pos h0, if_neg (show ¬(_ ∧ ¬_) from fun h => h.2 h0)]
    · rw [if_neg h0, if_pos (show _ ∧ ¬_ from ⟨rfl, h0⟩)]
      split_ifs <;> simp [SharedCacheMap.pin]
  · rw [if_neg (show ¬(x = _ ∧ _) from fun h => hx h.1)]
    split_ifs <;> simp [Function.update_noteq hx]

/-- The cursor moves of lines 271-299 leave `FirstVisited` alone. -/
lemma Scan.moveCursor_firstVisited (mwd : Bool) (fv : Nat) (pass amount : ULONG) :
    (Scan.moveCursor s sc mwd fv pass amount).2.firstVisited = sc.firstVisited := by
  unfold Scan.moveCursor; split_ifs <;> rfl

/-- An iteration of the walk keeps `FirstVisited`, or sets it to its current stream if it was
not set yet (lines 229-231). -/
lemma Scan.walk_firstVisited (c : Bool) (s : State) (sc : Scan) :
    (Scan.walk T c s sc).2.firstVisited =
      if sc.firstVisited = some sc.sharedCacheMap ∨ sc.sharedCacheMap = ccLazyWriterCursor
      then sc.firstVisited else some (sc.firstVisited.getD sc.sharedCacheMap) := by
  dsimp only [Scan.walk]
  split_ifs
  · rfl
  · exact Scan.moveCursor_firstVisited ..
  · rfl
  · exact Scan.advance_firstVisited ..

/-- The steps of a scan other than the walk change no pass count. -/
lemma scanStep_passCount (h : scanStep T inp s sc = some (s₁, sc₁)) (hpc : sc.pc ≠ .loop) (x : Nat) :
    (s₁.maps x).lazyWritePassCount = (s.maps x).lazyWritePassCount := by
  rcases scanStep_cases h with ⟨-, -, h⟩ | ⟨hpc', -⟩ | ⟨-, -, h⟩ | ⟨e, -, -, h⟩ | ⟨-, -, h⟩ | ⟨-, h⟩ |
    ⟨-, h⟩
  · rw [show s₁ = _ from congrArg Prod.fst h]; unfold Scan.start; split_ifs <;> rfl
  · exact absurd hpc' hpc
  · rw [show s₁ = _ from congrArg Prod.fst h]; unfold Scan.allocate; split
    · rfl
    · simpa using State.updateMap_passCount (f := SharedCacheMap.unpin) (fun _ => rfl) x
  · rw [show s₁ = _ from congrArg Prod.fst h]
    simpa [Scan.post] using State.updateMap_passCount (f := SharedCacheMap.unbias) (fun _ => rfl) x
  · rw [show s₁ = _ from congrArg Prod.fst h]
    simpa [Scan.courtesy] using State.updateMap_passCount (f := SharedCacheMap.unpin) (fun _ => rfl) x
  · rw [show s₁ = _ from congrArg Prod.fst h]; unfold Scan.drain; split <;> simp
  · rw [show s₁ = _ from congrArg Prod.fst h]; simp [Scan.poke, ccScheduleLazyWriteScan_maps]

/-- The steps of a scan past its top other than the walk keep `FirstVisited`. -/
lemma scanStep_firstVisited (h : scanStep T inp s sc = some (s₁, sc₁)) (hpc : sc.pc ≠ .loop)
    (htop : sc.pc ≠ .top) : sc₁.firstVisited = sc.firstVisited := by
  rcases scanStep_cases h with ⟨hpc', -⟩ | ⟨hpc', -⟩ | ⟨-, -, h⟩ | ⟨e, -, -, h⟩ | ⟨-, -, h⟩ | ⟨-, h⟩ |
    ⟨-, h⟩
  · exact absurd hpc' htop
  · exact absurd hpc' hpc
  all_goals rw [show sc₁ = _ from congrArg Prod.snd h]
  · unfold Scan.allocate; split <;> rfl
  · exact (Scan.post_cursor e s sc).2.2.2.2.2
  · simp [Scan.courtesy]
  · unfold Scan.drain; split <;> rfl
  · rfl

end PassCount

/-- A run of one scan in which every step gets answers of the collaborators that `A` allows, with
the streams its walk found eligible. Once the scan is past its top, anything else may change
anything but the dirty list and the `LazyWritePassCount` of `S` between two of its steps. -/
inductive PassRun (T : Tunables) (A : Input → Prop) (S : Nat) :
    State → Scan → State → Scan → List (Nat × SharedCacheMap) → Prop
  | refl (s : State) (sc : Scan) : PassRun T A S s sc s sc []
  | cons {s s₁ s' : State} {sc sc₁ sc' : Scan} {E : List (Nat × SharedCacheMap)} (inp : Input) :
      A inp → scanStep T inp s sc = some (s₁, sc₁) → PassRun T A S s₁ sc₁ s' sc' E →
      PassRun T A S s sc s' sc' (Scan.found T inp s sc ++ E)
  | other {s s₁ s' : State} {sc sc' : Scan} {E : List (Nat × SharedCacheMap)} :
      sc.pc ≠ .top → s₁.links = s.links →
      (s₁.maps S).lazyWritePassCount = (s.maps S).lazyWritePassCount →
      PassRun T A S s₁ sc s' sc' E → PassRun T A S s sc s' sc' E

/-- A `PassRun` whose allocations all succeed is a `BudgetRun`. -/
lemma PassRun.budgetRun {T : Tunables} {A : Input → Prop} {S : Nat} {s s' : State} {sc sc' : Scan}
    {E : List (Nat × SharedCacheMap)} (hA : ∀ inp, A inp → inp.allocOk = true)
    (h : PassRun T A S s sc s' sc' E) : BudgetRun T s sc s' sc' E := by
  induction h with
  | refl => exact .refl _ _
  | cons inp ha h1 _ ih => exact .cons inp (hA inp ha) h1 ih
  | other htop hL _ _ ih => exact .other htop hL ih

/-- A run of a scan alone with the answers `inp` is a `PassRun` when `A` allows them. -/
lemma PassRun.of_runScan (T : Tunables) {A : Input → Prop} (inp : Input) (hA : A inp) (S n : Nat)
    (s : State) (sc : Scan) : PassRun T A S s sc (runScan T inp n s sc).1 (runScan T inp n s sc).2.1
      (runScan T inp n s sc).2.2 := by
  induction n generalizing s sc with
  | zero => exact .refl s sc
  | succ n ih =>
    rw [runScan]
    split
    · next s₁ sc₁ h => exact .cons inp hA h (ih s₁ sc₁)
    · exact .refl s sc

/-- What a scan started on the dirty list `L₀`, with the pass count of `S` at `c` and the budget
`B`, has done with that pass count, having found `E` eligible. Until a stream is visited the count
is `c`, and a walk about to start is at the cursor's successor with all of `B` left. Once `S` is
`FirstVisited`, it was the cursor's successor, its count is what the test of its one visit left,
and that test added one to `c` if `S` had dirty pages, was not waiting for teardown and budget was
left. -/
structure PassInv (T : Tunables) (L₀ : Links) (S : Nat) (c : ULONG) (B : Nat) (s : State) (sc : Scan)
    (E : List (Nat × SharedCacheMap)) : Prop where
  top : sc.pc = .top → sc.firstVisited = none ∧ s.links = L₀
  fresh : sc.firstVisited = none → E = [] ∧ (s.maps S).lazyWritePassCount = c ∧
    (sc.InWalk → sc.pc = .loop ∧ sc.sharedCacheMap = L₀.flink ccLazyWriterCursor ∧
      sc.pagesToWrite.toNat = B)
  first : sc.firstVisited = some S → L₀.flink ccLazyWriterCursor = S ∧ ∀ e ∈ E, e.1 = S →
    (s.maps S).lazyWritePassCount = e.2.lazyWritePassCount ∧
    (e.2.dirtyPages ≠ 0 → e.2.flags.waitingForTeardown = false → B ≠ 0 →
      e.2.lazyWritePassCount = c + 1)

section Steps

variable {T : Tunables} {L₀ : Links} {S : Nat} {c : ULONG} {B : Nat} {s s₁ : State} {sc sc₁ : Scan}
  {E : List (Nat × SharedCacheMap)}

/-- A scan that has not started has done nothing with the pass count. -/
lemma PassInv.init (T : Tunables) (S : Nat) (B : Nat) (s : State) :
    PassInv T s.links S (s.maps S).lazyWritePassCount B s Scan.init [] :=
  ⟨fun _ => ⟨rfl, rfl⟩, fun _ => ⟨rfl, rfl, fun h => absurd h (by simp [Scan.InWalk, Scan.init])⟩,
    fun h => absurd h (by simp [Scan.init])⟩

/-- The frame of a step past the top that finds nothing, keeps `FirstVisited` and the pass count
of `S`, and enters the walk only if it changes nothing of the scan. -/
lemma PassInv.keep (hi : PassInv T L₀ S c B s sc E) (hfv : sc₁.firstVisited = sc.firstVisited)
    (hc : (s₁.maps S).lazyWritePassCount = (s.maps S).lazyWritePassCount) (htop : sc₁.pc ≠ .top)
    (hw : sc.firstVisited = none → sc₁.InWalk → sc₁ = sc) : PassInv T L₀ S c B s₁ sc₁ E := by
  refine ⟨fun h => absurd h htop, fun h => ?_, fun h => ?_⟩
  · obtain ⟨h1, h2, h3⟩ := hi.fresh (hfv ▸ h)
    refine ⟨h1, hc.trans h2, fun hw' => ?_⟩
    obtain rfl := hw (hfv ▸ h) hw'
    exact h3 hw'
  · obtain ⟨h1, h2⟩ := hi.first (hfv ▸ h)
    exact ⟨h1, fun e he hS => hc ▸ h2 e he hS⟩

/-- Lines 140-231: the top of the scan goes idle without a walk, or starts the walk at the
cursor's successor with all of the budget. -/
lemma PassInv.start (hi : PassInv T L₀ S c B s sc E) (hpc : sc.pc = .top)
    (hB : (pagesToWrite s.totalDirtyPages s.pagesWrittenLastTime s.dirtyPagesLastScan
      T.dirtyPageTarget).toNat = B) :
    PassInv T L₀ S c B (Scan.start T s sc).1 (Scan.start T s sc).2 E := by
  obtain ⟨hfv, hL⟩ := hi.top hpc
  unfold Scan.start
  split_ifs
  · exact hi.keep rfl rfl nofun (fun _ h => absurd h (by simp [Scan.InWalk]))
  · exact hi.keep rfl rfl nofun (fun _ h => absurd h (by simp [Scan.InWalk]))
  · obtain ⟨hE, hc, -⟩ := hi.fresh hfv
    exact ⟨nofun, fun _ => ⟨hE, hc, fun _ => ⟨rfl, by rw [hL], hB⟩⟩, nofun⟩

/-- The loop test of line 228 ends the walk at `FirstVisited` or at the cursor. -/
lemma Scan.walk_end {c : Bool}
    (h0 : sc.firstVisited = some sc.sharedCacheMap ∨ sc.sharedCacheMap = ccLazyWriterCursor) :
    Scan.walk T c s sc = (s, { sc with pc := .drain }) := by
  simp only [Scan.walk, if_pos h0]

/-- An iteration of the walk never goes back to the top of the scan. -/
lemma Scan.walk_ne_top (c : Bool) : (Scan.walk T c s sc).2.pc ≠ .top := by
  rcases Scan.walk_pc T c s sc with h | h | h | h <;> simp [h]

/-- Lines 228-360: an iteration of the walk. Its first iteration sets `FirstVisited` to the
cursor's successor; a later one never tests `FirstVisited` again. -/
lemma PassInv.walk (hi : PassInv T L₀ S c B s sc E) (hpc : sc.pc = .loop) (inp : Input) :
    PassInv T L₀ S c B (Scan.walk T inp.canIWrite s sc).1 (Scan.walk T inp.canIWrite s sc).2
      (E ++ Scan.found T inp s sc) := by
  by_cases h0 : sc.firstVisited = some sc.sharedCacheMap ∨ sc.sharedCacheMap = ccLazyWriterCursor
  · -- the walk ends
    rw [Scan.walk_end h0, show Scan.found T inp s sc = [] by simp [Scan.found, h0], List.append_nil]
    exact hi.keep rfl rfl (by simp) (fun _ h => absurd h (by simp [Scan.InWalk]))
  have hfv : (Scan.walk T inp.canIWrite s sc).2.firstVisited =
      some (sc.firstVisited.getD sc.sharedCacheMap) := by
    rw [Scan.walk_firstVisited, if_neg h0]
  have hcount := Scan.walk_passCount (T := T) inp.canIWrite s sc S
  refine ⟨fun h => absurd h (Scan.walk_ne_top _), fun h => by simp [hfv] at h, fun h => ?_⟩
  rw [hfv] at h
  cases hf : sc.firstVisited with
  | none =>
    -- the first iteration, at the cursor's successor, which is `S`
    obtain ⟨rfl, hc, hw⟩ := hi.fresh hf
    obtain ⟨-, hS, hp⟩ := hw (.inl hpc)
    obtain rfl : sc.sharedCacheMap = S := by simpa [hf] using h
    refine ⟨hS.symm, fun e he heS => ?_⟩
    rw [hcount, if_pos ⟨rfl, h0⟩]
    unfold Scan.found at he
    split_ifs at he with hok
    · obtain rfl : e = _ := List.mem_singleton.1 (by simpa using he)
      obtain ⟨hfl, hdp, -⟩ := eligible_flags (T := T) sc.pagesToWrite inp.canIWrite (s.maps sc.sharedCacheMap)
      refine ⟨rfl, fun hd hwt hB => ?_⟩
      rw [eligible_passCount hok.2.2 (hdp ▸ hd) (hfl ▸ hwt) (fun h0 => hB (by rw [← hp, h0]; rfl)), hc]
    · simp at he
  | some X =>
    -- a later iteration, at a stream other than `FirstVisited`
    obtain rfl : S = X := by simpa [hf] using h.symm
    obtain ⟨hS, hE⟩ := hi.first hf
    have hne : S ≠ sc.sharedCacheMap := fun e => h0 (.inl (hf.trans (congrArg some e)))
    refine ⟨hS, fun e he heS => ?_⟩
    rw [hcount, if_neg (fun h => hne h.1)]
    rcases List.mem_append.1 he with he | he
    · exact hE e he heS
    · exact absurd (heS.symm.trans (Scan.found_current he).1) hne

/-- Past its walk a scan never enters it again. -/
lemma scanStep_not_inWalk {inp : Input} (h : scanStep T inp s sc = some (s₁, sc₁)) (htop : sc.pc ≠ .top)
    (hw : ¬sc.InWalk) : ¬sc₁.InWalk := by
  rcases scanStep_cases h with ⟨hpc, -⟩ | ⟨hpc, -⟩ | ⟨hpc, -⟩ | ⟨e, hpc, -⟩ | ⟨hpc, -⟩ | ⟨hpc, h⟩ | ⟨-, h⟩
  · exact absurd hpc htop
  · exact absurd (.inl hpc) hw
  · exact absurd (.inr (.inl hpc)) hw
  · exact absurd (.inr (.inr (.inr ⟨e, hpc⟩))) hw
  · exact absurd (.inr (.inr (.inl hpc))) hw
  all_goals rw [show sc₁ = _ from congrArg Prod.snd h]
  · unfold Scan.drain; split <;> simp [Scan.InWalk, hpc]
  · simp [Scan.poke, Scan.InWalk]

/-- Every step of a scan keeps `PassInv`, with what it finds eligible added. -/
lemma PassInv.step {inp : Input} (hi : PassInv T L₀ S c B s sc E)
    (hB : sc.pc = .top → (pagesToWrite s.totalDirtyPages s.pagesWrittenLastTime s.dirtyPagesLastScan
      T.dirtyPageTarget).toNat = B)
    (h : scanStep T inp s sc = some (s₁, sc₁)) :
    PassInv T L₀ S c B s₁ sc₁ (E ++ Scan.found T inp s sc) := by
  by_cases htop : sc.pc = .top
  · have h1 : scanStep T inp s sc = if s.masterLock then none else some (Scan.start T s sc) := by
      simp [scanStep, htop]
    rw [h1] at h
    split_ifs at h
    obtain ⟨rfl, rfl⟩ := Prod.mk.inj (Option.some.inj h).symm
    rw [Scan.found_of_ne_loop (by simp [htop]), List.append_nil]
    exact hi.start htop (hB htop)
  by_cases hl : sc.pc = .loop
  · have h1 : scanStep T inp s sc = some (Scan.walk T inp.canIWrite s sc) := by simp [scanStep, hl]
    obtain ⟨rfl, rfl⟩ := Prod.mk.inj (Option.some.inj (h.symm.trans h1))
    exact hi.walk hl inp
  rw [Scan.found_of_ne_loop hl, List.append_nil]
  exact hi.keep (scanStep_firstVisited h hl htop) (scanStep_passCount h hl S) (scanStep_pc_ne_top h)
    fun h0 hw => absurd hw (scanStep_not_inWalk h htop fun hw' => hl ((hi.fresh h0).2.2 hw').1)

end Steps

/-- Along a `PassRun` from a state where `PassInv` holds, it keeps holding. -/
lemma PassRun.passInv {T : Tunables} {A : Input → Prop} {L₀ : Links} {S : Nat} {c : ULONG} {B : Nat}
    {s s' : State} {sc sc' : Scan} {E E₀ : List (Nat × SharedCacheMap)} (h : PassRun T A S s sc s' sc' E)
    (hi : PassInv T L₀ S c B s sc E₀)
    (hB : sc.pc = .top → (pagesToWrite s.totalDirtyPages s.pagesWrittenLastTime s.dirtyPagesLastScan
      T.dirtyPageTarget).toNat = B) :
    PassInv T L₀ S c B s' sc' (E₀ ++ E) := by
  induction h generalizing E₀ with
  | refl => rw [List.append_nil]; exact hi
  | cons inp _ h1 _ ih =>
    rw [← List.append_assoc]
    exact ih (hi.step hB h1) (fun h => absurd h (scanStep_pc_ne_top h1))
  | other htop _ hc _ ih => exact ih (hi.keep rfl hc htop (fun _ _ => rfl)) (absurd · htop)

/-- A scan that has `S` as its `FirstVisited` started with `S` just after the cursor, and left the
pass count of `S` as its one test of `S` left it: one more than before the scan if that test
reached the increment. -/
lemma PassRun.firstVisited_eq {T : Tunables} {A : Input → Prop} {S : Nat} {s s' : State} {sc' : Scan}
    {E : List (Nat × SharedCacheMap)} (hrun : PassRun T A S s Scan.init s' sc' E)
    (hfv : sc'.firstVisited = some S) :
    s.links.flink ccLazyWriterCursor = S ∧ ∀ e ∈ E, e.1 = S →
      (s'.maps S).lazyWritePassCount = e.2.lazyWritePassCount ∧
      (e.2.dirtyPages ≠ 0 → e.2.flags.waitingForTeardown = false →
        (pagesToWrite s.totalDirtyPages s.pagesWrittenLastTime s.dirtyPagesLastScan
          T.dirtyPageTarget).toNat ≠ 0 →
        e.2.lazyWritePassCount = (s.maps S).lazyWritePassCount + 1) := by
  have hi := hrun.passInv (PassInv.init T S _ s) (fun _ => rfl)
  rw [List.nil_append] at hi
  exact hi.first hfv

/-- A scan started on `s` that ran to its end, having found `E` eligible, is hot for `S` when its
budget (lines 197-214) is not zero, `S` is its `FirstVisited`, and `S`, tested while not waiting
for teardown, meets the remaining budget. -/
def HotScan (T : Tunables) (S : Nat) (s : State) (sc' : Scan) (E : List (Nat × SharedCacheMap)) : Prop :=
  (pagesToWrite s.totalDirtyPages s.pagesWrittenLastTime s.dirtyPagesLastScan
      T.dirtyPageTarget).toNat ≠ 0 ∧ sc'.firstVisited = some S ∧
    ∃ k, ∃ hk : k < E.length, BudgetMet (pagesToWrite s.totalDirtyPages s.pagesWrittenLastTime
      s.dirtyPagesLastScan T.dirtyPageTarget).toNat (amounts T E) k ∧
      E[k].1 = S ∧ E[k].2.flags.waitingForTeardown = false

/-- `n` scans one after another from `s`, each a `PassRun` from its first line to its end that is
hot for `S`; between two of them anything may change but the dirty list and the pass count of
`S`. -/
inductive HotScans (T : Tunables) (A : Input → Prop) (S : Nat) : Nat → State → Prop
  | nil (s : State) : HotScans T A S 0 s
  | cons {n : Nat} {s s' s₁ : State} {sc' : Scan} {E : List (Nat × SharedCacheMap)} :
      PassRun T A S s Scan.init s' sc' E → sc'.pc = .done → HotScan T S s sc' E →
      s₁.links = s'.links → (s₁.maps S).lazyWritePassCount = (s'.maps S).lazyWritePassCount →
      HotScans T A S n s₁ → HotScans T A S (n + 1) s

/-- An amount that meets a nonzero budget is not zero. -/
lemma BudgetMet.getElem_pos {B : Nat} {a : List Nat} {k : Nat} (h : BudgetMet B a k) (hB : B ≠ 0)
    (hk : k < a.length) : a[k] ≠ 0 := by
  have hsum := List.sum_take_succ a k hk
  have hlt : (a.take k).sum < B := by
    cases k with
    | zero => simp; omega
    | succ k => exact h.2 k (Nat.lt_succ_self k)
  have := h.1
  simp only [List.get_eq_getElem] at hsum
  omega

/-- A stream with no dirty pages is given nothing to write. -/
lemma writeAmount_eq_zero {T : Tunables} {m : SharedCacheMap} (h : m.dirtyPages = 0) :
    writeAmount T m = 0 := by
  unfold writeAmount; split_ifs <;> simp [h]

/-- The pass count a scan leaves, mod 16, is one more than it found. -/
lemma passCount_succ_mod (c : ULONG) : (c + 1).toNat % 16 = (c.toNat + 1) % 16 := by
  have h1 : (1 : ULONG).toNat = 1 := rfl
  rw [BitVec.toNat_add, h1]
  omega

/-- In a ring of distinct nodes with a third node, no two nodes are each other's successor. -/
lemma Links.Ring.not_two_cycle {L : Links} {l : List Nat} {a b x : Nat} (hr : L.Ring l) (hd : l.Nodup)
    (ha : a ∈ l) (hx : x ∈ l) (hxa : x ≠ a) (hxb : x ≠ b) (hab : L.flink a = b)
    (hba : L.flink b = a) : False := by
  obtain ⟨t, ht⟩ := exists_isRotated_cons ha
  have hr' := hr.isRotated ht
  have hd' := ht.nodup_iff.1 hd
  have hx' : x ∈ t := by simpa [hxa] using ht.mem_iff.1 hx
  rcases t with _ | ⟨b', _ | ⟨y, t'⟩⟩
  · simp at hx'
  · obtain rfl : b' = b := hr'.flink_head.symm.trans hab
    simp_all
  · obtain rfl : b' = b := hr'.flink_head.symm.trans hab
    obtain rfl : y = a := hr'.rotate_one.flink_head.symm.trans hba
    simp at hd'

/-- A hot scan whose allocations all succeed, on a well-formed dirty list: `S` was just after the
cursor and is a node of the ring other than the cursor, its pass count went up by one, the list is
still a ring of the same nodes, and if the count reached a multiple of 16 the cursor ends just
behind `S` (lines 285-290 and 352-357). -/
lemma HotScan.push {T : Tunables} {S : Nat} {s s' : State} {sc' : Scan} {E : List (Nat × SharedCacheMap)}
    {l : List Nat} (hr : s.links.Ring l) (hd : l.Nodup) (hc : ccLazyWriterCursor ∈ l)
    (hrun : PassRun T (fun inp => inp.allocOk = true) S s Scan.init s' sc' E) (hdone : sc'.pc = .done)
    (hot : HotScan T S s sc' E) :
    s.links.flink ccLazyWriterCursor = S ∧ S ∈ l ∧ S ≠ ccLazyWriterCursor ∧
      (s'.maps S).lazyWritePassCount = (s.maps S).lazyWritePassCount + 1 ∧
      (∃ l', s'.links.Ring l' ∧ l'.Nodup ∧ ∀ x, x ∈ l' ↔ x ∈ l) ∧
      (((s.maps S).lazyWritePassCount + 1).toNat % 16 = 0 →
        s'.links.flink S = ccLazyWriterCursor) := by
  obtain ⟨hB, hfv, k, hk, hmet, hkS, hwt⟩ := hot
  have hb := hrun.budgetRun fun _ h => h
  obtain ⟨-, hsp, hm⟩ := hb.resumeInv_init hr hd hc
  obtain ⟨hflink, hE⟩ := hrun.firstVisited_eq hfv
  have hmem := List.getElem_mem hk
  -- the amount of `S` meets a nonzero budget, so `S` had dirty pages
  have hdirty : E[k].2.dirtyPages ≠ 0 := fun h0 =>
    hmet.getElem_pos hB (by simpa using hk) (by simp [amounts, writeAmount_eq_zero h0])
  obtain ⟨hcount, hinc⟩ := hE _ hmem hkS
  have hc1 := hinc hdirty hwt hB
  obtain ⟨hSl, hSc⟩ := hkS ▸ hm _ hmem
  refine ⟨hflink, hSl, hSc, hcount.trans hc1, ?_, fun h16 => ?_⟩
  · obtain ⟨l', h1, h2, h3, -⟩ := ring_of_splice hr hd hc (hsp.links.imp And.left And.right)
    exact ⟨l', h1, h2, h3⟩
  · have hL := hb.landing hr hd hc hdone hk hmet
    rw [if_pos (by simp only [resumesBehind, hfv, hkS, hc1, h16]; simp)] at hL
    rw [hL, hkS]
    simp [Links.insertHeadList]

/-- Lines 245-256, 271-299 and 352-357 over scans one after another whose allocations all succeed,
on a well-formed dirty list with a node other than the cursor and `S`: of `n` scans in a row that
are hot for `S`, with the pass count of `S` at `c` before the first, `n + c mod 16 ≤ 16`. So there
are at most 16 of them: the scan at which the count reaches a multiple of 16 leaves the cursor just
behind `S`, and the next scan does not start at `S`. -/
theorem hot_stream_pushed_within_sixteen_scans {T : Tunables} {S n : Nat} {s : State} {l : List Nat}
    (hr : s.links.Ring l) (hd : l.Nodup) (hc : ccLazyWriterCursor ∈ l)
    (hx : ∃ x ∈ l, x ≠ ccLazyWriterCursor ∧ x ≠ S) (h : HotScans T (fun inp => inp.allocOk = true) S n s) :
    n + (s.maps S).lazyWritePassCount.toNat % 16 ≤ 16 := by
  induction h generalizing l with
  | nil => omega
  | @cons n s s' s₁ sc' E hrun hdone hot hL hcnt htail ih =>
    obtain ⟨-, -, -, hinc, ⟨l', hr', hd', hmem⟩, hpush⟩ := hot.push hr hd hc hrun hdone
    have hr₁ : s₁.links.Ring l' := hL ▸ hr'
    obtain ⟨x, hxl, hxc, hxS⟩ := hx
    have hx₁ := (hmem x).2 hxl
    have ih' := ih hr₁ hd' ((hmem _).2 hc) ⟨x, hx₁, hxc, hxS⟩
    rw [hcnt, hinc, passCount_succ_mod] at ih'
    by_cases h16 : ((s.maps S).lazyWritePassCount + 1).toNat % 16 = 0
    · -- the cursor ends just behind `S`, so the next scan does not start at `S`
      cases htail with
      | nil => rw [passCount_succ_mod] at h16; omega
      | cons hrun₂ _ hot₂ _ _ _ =>
        exact (hr₁.not_two_cycle hd' ((hmem _).2 hc) hx₁ hxc hxS
          (hrun₂.firstVisited_eq hot₂.2.1).1 (by rw [hL]; exact hpush h16)).elim
    · rw [passCount_succ_mod] at h16
      omega

/-- One dirty stream, `2`, just after the cursor, whose `LazyWritePassCount` is 14. -/
def hotStream : State :=
  { State.init 1 with
    links := (State.init 1).links.insertTailList ccDirtySharedCacheMapList 2
    maps := Function.update (State.init 1).maps 2 ⟨⟨false, false, false, false, false⟩, 100, 0, 1, 4096, 14⟩
    totalDirtyPages := 100 }

/-- The first scan on `hotStream`, run alone to its end. -/
def hotFirst : State :=
  (runScan ⟨1000, false, 16⟩ ⟨true, true, ⟨true, false, false⟩⟩ 12 hotStream Scan.init).1

/-- After the first scan a worker has written stream 2 behind, which clears `WRITE_QUEUED`, and 100 of
its pages are dirty again. -/
def hotRedirtied : State :=
  { hotFirst with
    maps := Function.update hotFirst.maps 2
      { hotFirst.maps 2 with flags := ⟨false, false, false, false, false⟩, dirtyPages := 100 } }

/-- Two hot scans in a row on `hotStream`: the first takes the pass count of stream 2 to 15 and puts
the cursor back just before it, the second takes it to 16. The bound is reached. -/
theorem hot_stream_pushed_after_two_scans :
    HotScans ⟨1000, false, 16⟩ (fun inp => inp.allocOk = true) 2 2 hotStream ∧
      (hotStream.maps 2).lazyWritePassCount.toNat % 16 = 14 ∧
      2 + (hotStream.maps 2).lazyWritePassCount.toNat % 16 ≤ 16 := by
  have h2 : HotScans ⟨1000, false, 16⟩ (fun inp => inp.allocOk = true) 2 1 hotRedirtied :=
    .cons (PassRun.of_runScan _ (A := fun inp => inp.allocOk = true) ⟨true, true, ⟨true, false, false⟩⟩ rfl 2 12
      hotRedirtied Scan.init)
      (by decide) ⟨by decide, by decide, 0, by decide, by decide, by decide, by decide⟩ rfl rfl (.nil _)
  have h : HotScans ⟨1000, false, 16⟩ (fun inp => inp.allocOk = true) 2 2 hotStream :=
    .cons (PassRun.of_runScan _ (A := fun inp => inp.allocOk = true) ⟨true, true, ⟨true, false, false⟩⟩ rfl 2 12
      hotStream Scan.init) (by decide)
      ⟨by decide, by decide, 0, by decide, by decide, by decide, by decide⟩
      (show hotRedirtied.links = hotFirst.links from rfl)
      (show (hotRedirtied.maps 2).lazyWritePassCount = (hotFirst.maps 2).lazyWritePassCount from rfl) h2
  exact ⟨h, by decide, hot_stream_pushed_within_sixteen_scans (l := [2, 0, 1]) (by decide) (by decide)
    (by decide) ⟨0, by decide⟩ h⟩

section Failing

variable {T : Tunables} {s s₁ : State} {sc sc₁ : Scan} {inp : Input}

/-- A run of a scan alone with one more step of fuel takes the step the program counter names. -/
lemma runScan_succ {n : Nat} (h : scanStep T inp s sc = some (s₁, sc₁)) :
    runScan T inp (n + 1) s sc = ((runScan T inp n s₁ sc₁).1, (runScan T inp n s₁ sc₁).2.1,
      Scan.found T inp s sc ++ (runScan T inp n s₁ sc₁).2.2) := by
  rw [runScan, h]

/-- A scan whose `CcAllocateWorkQueueEntry` fails with nothing on its local post-tick queue takes
the lock back, unpins the stream and leaves the walk (lines 313-318), releases the lock with nothing
to drain and schedules the next scan (lines 365-380): three steps, and it is over. -/
lemma runScan_allocFail {ci : Bool} {io : IoStatus} (hpc : sc.pc = .alloc) (hl : s.masterLock = false)
    (hq : sc.postTickWorkQueue = []) :
    runScan T ⟨ci, false, io⟩ 3 s sc =
      (ccScheduleLazyWriteScan false { s.updateMap sc.sharedCacheMap SharedCacheMap.unpin with masterLock := false },
        { sc with pc := .done }, []) := by
  obtain ⟨pc, _, _, _, _, _, _, ptw, _, _, _⟩ := sc
  subst hpc hq
  simp [runScan, scanStep, hl, Scan.allocate, Scan.drain, Scan.poke, Scan.found]

end Failing

/-- The states from which a scan whose allocation fails is hot for stream 2, with the tunables
`⟨1000, false, 16⟩`: the master lock is free, no post-tick work is queued, 100 pages are dirty and
the budget is 12, the dirty list is the ring `2, H, C`, and stream 2 has 100 dirty pages, no flag set
and the pass count `c`. -/
def HotAt (c : ULONG) (s : State) : Prop :=
  s.masterLock = false ∧ s.postTick = [] ∧ s.totalDirtyPages = 100 ∧
    pagesToWrite s.totalDirtyPages s.pagesWrittenLastTime s.dirtyPagesLastScan 1000 = 12 ∧
    s.links.Ring [2, ccDirtySharedCacheMapList, ccLazyWriterCursor] ∧
    (s.maps 2).flags = ⟨false, false, false, false, false⟩ ∧ (s.maps 2).dirtyPages = 100 ∧
    (s.maps 2).lazyWritePassCount = c

instance (c : ULONG) (s : State) : Decidable (HotAt c s) :=
  inferInstanceAs (Decidable (_ ∧ _))

section Hot

variable {c : ULONG} {s : State}

/-- The test of lines 245-256 accepts a stream with 100 dirty pages and no flag set while budget is
left, and counts the pass. -/
lemma eligible_hot {m : SharedCacheMap} (hf : m.flags = ⟨false, false, false, false, false⟩)
    (hd : m.dirtyPages = 100) :
    eligible ⟨1000, false, 16⟩ 12 true m = (true, { m with lazyWritePassCount := m.lazyWritePassCount + 1 }) := by
  simp [eligible, hf, hd]

/-- Lines 140-231 from a `HotAt` state: a budget of 12, and the walk starts at stream 2. -/
lemma HotAt.scanStep_start {inp : Input} (h : HotAt c s) :
    scanStep ⟨1000, false, 16⟩ inp s Scan.init =
      some ({ s with
                masterLock := true, postTick := [], otherWork := false,
                dirtyPagesLastScan := s.totalDirtyPages, pagesYetToWrite := 12, pagesWrittenLastTime := 12 },
       { Scan.init with pc := .loop, drained := some [], pagesToWrite := 12, sharedCacheMap := 2 }) := by
  obtain ⟨hl, hp, ht, hb, hr, -⟩ := h
  have h2 : s.links.flink ccLazyWriterCursor = 2 := hr.2.2.2.2.1
  have htz : ¬(s.totalDirtyPages = 0 ∧ s.otherWork = false) := fun h0 => absurd (ht ▸ h0.1) (by decide)
  simp only [scanStep, Scan.init, hl, Bool.false_eq_true, if_false, Scan.start, if_neg htz, hb, h2, hp]

/-- The first iteration of the walk from a `HotAt` state: stream 2 is `FirstVisited`, its pass
count goes to `c + 1`, its 100 pages meet the budget of 12, and the cursor is spliced in just
before it (line 291) unless `c + 1` is a multiple of 16, when the splice behind it is only decided
(line 286). The stream is pinned and the lock released for the allocation. -/
lemma HotAt.scanStep_walk {io : IoStatus} (h : HotAt c s) :
    scanStep ⟨1000, false, 16⟩ ⟨true, false, io⟩
      { s with
          masterLock := true, postTick := [], otherWork := false,
          dirtyPagesLastScan := s.totalDirtyPages, pagesYetToWrite := 12, pagesWrittenLastTime := 12 }
      { Scan.init with pc := .loop, drained := some [], pagesToWrite := 12, sharedCacheMap := 2 } =
      some ({ s with
                masterLock := false, postTick := [], otherWork := false,
                dirtyPagesLastScan := s.totalDirtyPages, pagesYetToWrite := 12, pagesWrittenLastTime := 12,
                links := if (c + 1) &&& 0xF = 0 then s.links
                  else (s.links.removeEntryList ccLazyWriterCursor).insertTailList 2 ccLazyWriterCursor,
                maps := Function.update s.maps 2
                  { s.maps 2 with lazyWritePassCount := c + 1, pagesToWrite := 100 }.pin },
       { Scan.init with
           pc := .alloc, drained := some [], pagesToWrite := 0, sharedCacheMap := 2,
           firstVisited := some 2, visited := [2], alreadyMoved := true,
           moveBehindCursor := decide ((c + 1) &&& 0xF = 0) }) := by
  obtain ⟨-, -, -, -, -, hf, hd, rfl⟩ := h
  have h2C : (2 : Nat) ≠ ccLazyWriterCursor := by decide
  by_cases hq : (s.maps 2).lazyWritePassCount + 1 &&& 0xF = 0
  · simp only [scanStep, Scan.walk, Scan.init, h2C, eligible_hot hf hd, Scan.moveCursor, writeAmount, hf, hd, hq]
    simp
  · have hq' : ((s.maps 2).lazyWritePassCount + 1 &&& 0xF == 0) = false := by simpa using hq
    simp only [scanStep, Scan.walk, Scan.init, h2C, eligible_hot hf hd, Scan.moveCursor, writeAmount, hf, hd, hq,
      hq']
    simp

/-- The cursor spliced back in just before stream 2 of the ring `2, H, C` leaves the same ring. -/
lemma Links.Ring.hot_splice {L : Links} (hr : L.Ring [2, ccDirtySharedCacheMapList, ccLazyWriterCursor]) :
    ((L.removeEntryList ccLazyWriterCursor).insertTailList 2 ccLazyWriterCursor).Ring
      [2, ccDirtySharedCacheMapList, ccLazyWriterCursor] := by
  have h1 : (L.removeEntryList ccLazyWriterCursor).Ring [2, ccDirtySharedCacheMapList] :=
    hr.removeEntryList (by decide) (by decide) (by decide)
  exact (Ring.insertTailList (a := []) h1 (by decide) (by decide)).isRotated ⟨1, rfl⟩

/-- `CcScheduleLazyWriteScan` touches only the timer and `ScanActive`, which `HotAt` does not read. -/
lemma hotAt_schedule (f : Bool) : HotAt c (ccScheduleLazyWriteScan f s) ↔ HotAt c s := by
  unfold ccScheduleLazyWriteScan; split_ifs <;> rfl

/-- A scan from a `HotAt` state whose `CcAllocateWorkQueueEntry` fails runs to its end in five steps,
is hot for stream 2, and ends in a `HotAt` state with the pass count one higher. The splice decided
at the multiple of 16 is lost with the break of line 317, and the other splices put the cursor back
just before stream 2, where it was. -/
lemma HotAt.failing_scan {io : IoStatus} (h : HotAt c s) :
    (runScan ⟨1000, false, 16⟩ ⟨true, false, io⟩ 5 s Scan.init).2.1.pc = .done ∧
      HotScan ⟨1000, false, 16⟩ 2 s (runScan ⟨1000, false, 16⟩ ⟨true, false, io⟩ 5 s Scan.init).2.1
        (runScan ⟨1000, false, 16⟩ ⟨true, false, io⟩ 5 s Scan.init).2.2 ∧
      HotAt (c + 1) (runScan ⟨1000, false, 16⟩ ⟨true, false, io⟩ 5 s Scan.init).1 := by
  rw [runScan_succ h.scanStep_start, runScan_succ h.scanStep_walk, runScan_allocFail rfl rfl rfl]
  dsimp only
  rw [hotAt_schedule]
  obtain ⟨hl, hp, ht, hb, hr, hf, hd, rfl⟩ := h
  have hfound : Scan.found ⟨1000, false, 16⟩ ⟨true, false, io⟩
      { s with
          masterLock := true, postTick := [], otherWork := false,
          dirtyPagesLastScan := s.totalDirtyPages, pagesYetToWrite := 12, pagesWrittenLastTime := 12 }
      { Scan.init with pc := .loop, drained := some [], pagesToWrite := 12, sharedCacheMap := 2 } =
      [(2, { s.maps 2 with lazyWritePassCount := (s.maps 2).lazyWritePassCount + 1 })] := by
    simp only [Scan.found, eligible_hot hf hd]
    rfl
  refine ⟨rfl, ⟨by rw [hb]; decide, rfl, 0, ?_⟩, rfl, rfl, ht, ?_, ?_, ?_⟩
  · -- stream 2, the only stream found, meets the budget
    have hinit : Scan.found ⟨1000, false, 16⟩ ⟨true, false, io⟩ s Scan.init = [] := rfl
    rw [hinit, hfound, hb]
    refine ⟨by simp, ?_, rfl, by simp [hf]⟩
    simp [amounts, writeAmount, hf, hd, BudgetMet]
  · show pagesToWrite s.totalDirtyPages 12 s.totalDirtyPages 1000 = 12
    rw [ht]; simp [pagesToWrite, estimatedDirtyNextInterval, agedPages, foregroundRate, lazyWriterMaxAgeTarget]
  · show (if (s.maps 2).lazyWritePassCount + 1 &&& 0xF = 0 then s.links
      else (s.links.removeEntryList ccLazyWriterCursor).insertTailList 2 ccLazyWriterCursor).Ring _
    split_ifs
    · exact hr
    · exact hr.hot_splice
  · simp only [State.updateMap, Function.update_same, SharedCacheMap.unpin, SharedCacheMap.pin, hf, hd,
      BitVec.add_sub_cancel, and_self]

/-- Failing scans one after another, each from the state the last one left, keep a `HotAt` state. -/
lemma HotAt.iterate (h : HotAt c s) (io : IoStatus) (n : Nat) :
    ∃ c', HotAt c' ((fun s => (runScan ⟨1000, false, 16⟩ ⟨true, false, io⟩ 5 s Scan.init).1)^[n] s) := by
  induction n with
  | zero => exact ⟨c, h⟩
  | succ n ih =>
    obtain ⟨c', h'⟩ := ih
    rw [Function.iterate_succ_apply']
    exact ⟨c' + 1, h'.failing_scan.2.2⟩

end Hot

/-- Without successful allocations there is no bound. From the state where stream 2, with 100 dirty
pages, has just been inserted behind the cursor, scans run one after another, each to its end from
the state the last one left, with every `CcAllocateWorkQueueEntry` failing. Each of them has a
nonzero budget, visits stream 2 first and meets its budget there, with stream 2 not waiting for
teardown; seventeen of them in a row are the first seventeen of the sequence. -/
theorem hot_stream_kept_while_allocation_fails :
    ∃ s : State, Reachable ⟨1000, false, 16⟩ 1 s ∧
      s.links.Ring [2, ccDirtySharedCacheMapList, ccLazyWriterCursor] ∧
      ∀ n, let sₙ := (fun s => (runScan ⟨1000, false, 16⟩ ⟨true, false, ⟨true, false, false⟩⟩ 5 s Scan.init).1)^[n] s
        (runScan ⟨1000, false, 16⟩ ⟨true, false, ⟨true, false, false⟩⟩ 5 sₙ Scan.init).2.1.pc = .done ∧
        HotScan ⟨1000, false, 16⟩ 2 sₙ (runScan ⟨1000, false, 16⟩ ⟨true, false, ⟨true, false, false⟩⟩ 5 sₙ Scan.init).2.1
          (runScan ⟨1000, false, 16⟩ ⟨true, false, ⟨true, false, false⟩⟩ 5 sₙ Scan.init).2.2 := by
  obtain ⟨s, hs, h⟩ := (Reachable.init_stream ⟨1000, false, 16⟩ 1 2 (by decide)).exists_of_runAll
    [.env (.setStream 2 100 1 4096 false false false), .env (.setTotalDirtyPages 100)]
    (P := fun s => decide (HotAt 0 s)) (by decide)
  have hot := of_decide_eq_true h
  refine ⟨s, hs, hot.2.2.2.2.1, fun n => ?_⟩
  obtain ⟨c, hc⟩ := hot.iterate ⟨true, false, false⟩ n
  exact ⟨hc.failing_scan.1, hc.failing_scan.2.1⟩

end LazyWriter
