import LazyWriter.Frame

/-!
# The cursor splices of a scan

The scan changes the dirty list only by splicing `CcLazyWriterCursor` out and back in next to its
current stream: just before it when the budget is met there (lines 285-295), or just after it, once
its successor has been fetched, when the cursor must stay behind a metadata stream (lines 352-359).
`CursorSplice` is that change. `Scan.splicesLeft` counts the splices a scan has left: one until
`AlreadyMoved` is set, and then one only while the splice behind the current stream is pending.
Every step of a scan either leaves the list alone without raising the count, or makes one
`CursorSplice` next to its current stream and spends its one splice (`scanStep_splice`); the count
starts at one, so a scan splices at most once.

On a well-formed ring, a splice next to a stream of the ring other than the cursor leaves a ring of
the same nodes, each once, in which the nodes other than the cursor keep their cyclic order
(`CursorSplice.ring`). A run of one activation alone (`ScanRun`) stays on nodes of the ring it
started from, so its one splice is of that kind (`SpliceRun`), and `scan_splices_cursor_once`
collects both levels.
-/

namespace LazyWriter

/-- `RemoveEntryList` of the cursor followed by `InsertTailList` or `InsertHeadList` on `S`: the
cursor spliced out and back in just before or just after `S`. -/
def CursorSplice (L L' : Links) (S : Nat) : Prop :=
  L' = (L.removeEntryList ccLazyWriterCursor).insertTailList S ccLazyWriterCursor ∨
  L' = (L.removeEntryList ccLazyWriterCursor).insertHeadList S ccLazyWriterCursor

/-- The cursor splices a scan has left: one until `AlreadyMoved`, then one while the splice behind
the current stream (`MoveBehindCursor`) is pending. -/
def Scan.splicesLeft (sc : Scan) : Nat :=
  if sc.alreadyMoved then (if sc.moveBehindCursor then 1 else 0) else 1

/-- `MoveBehindCursor` is only set once the place of the cursor has been decided, by a scan past
its top whose current stream is not the cursor. -/
def Scan.BehindOk (sc : Scan) : Prop :=
  sc.moveBehindCursor = true →
    sc.alreadyMoved = true ∧ sc.pc ≠ .top ∧ sc.sharedCacheMap ≠ ccLazyWriterCursor

/-- What one step of a scan at stream `S` with `n` splices left may do to the dirty list `L`,
leaving the scan at `sc'`: nothing, without gaining a splice, or one cursor splice next to `S`,
which is not the cursor, spending the one splice it had left. -/
def SpliceStep (L L' : Links) (S n : Nat) (sc' : Scan) : Prop :=
  sc'.BehindOk ∧ ((L' = L ∧ sc'.splicesLeft ≤ n) ∨
    (n = 1 ∧ sc'.splicesLeft = 0 ∧ S ≠ ccLazyWriterCursor ∧ CursorSplice L L' S))

/-- Filtering keeps a cyclic rotation. -/
lemma isRotated_filter {l l' : List Nat} (h : l.IsRotated l') (p : Nat → Bool) :
    (l.filter p).IsRotated (l'.filter p) := by
  obtain ⟨k, hk, rfl⟩ := List.isRotated_iff_mod.mp h
  rw [List.rotate_eq_drop_append_take hk, List.filter_append]
  have hsplit : l.filter p = (l.take k).filter p ++ (l.drop k).filter p := by
    rw [← List.filter_append, List.take_append_drop]
  rw [hsplit]
  exact List.isRotated_append

section Steps

variable {T : Tunables} {s : State} {sc : Scan} {L L' : Links} {S : Nat}

lemma Scan.BehindOk.of_false {sc' : Scan} (h : sc'.moveBehindCursor = false) : sc'.BehindOk :=
  fun h' => absurd (h.symm.trans h') Bool.false_ne_true

/-- A step that keeps the current stream and the two flags of the cursor, and leaves the scan
past its top, keeps `Scan.BehindOk`. -/
lemma Scan.BehindOk.keep {sc' : Scan} (hb : sc.BehindOk) (hm : sc'.alreadyMoved = sc.alreadyMoved)
    (hmb : sc'.moveBehindCursor = sc.moveBehindCursor) (hpc : sc'.pc ≠ .top)
    (hS : sc'.sharedCacheMap = sc.sharedCacheMap) : sc'.BehindOk := fun h => by
  obtain ⟨h1, -, h3⟩ := hb (hmb ▸ h)
  exact ⟨hm ▸ h1, hpc, hS ▸ h3⟩

lemma SpliceStep.congr_left {L₁ L₂ : Links} {n : Nat} {sc' : Scan} (h : L₁ = L₂)
    (hs : SpliceStep L₁ L' S n sc') : SpliceStep L₂ L' S n sc' := h ▸ hs

/-- A step that changes neither the list nor the two flags of the cursor. -/
lemma SpliceStep.same {sc' : Scan} (hb : sc'.BehindOk) (hL : L' = L)
    (hm : sc'.alreadyMoved = sc.alreadyMoved) (hmb : sc'.moveBehindCursor = sc.moveBehindCursor) :
    SpliceStep L L' S sc.splicesLeft sc' :=
  ⟨hb, .inl ⟨hL, by simp only [Scan.splicesLeft, hm, hmb, le_refl]⟩⟩

/-- `SpliceStep.same` for a step that also keeps the current stream, past the top. -/
lemma SpliceStep.keep {sc' : Scan} (hb : sc.BehindOk) (hL : L' = L)
    (hm : sc'.alreadyMoved = sc.alreadyMoved) (hmb : sc'.moveBehindCursor = sc.moveBehindCursor)
    (hpc : sc'.pc ≠ .top) (hS : sc'.sharedCacheMap = sc.sharedCacheMap) :
    SpliceStep L L' S sc.splicesLeft sc' :=
  .same (hb.keep hm hmb hpc hS) hL hm hmb

/-- Lines 352-359: the pending splice behind the current stream, if any. -/
lemma Scan.advance_splice (hb : sc.BehindOk) :
    SpliceStep s.links (Scan.advance s sc).1.links sc.sharedCacheMap sc.splicesLeft
      (Scan.advance s sc).2 := by
  unfold Scan.advance
  split
  · next hmb =>
    obtain ⟨hm, -, hS⟩ := hb hmb
    exact ⟨.of_false rfl, .inr ⟨by simp [Scan.splicesLeft, hm, hmb],
      by simp [Scan.splicesLeft, hm], hS, .inr rfl⟩⟩
  · next hmb => exact .same (.of_false (by simpa using hmb)) rfl rfl rfl

/-- Lines 271-299, leaving the scan at the dispatch: the first time the budget is met, either the
splice before the current stream or the decision to splice behind it. -/
lemma Scan.moveCursor_splice (mwd : Bool) (fv : Nat) (pass amount : ULONG) (hb : sc.BehindOk)
    (hS : sc.sharedCacheMap ≠ ccLazyWriterCursor) :
    SpliceStep s.links (Scan.moveCursor s sc mwd fv pass amount).1.links sc.sharedCacheMap
      sc.splicesLeft { (Scan.moveCursor s sc mwd fv pass amount).2 with pc := .alloc } := by
  unfold Scan.moveCursor
  split_ifs with h1 h2 h3
  · exact .keep hb rfl rfl rfl nofun rfl
  · exact ⟨fun _ => ⟨rfl, nofun, hS⟩, .inl ⟨rfl, by simp [Scan.splicesLeft, h1]⟩⟩
  · have hmb : sc.moveBehindCursor = false := by
      cases h : sc.moveBehindCursor
      · rfl
      · exact absurd (hb h).1 h1
    exact ⟨.of_false hmb, .inr ⟨by simp [Scan.splicesLeft, h1], by simp [Scan.splicesLeft, hmb], hS,
      .inl rfl⟩⟩
  · exact .keep hb rfl rfl rfl nofun rfl

lemma Scan.walk_splice (c : Bool) (hb : sc.BehindOk) (hpc : sc.pc = .loop) :
    SpliceStep s.links (Scan.walk T c s sc).1.links sc.sharedCacheMap sc.splicesLeft
      (Scan.walk T c s sc).2 := by
  dsimp only [Scan.walk]
  split_ifs with h1
  · exact .keep hb rfl rfl rfl nofun rfl
  · refine Scan.moveCursor_splice _ _ _ _ ?_ (not_or.1 h1).2
    exact hb.keep rfl rfl (by simp [hpc]) rfl
  · exact .keep hb rfl rfl rfl nofun rfl
  · exact Scan.advance_splice (hb.keep rfl rfl (by simp [hpc]) rfl)

lemma ccScheduleLazyWriteScan_links (fast : Bool) : (ccScheduleLazyWriteScan fast s).links = s.links := by
  unfold ccScheduleLazyWriteScan; split_ifs <;> rfl

/-- Every step of a scan makes at most the one cursor splice it has left, next to its current
stream, which is not the cursor. -/
lemma scanStep_splice {inp : Input} {s1 : State} {sc' : Scan} (h : scanStep T inp s sc = some (s1, sc'))
    (hb : sc.BehindOk) : SpliceStep s.links s1.links sc.sharedCacheMap sc.splicesLeft sc' := by
  rcases scanStep_cases h with ⟨hpc, -, h⟩ | ⟨hpc, h⟩ | ⟨-, -, h⟩ | ⟨e, hpc, -, h⟩ | ⟨-, -, h⟩ |
    ⟨hpc, h⟩ | ⟨-, h⟩ <;>
    rw [show s1 = _ from congrArg Prod.fst h, show sc' = _ from congrArg Prod.snd h]
  · -- at the top `MoveBehindCursor` is clear, and the walk starts at the cursor's successor
    have hmb : sc.moveBehindCursor = false := by
      cases h : sc.moveBehindCursor
      · rfl
      · exact absurd hpc (hb h).2.1
    unfold Scan.start; split_ifs <;> exact .same (.of_false hmb) rfl rfl rfl
  · exact Scan.walk_splice _ hb hpc
  · unfold Scan.allocate; split <;> exact .keep hb rfl rfl rfl nofun rfl
  · refine (Scan.advance_splice ?_).congr_left (by simp [ccPostWorkQueue, State.updateMap])
    exact hb.keep rfl rfl (by simp [hpc]) rfl
  · exact Scan.advance_splice hb
  · unfold Scan.drain
    split
    · exact .keep hb (by simp [ccPostWorkQueue]) rfl rfl (by simp [hpc]) rfl
    · exact .keep hb rfl rfl rfl nofun rfl
  · exact .keep hb (ccScheduleLazyWriteScan_links false) rfl rfl nofun rfl

lemma Reachable.behindOk {N : Nat} (h : Reachable T N s) :
    ∀ th ∈ s.threads, ∀ sc, th.scan? = some sc → sc.BehindOk :=
  h.scans (.of_false rfl) fun h hb => (scanStep_splice h hb).1

end Steps

/-- A splice next to a stream `S` of a well-formed ring, other than the cursor, leaves a ring of the
same nodes, each once, in which the nodes other than the cursor keep their cyclic order. -/
lemma CursorSplice.ring {L L' : Links} {S : Nat} {l : List Nat} (h : CursorSplice L L' S)
    (hr : L.Ring l) (hd : l.Nodup) (hS : S ∈ l) (hc : ccLazyWriterCursor ∈ l)
    (hSc : S ≠ ccLazyWriterCursor) :
    ∃ l', L'.Ring l' ∧ l'.Nodup ∧ (∀ x, x ∈ l' ↔ x ∈ l) ∧
      (l'.filter (· != ccLazyWriterCursor)).IsRotated (l.filter (· != ccLazyWriterCursor)) := by
  obtain ⟨a, b, rfl⟩ := List.append_of_mem hS
  have hrot : (a ++ S :: b).IsRotated (S :: (b ++ a)) :=
    ⟨a.length, by rw [List.rotate_append_length_eq]; simp⟩
  have hr' := hr.isRotated hrot
  have hd' := hrot.nodup_iff.1 hd
  have hc' : ccLazyWriterCursor ∈ b ++ a := by
    simpa [Ne.symm hSc, or_comm] using hc
  have herase : (b ++ a).erase ccLazyWriterCursor = (b ++ a).filter (· != ccLazyWriterCursor) :=
    (List.nodup_cons.1 hd').2.erase_eq_filter _
  have hfilt := isRotated_filter hrot.symm (· != ccLazyWriterCursor)
  have hSne : (S != ccLazyWriterCursor) = true := by simpa using hSc
  have hperm : ((b ++ a).erase ccLazyWriterCursor ++ [ccLazyWriterCursor]).Perm (b ++ a) :=
    (List.perm_append_singleton _ _).trans (List.perm_cons_erase hc').symm
  rcases h with rfl | rfl
  · have hp := hperm.cons S
    refine ⟨_, hr'.moveBefore hd' hc', hp.nodup_iff.2 hd', fun x => hp.mem_iff.trans hrot.mem_iff.symm, ?_⟩
    refine List.IsRotated.trans ?_ hfilt
    simp [List.filter_cons, hSne, herase, List.filter_filter]
    exact List.IsRotated.refl _
  · have hp := ((List.perm_cons_erase hc').symm).cons S
    refine ⟨_, hr'.moveAfter hd' hc', hp.nodup_iff.2 hd', fun x => hp.mem_iff.trans hrot.mem_iff.symm, ?_⟩
    refine List.IsRotated.trans ?_ hfilt
    simp [List.filter_cons, hSne, herase, List.filter_filter]
    exact List.IsRotated.refl _

/-- A splice of the cursor next to a stream of a well-formed ring keeps a well-formed ring of the
same nodes, each once, in the same cyclic order apart from the cursor; so does no splice at all. -/
lemma ring_of_splice {L₀ L : Links} {l₀ : List Nat} (hr : L₀.Ring l₀) (hd : l₀.Nodup)
    (hc : ccLazyWriterCursor ∈ l₀)
    (h : L = L₀ ∨ ∃ S ∈ l₀, S ≠ ccLazyWriterCursor ∧ CursorSplice L₀ L S) :
    ∃ l', L.Ring l' ∧ l'.Nodup ∧ (∀ x, x ∈ l' ↔ x ∈ l₀) ∧
      (l'.filter (· != ccLazyWriterCursor)).IsRotated (l₀.filter (· != ccLazyWriterCursor)) := by
  rcases h with rfl | ⟨S, hS, hSc, h⟩
  · exact ⟨l₀, hr, hd, fun _ => Iff.rfl, List.IsRotated.refl _⟩
  · exact h.ring hr hd hS hc hSc

/-- The runs of one activation of `CcLazyWriteScan` alone, from the scan `sc` on the state `s`:
every step is one `scanStep`, with any answers of the collaborators. -/
inductive ScanRun (T : Tunables) (s : State) (sc : Scan) : State → Scan → Prop
  | refl : ScanRun T s sc s sc
  | tail {s₁ s₂ : State} {sc₁ sc₂ : Scan} (inp : Input) : ScanRun T s sc s₁ sc₁ →
      scanStep T inp s₁ sc₁ = some (s₂, sc₂) → ScanRun T s sc s₂ sc₂

/-- The stream an iteration of the walk finds eligible (lines 245-256), with its record as the test
left it; nothing for any other step. -/
def Scan.found (T : Tunables) (inp : Input) (s : State) (sc : Scan) : List (Nat × SharedCacheMap) :=
  if sc.pc = .loop ∧ ¬(sc.firstVisited = some sc.sharedCacheMap ∨ sc.sharedCacheMap = ccLazyWriterCursor) ∧
      (eligible T sc.pagesToWrite inp.canIWrite (s.maps sc.sharedCacheMap)).1 = true
  then [(sc.sharedCacheMap, (eligible T sc.pagesToWrite inp.canIWrite (s.maps sc.sharedCacheMap)).2)]
  else []

/-- A scan run alone with the answers `inp` for at most `n` steps, with the streams its walk found
eligible. -/
def runScan (T : Tunables) (inp : Input) : Nat → State → Scan → State × Scan × List (Nat × SharedCacheMap)
  | 0, s, sc => (s, sc, [])
  | n + 1, s, sc =>
    match scanStep T inp s sc with
    | some (s₁, sc₁) =>
      let r := runScan T inp n s₁ sc₁
      (r.1, r.2.1, Scan.found T inp s sc ++ r.2.2)
    | none => (s, sc, [])

section Run

variable {T : Tunables} {s s₁ : State} {sc sc' : Scan} {inp : Input}

lemma Scan.advance_next : (Scan.advance s sc).2.sharedCacheMap = s.links.flink sc.sharedCacheMap := by
  unfold Scan.advance; split <;> rfl

lemma Scan.moveCursor_current (mwd : Bool) (fv : Nat) (pass amount : ULONG) :
    (Scan.moveCursor s sc mwd fv pass amount).2.sharedCacheMap = sc.sharedCacheMap := by
  unfold Scan.moveCursor; split_ifs <;> rfl

/-- A step of a scan stays on its stream, moves to the stream's successor, or starts the walk at
the cursor's successor. -/
lemma scanStep_next (h : scanStep T inp s sc = some (s₁, sc')) :
    sc'.sharedCacheMap = sc.sharedCacheMap ∨ sc'.sharedCacheMap = s.links.flink sc.sharedCacheMap ∨
      sc'.sharedCacheMap = s.links.flink ccLazyWriterCursor := by
  rcases scanStep_cases h with ⟨-, -, h⟩ | ⟨-, h⟩ | ⟨-, -, h⟩ | ⟨e, -, -, h⟩ | ⟨-, -, h⟩ |
    ⟨-, h⟩ | ⟨-, h⟩ <;> rw [show sc' = _ from congrArg Prod.snd h]
  · unfold Scan.start; split_ifs
    · exact .inl rfl
    · exact .inl rfl
    · exact .inr (.inr rfl)
  · dsimp only [Scan.walk]
    split_ifs
    · exact .inl rfl
    · exact .inl (Scan.moveCursor_current _ _ _ _)
    · exact .inl rfl
    · exact .inr (.inl Scan.advance_next)
  · unfold Scan.allocate; split <;> exact .inl rfl
  · exact .inr (.inl (Scan.advance_next.trans (by simp [ccPostWorkQueue, State.updateMap])))
  · exact .inr (.inl Scan.advance_next)
  · unfold Scan.drain; split <;> exact .inl rfl
  · exact .inl rfl

/-- What a run of a scan alone keeps, from the dirty list `L₀` that is the ring `l₀`: the list is
`L₀` or one cursor splice of it next to a stream of `l₀`, the splice spending the scan's one splice,
and the current stream is a node of `l₀`. -/
structure SpliceRun (L₀ : Links) (l₀ : List Nat) (s : State) (sc : Scan) : Prop where
  behind : sc.BehindOk
  links : (s.links = L₀ ∧ sc.splicesLeft ≤ 1) ∨
    (sc.splicesLeft = 0 ∧ ∃ S ∈ l₀, S ≠ ccLazyWriterCursor ∧ CursorSplice L₀ s.links S)
  current : sc.sharedCacheMap ∈ l₀

lemma SpliceRun.step {L₀ : Links} {l₀ : List Nat} (hr : L₀.Ring l₀) (hd : l₀.Nodup)
    (hc : ccLazyWriterCursor ∈ l₀) (hi : SpliceRun L₀ l₀ s sc) (h : scanStep T inp s sc = some (s₁, sc')) :
    SpliceRun L₀ l₀ s₁ sc' := by
  obtain ⟨hb, hl⟩ := scanStep_splice h hi.behind
  refine ⟨hb, ?_, ?_⟩
  · rcases hl with ⟨hL, hn⟩ | ⟨hn, h0, hS, hsp⟩ <;> rcases hi.links with ⟨h1, h2⟩ | ⟨h1, h2⟩
    · exact .inl ⟨hL.trans h1, hn.trans h2⟩
    · exact .inr ⟨by omega, hL ▸ h2⟩
    · exact .inr ⟨h0, _, hi.current, hS, h1 ▸ hsp⟩
    · omega
  · -- the successor of a node of the current ring is a node of `l₀`
    obtain ⟨l', hr', -, hm, -⟩ := ring_of_splice hr hd hc (hi.links.imp And.left And.right)
    rcases scanStep_next h with h1 | h1 | h1 <;> rw [h1]
    · exact hi.current
    · exact (hm _).1 (hr'.flink_mem ((hm _).2 hi.current))
    · exact (hm _).1 (hr'.flink_mem ((hm _).2 hc))

/-- A run of the scan extended by `runScan`. -/
lemma ScanRun.extend_runScan {s₀ : State} {sc₀ : Scan} (h : ScanRun T s₀ sc₀ s sc) (inp : Input) (n : Nat) :
    ScanRun T s₀ sc₀ (runScan T inp n s sc).1 (runScan T inp n s sc).2.1 := by
  induction n generalizing s sc with
  | zero => exact h
  | succ n ih =>
    rw [runScan]
    split
    · next s₁ sc₁ h1 => exact ih (h.tail inp h1)
    · exact h

end Run

/-- The scan changes the dirty list only by splices of `CcLazyWriterCursor` next to its current
stream, at most one per scan: in every interleaving each step of a scan makes at most the one splice
its count allows, and the count starts at one (`Scan.init`). A whole activation of
`CcLazyWriteScan` run alone from a well-formed ring therefore leaves the list as it was or spliced
once next to one of its streams, and in both cases a well-formed ring of the same nodes, each once,
in which the nodes other than the cursor keep their cyclic order. -/
theorem scan_splices_cursor_once {T : Tunables} {s s' : State} {sc' : Scan} {l : List Nat}
    (hr : s.links.Ring l) (hd : l.Nodup) (hc : ccLazyWriterCursor ∈ l)
    (hrun : ScanRun T s Scan.init s' sc') :
    (∀ N s₁, Reachable T N s₁ → ∀ th ∈ s₁.threads, ∀ sc, th.scan? = some sc →
      ∀ inp s₂ sc₂, scanStep T inp s₁ sc = some (s₂, sc₂) →
        SpliceStep s₁.links s₂.links sc.sharedCacheMap sc.splicesLeft sc₂) ∧
    Scan.init.splicesLeft = 1 ∧
    (s'.links = s.links ∨ ∃ S ∈ l, S ≠ ccLazyWriterCursor ∧ CursorSplice s.links s'.links S) ∧
    ∃ l', s'.links.Ring l' ∧ l'.Nodup ∧ (∀ x, x ∈ l' ↔ x ∈ l) ∧
      (l'.filter (· != ccLazyWriterCursor)).IsRotated (l.filter (· != ccLazyWriterCursor)) := by
  have hi : SpliceRun s.links l s' sc' := by
    induction hrun with
    | refl => exact ⟨.of_false rfl, .inl ⟨rfl, le_refl _⟩, hc⟩
    | tail _ _ h ih => exact ih.step hr hd hc h
  have hL := hi.links.imp And.left And.right
  exact ⟨fun _ _ hs th hth sc hsc _ _ _ h => scanStep_splice h (hs.behindOk th hth sc hsc), rfl, hL,
    ring_of_splice hr hd hc hL⟩

/-- Streams 2, 3 and 4 inserted at the tail of the dirty list, as the rest of the cache manager
inserts them. -/
def threeStreams : State :=
  { State.init 1 with
    links := (((State.init 1).links.insertTailList ccDirtySharedCacheMapList 2).insertTailList
      ccDirtySharedCacheMapList 3).insertTailList ccDirtySharedCacheMapList 4 }

lemma Reachable.threeStreams : Reachable ⟨1000, false, 16⟩ 1 threeStreams :=
  ((Reachable.init_stream _ 1 2 (by decide)).step
    (.insertStream 3 0 [0, 1, 2] rfl (by decide) (by decide) (by decide) (by decide) rfl)).step
    (.insertStream 4 0 [0, 1, 2, 3] rfl (by decide) (by decide) (by decide) (by decide) rfl)

/-- `threeStreams` with 100 dirty pages in stream 3: the page budget of the tick is met at stream 3,
the second stream the walk inspects. -/
def spliceStart : State :=
  { threeStreams with
    maps := Function.update threeStreams.maps 3 ⟨⟨false, false, false, false, false⟩, 100, 0, 1, 4096, 0⟩
    totalDirtyPages := 100 }

/-- The scan on `spliceStart`, run alone to its end. -/
def spliceEnd : State × Scan :=
  let r := runScan ⟨1000, false, 16⟩ ⟨true, true, ⟨true, false, false⟩⟩ 14 spliceStart Scan.init
  (r.1, r.2.1)

/-- The scan on `spliceStart` splices the cursor in front of stream 3, where it met its budget: the
list reads `H, 2, C, 3, 4` when it returns. -/
theorem scan_splices_cursor_once_streams :
    spliceEnd.2.pc = .done ∧ spliceEnd.1.links.flink 2 = ccLazyWriterCursor ∧
      spliceEnd.1.links.flink ccLazyWriterCursor = 3 ∧
      (∃ S ∈ [ccDirtySharedCacheMapList, ccLazyWriterCursor, 2, 3, 4], S ≠ ccLazyWriterCursor ∧
        CursorSplice spliceStart.links spliceEnd.1.links S) ∧
      ∃ l', spliceEnd.1.links.Ring l' ∧ l'.Nodup ∧
        (∀ x, x ∈ l' ↔ x ∈ [ccDirtySharedCacheMapList, ccLazyWriterCursor, 2, 3, 4]) ∧
        (l'.filter (· != ccLazyWriterCursor)).IsRotated
          ([ccDirtySharedCacheMapList, ccLazyWriterCursor, 2, 3, 4].filter (· != ccLazyWriterCursor)) := by
  have hrun := (@ScanRun.refl ⟨1000, false, 16⟩ spliceStart Scan.init).extend_runScan
    ⟨true, true, ⟨true, false, false⟩⟩ 14
  have h := scan_splices_cursor_once (l := [ccDirtySharedCacheMapList, ccLazyWriterCursor, 2, 3, 4]) (by decide) (by decide) (by decide) hrun
  have hne : spliceEnd.1.links ≠ spliceStart.links := fun h' => by
    have h2 := congrArg (fun L => L.flink 2) h'
    revert h2; decide
  exact ⟨by decide, by decide, by decide, h.2.2.1.resolve_left hne, h.2.2.2⟩

end LazyWriter
