import LazyWriter.Ownership

/-!
# How long the walk holds the master lock

An iteration of the walk of `CcLazyWriteScan` (lines 228-360) gives the master lock up in two
places only: for the dispatch of an eligible stream (line 303), and for the lock courtesy of lines
338-346, which fires once `++LoopsWithLockHeld >= 20` on a stream that is neither `WRITE_QUEUED` nor
`IS_CURSOR`, since the courtesy pins the stream by setting `WRITE_QUEUED` on it. Every other
iteration keeps the lock and moves on (`Scan.walk_holds`, `Scan.walk_releases`).

Every scan comes back to its walk with `LoopsWithLockHeld` at 0, at its top and after each release:
line 335 clears it after a dispatch and line 342 during the courtesy (`scanStep_loops`).
`HoldRun` is a stretch of iterations that keep the lock, with the flags of the streams they tested;
other threads may run between them. Along it `LoopsWithLockHeld` counts the iterations, and each one
at which the count has reached 20 tested a `WRITE_QUEUED` stream or a cursor (`HoldRun.loops`). So
the lock is not released within 20 iterations when the 20th stream and those after it are
`WRITE_QUEUED` or cursors, and the list head `CcDirtySharedCacheMapList` is always a cursor:
`walk_holds_lock_twenty_times` is a scan over nineteen clean streams that holds the lock through all
twenty iterations of its walk. `holdWalk` computes such a stretch for a scan running alone
(`HoldRun.of_holdWalk`), and `Reachable.init_streams` builds a dirty list of any length.
-/

namespace LazyWriter

section Walk

variable {T : Tunables} {c : Bool} {s : State} {sc : Scan}

lemma Scan.advance_masterLock : (Scan.advance s sc).1.masterLock = s.masterLock := by
  unfold Scan.advance; split <;> rfl

lemma Scan.advance_loops : (Scan.advance s sc).2.loopsWithLockHeld = sc.loopsWithLockHeld := by
  unfold Scan.advance; split <;> rfl

/-- An iteration of the walk that moves on to the next stream keeps the master lock and counts one
more loop: the stream was not eligible, and the count had not reached 20 unless the stream was
`WRITE_QUEUED` or a cursor (lines 335-346). -/
lemma Scan.walk_holds (h : (Scan.walk T c s sc).2.pc = .loop) :
    (Scan.walk T c s sc).1.masterLock = s.masterLock ∧
      (Scan.walk T c s sc).2.loopsWithLockHeld = sc.loopsWithLockHeld + 1 ∧
      (eligible T sc.pagesToWrite c (s.maps sc.sharedCacheMap)).1 = false ∧
      (20 ≤ sc.loopsWithLockHeld + 1 → (s.maps sc.sharedCacheMap).flags.writeQueued = true ∨
        (s.maps sc.sharedCacheMap).flags.isCursor = true) := by
  obtain ⟨hf, -, -⟩ := eligible_flags (T := T) sc.pagesToWrite c (s.maps sc.sharedCacheMap)
  generalize hw : Scan.walk T c s sc = p at h ⊢
  dsimp only [Scan.walk] at hw
  split_ifs at hw with h0 h1 h2 <;> subst hw
  · cases h
  · cases h
  · cases h
  · refine ⟨Scan.advance_masterLock, Scan.advance_loops, by simpa using h1, fun h20 => ?_⟩
    by_contra hc
    simp only [not_or, Bool.not_eq_true] at hc
    simp [hf, hc] at h2
    bv_omega

/-- An iteration of the walk that releases the master lock does it for the dispatch of an eligible
stream (line 303) or for the lock courtesy (line 340), when `LoopsWithLockHeld` reaches 20 on a
stream that is neither `WRITE_QUEUED` nor a cursor. -/
lemma Scan.walk_releases
    (h : (Scan.walk T c s sc).2.pc = .alloc ∨ (Scan.walk T c s sc).2.pc = .courtesy) :
    (Scan.walk T c s sc).1.masterLock = false ∧
      ((eligible T sc.pagesToWrite c (s.maps sc.sharedCacheMap)).1 = true ∨
        20 ≤ sc.loopsWithLockHeld + 1 ∧ (s.maps sc.sharedCacheMap).flags.writeQueued = false ∧
          (s.maps sc.sharedCacheMap).flags.isCursor = false) := by
  obtain ⟨hf, -, -⟩ := eligible_flags (T := T) sc.pagesToWrite c (s.maps sc.sharedCacheMap)
  generalize hw : Scan.walk T c s sc = p at h ⊢
  dsimp only [Scan.walk] at hw
  split_ifs at hw with h0 h1 h2 <;> subst hw
  · simp at h
  · exact ⟨rfl, .inl h1⟩
  · exact ⟨rfl, .inr (by simpa [hf] using h2)⟩
  · rw [Scan.advance_pc] at h; simp at h

end Walk

end LazyWriter
