import LazyWriter.Scan

/-!
# The page budget

The `ULONG` arithmetic of lines 197-218 over a run of ticks. `budgetTick` is what one tick carries
to the next: `CcPagesWrittenLastTime` becomes the budget and `CcDirtyPagesLastScan` the tick's
`CcTotalDirtyPages`, and `Scan.start_budget` says that the top of the scan computes exactly that.
`BudgetExact` says that the four operations of a tick give their mathematical values; the
`toNat` lemmas beside each part of the budget read them under that hypothesis.

A bound on `CcTotalDirtyPages` alone does not keep the arithmetic exact. While the dirty pages stay
above `CcDirtyPageTarget`, each tick adds their excess to `CcPagesWrittenLastTime`, which the next
tick's foreground rate adds back, and the sum of line 206 wraps after a few ticks (`budget_wraps`).
The subtraction of line 211 never underflows (`agedPages_le`), and over every run whose dirty pages
stay within a bound `Bmax` with `Bmax ≤ CcDirtyPageTarget` and `2 * Bmax < 2 ^ 32`, every operation
is exact, because `CcPagesWrittenLastTime` never exceeds `CcDirtyPagesLastScan`
(`budget_exact_of_le_target`).
-/

namespace LazyWriter

/-- One tick of lines 197-218: the `CcPagesWrittenLastTime` and `CcDirtyPagesLastScan` that the
next tick sees. -/
def budgetTick (target : ULONG) (carried : ULONG × ULONG) (total : ULONG) : ULONG × ULONG :=
  (pagesToWrite total carried.1 carried.2 target, total)

/-- The top of a scan that does not go idle runs one tick of the budget. -/
lemma Scan.start_budget (T : Tunables) (s : State) (sc : Scan)
    (h : ¬(s.totalDirtyPages = 0 ∧ s.otherWork = false)) :
    ((Scan.start T s sc).1.pagesWrittenLastTime, (Scan.start T s sc).1.dirtyPagesLastScan) =
      budgetTick T.dirtyPageTarget (s.pagesWrittenLastTime, s.dirtyPagesLastScan) s.totalDirtyPages := by
  unfold Scan.start; rw [if_neg h]; rfl

/-- The four operations of lines 197-214 give their mathematical values: the sum of line 206 does
not wrap, the difference of line 211 does not underflow, adding `ForegroundRate` does not wrap, and
neither does the raise of line 213. The differences of lines 207 and 213 are guarded by their
comparisons. -/
def BudgetExact (total written lastScan target : ULONG) : Prop :=
  total.toNat + written.toNat < 2 ^ 32 ∧
  (agedPages total).toNat ≤ total.toNat ∧
  (total - agedPages total).toNat + (foregroundRate total written lastScan).toNat < 2 ^ 32 ∧
  (estimatedDirtyNextInterval total written lastScan > target →
    (agedPages total).toNat + (estimatedDirtyNextInterval total written lastScan - target).toNat <
      2 ^ 32)

instance (total written lastScan target : ULONG) :
    Decidable (BudgetExact total written lastScan target) :=
  inferInstanceAs (Decidable (_ ∧ _ ∧ _ ∧ _))

section Parts

variable {total written lastScan target : ULONG}

lemma agedPages_toNat (total : ULONG) :
    (agedPages total).toNat = if 8 < total.toNat then total.toNat / 8 else total.toNat := by
  unfold agedPages lazyWriterMaxAgeTarget
  split_ifs <;> bv_omega

/-- Line 211 never underflows. -/
lemma agedPages_le (total : ULONG) : (agedPages total).toNat ≤ total.toNat := by
  rw [agedPages_toNat]; split <;> omega

/-- Lines 205-208 are a truncated difference when the sum of line 206 does not wrap. -/
lemma foregroundRate_toNat (h : total.toNat + written.toNat < 2 ^ 32) :
    (foregroundRate total written lastScan).toNat = total.toNat + written.toNat - lastScan.toNat := by
  unfold foregroundRate
  split_ifs <;> bv_omega

lemma estimatedDirtyNextInterval_toNat
    (h : (total - agedPages total).toNat + (foregroundRate total written lastScan).toNat < 2 ^ 32) :
    (estimatedDirtyNextInterval total written lastScan).toNat =
      total.toNat - (agedPages total).toNat + (foregroundRate total written lastScan).toNat := by
  unfold estimatedDirtyNextInterval
  rw [BitVec.toNat_add_of_lt h, BitVec.toNat_sub_of_le (BitVec.le_def.2 (agedPages_le total))]

end Parts

/-- Over every run of ticks from `CcTotalDirtyPages` values within `Bmax ≤ CcDirtyPageTarget` with
`2 * Bmax < 2 ^ 32`, one tick is exact and keeps `CcPagesWrittenLastTime` within
`CcDirtyPagesLastScan`. -/
lemma budgetTick_exact {Bmax : ℕ} {target total written lastScan : ULONG} (hB : 2 * Bmax < 2 ^ 32)
    (ht : Bmax ≤ target.toNat) (hT : total.toNat ≤ Bmax) (hw : written.toNat ≤ lastScan.toNat)
    (hl : lastScan.toNat ≤ Bmax) :
    BudgetExact total written lastScan target ∧
      (budgetTick target (written, lastScan) total).1.toNat ≤ total.toNat := by
  have hp := agedPages_le total
  have hsum : total.toNat + written.toNat < 2 ^ 32 := by omega
  have hF : (foregroundRate total written lastScan).toNat = _ := foregroundRate_toNat hsum
  have hsub : (total - agedPages total).toNat = total.toNat - (agedPages total).toNat :=
    BitVec.toNat_sub_of_le (BitVec.le_def.2 hp)
  have h3 : (total - agedPages total).toNat + (foregroundRate total written lastScan).toNat <
      2 ^ 32 := by omega
  have hE := estimatedDirtyNextInterval_toNat h3
  have hraise : estimatedDirtyNextInterval total written lastScan > target →
      (estimatedDirtyNextInterval total written lastScan - target).toNat =
        (estimatedDirtyNextInterval total written lastScan).toNat - target.toNat := fun hgt =>
    BitVec.toNat_sub_of_le (BitVec.le_def.2 (Nat.le_of_lt (BitVec.lt_def.1 hgt)))
  refine ⟨⟨hsum, hp, h3, fun hgt => ?_⟩, ?_⟩
  · rw [hraise hgt]; omega
  · dsimp only [budgetTick, pagesToWrite]
    split_ifs with hgt
    · have := hraise hgt; rw [BitVec.toNat_add_of_lt (by omega)]; omega
    · exact hp

/-- A bound on `CcTotalDirtyPages` with `4 * Bmax < 2 ^ 32` does not keep the budget exact: with
`CcTotalDirtyPages` at `2 ^ 30 - 1` and `CcDirtyPageTarget` at `2 ^ 20`, the sum of line 206 wraps
at the fourth tick. -/
theorem budget_wraps :
    4 * (0x3FFFFFFF : ULONG).toNat < 2 ^ 32 ∧
    ¬ BudgetExact 0x3FFFFFFF
      ([0x3FFFFFFF, 0x3FFFFFFF, 0x3FFFFFFF].foldl (budgetTick 0x100000) (0, 0)).1
      ([0x3FFFFFFF, 0x3FFFFFFF, 0x3FFFFFFF].foldl (budgetTick 0x100000) (0, 0)).2 0x100000 := by
  decide

/-- Every tick of every run is exact when `CcTotalDirtyPages` stays within a bound `Bmax` that is at
most `CcDirtyPageTarget`, with `2 * Bmax < 2 ^ 32`, and the run starts with
`CcPagesWrittenLastTime ≤ CcDirtyPagesLastScan ≤ Bmax` (both are zero initially); at every tick,
the last included, `CcPagesWrittenLastTime` does not exceed `CcDirtyPagesLastScan`. -/
theorem budget_exact_of_le_target (target : ULONG) (Bmax : ℕ) (hB : 2 * Bmax < 2 ^ 32)
    (ht : Bmax ≤ target.toNat) (totals : List ULONG) (hT : ∀ x ∈ totals, x.toNat ≤ Bmax)
    (written lastScan : ULONG) (hw : written.toNat ≤ lastScan.toNat) (hl : lastScan.toNat ≤ Bmax) :
    (∀ k (hk : k < totals.length),
      BudgetExact totals[k] ((totals.take k).foldl (budgetTick target) (written, lastScan)).1
        ((totals.take k).foldl (budgetTick target) (written, lastScan)).2 target) ∧
    ∀ k, ((totals.take k).foldl (budgetTick target) (written, lastScan)).1.toNat ≤
      ((totals.take k).foldl (budgetTick target) (written, lastScan)).2.toNat := by
  induction totals generalizing written lastScan with
  | nil => exact ⟨fun k hk => absurd hk (Nat.not_lt_zero k), fun k => by simpa using hw⟩
  | cons x xs ih =>
    have hx := hT x (List.mem_cons_self _ _)
    obtain ⟨hex, hle⟩ := budgetTick_exact hB ht hx hw hl
    have ih' := ih (fun y hy => hT y (List.mem_cons_of_mem _ hy)) _ _ hle hx
    refine ⟨fun k hk => ?_, fun k => ?_⟩ <;> cases k
    · exact hex
    · exact ih'.1 _ (Nat.lt_of_succ_lt_succ hk)
    · exact hw
    · exact ih'.2 _

/-- Four ticks from nonzero carried values, the dirty pages rising to the target and falling back:
before the fourth tick the carried pair is `(0x10000, 0x80000)`. -/
theorem budget_exact_of_le_target_four_ticks :
    ([0xC0000, 0x100000, 0x80000, 0xF0000].take 3).foldl (budgetTick 0x100000) (0x1000, 0x2000) =
      ((0x10000 : ULONG), (0x80000 : ULONG)) ∧
    BudgetExact 0xF0000 0x10000 0x80000 0x100000 ∧ (0x10000 : ULONG).toNat ≤ (0x80000 : ULONG).toNat := by
  have h := budget_exact_of_le_target 0x100000 0x100000 (by decide) (by decide)
    [0xC0000, 0x100000, 0x80000, 0xF0000] (by simp) 0x1000 0x2000 (by simp) (by simp)
  have hc : ([0xC0000, 0x100000, 0x80000, 0xF0000].take 3).foldl (budgetTick 0x100000) (0x1000, 0x2000) =
      ((0x10000 : ULONG), (0x80000 : ULONG)) := by decide
  have h3 := h.1 3 (by decide)
  have h4 := h.2 3
  rw [hc] at h3 h4
  exact ⟨hc, h3, h4⟩

end LazyWriter
