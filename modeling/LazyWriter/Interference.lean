import LazyWriter.Resume
import LazyWriter.Hold

/-!
# The walk among other threads

`Walk.lean` follows a scan alone on the dirty list. Here other threads act between its steps.

`WalkRun` lets them change anything but the links and the master lock. `WalkInv` reads only those
two, so it holds along these runs as along the scan's own (`WalkRun.walkInv`).

`Interference` is what other threads do between two steps of the scan when they also change the
list, as the rest of the cache manager does under the master lock. They may remove a node other
than the cursor and the stream the scan has pinned (lines 301-346). They may also insert a node,
and the insertions are counted. The walk may then stop before it inspects a stream that stays in
the list (`walk_ends_early`), but it still ends once the insertions stop.

`Scan.Left m` says that the scan past its top has at most `m` steps left. Per node between its
current stream and the cursor it counts three steps, per node of the list while its splice is still
left three more, one per entry of its local `PostTickWorkQueue`, and the steps of the current
iteration (`Scan.rank`). Every step of the scan lowers the bound (`Scan.Left.step`). A removal does
not raise it, and an insertion raises it by at most six (`Interference.left`).

`walk_visits_each_node_once` gathers these facts. No run of the scan with finitely many
insertions is infinite. Among threads that leave the list alone, the scan can always step until
it returns, inspects a prefix of the ring in order, and has inspected all of it when its loop test
ends the walk.
-/

namespace LazyWriter

/-- The runs of a scan among other threads that neither touch the dirty list nor hold the master
lock across the scan's steps: between two steps of the scan the state may change anywhere but in
its links and the master lock. -/
inductive WalkRun (T : Tunables) (s : State) (sc : Scan) : State → Scan → Prop
  | refl : WalkRun T s sc s sc
  | scan {s₁ s₂ : State} {sc₁ sc₂ : Scan} (inp : Input) : WalkRun T s sc s₁ sc₁ →
      scanStep T inp s₁ sc₁ = some (s₂, sc₂) → WalkRun T s sc s₂ sc₂
  | other {s₁ s₂ : State} {sc₁ : Scan} : WalkRun T s sc s₁ sc₁ → s₂.links = s₁.links →
      s₂.masterLock = s₁.masterLock → WalkRun T s sc s₂ sc₁

/-- Whether the scan has released the master lock with its current stream pinned (lines 301-346). -/
def Scan.pinning (sc : Scan) : Bool :=
  match sc.pc with
  | .alloc | .posting _ | .courtesy => true
  | _ => false

/-- What other threads do while the scan is at `sc`, with `k` insertions. They may act without
touching the dirty list or the master lock. Under the master lock they may also remove a node of
the list other than the cursor and the stream the scan has pinned (`RemoveEntryList`), or insert a
new node before a node of the list (`InsertTailList`). -/
inductive Interference (sc : Scan) (s : State) : State → Nat → Prop
  | refl : Interference sc s s 0
  | other {s₁ s₂ : State} {k : Nat} : Interference sc s s₁ k → s₂.links = s₁.links →
      s₂.masterLock = s₁.masterLock → Interference sc s s₂ k
  | remove {s₁ : State} {k : Nat} (x : Nat) (l : List Nat) : Interference sc s s₁ k →
      s₁.masterLock = false → s₁.links.Ring l → l.Nodup → ccLazyWriterCursor ∈ l → x ∈ l →
      x ≠ ccLazyWriterCursor → (sc.pinning = true → x ≠ sc.sharedCacheMap) →
      Interference sc s { s₁ with links := s₁.links.removeEntryList x } k
  | insert {s₁ : State} {k : Nat} (x n : Nat) (l : List Nat) : Interference sc s s₁ k →
      s₁.masterLock = false → s₁.links.Ring l → l.Nodup → ccLazyWriterCursor ∈ l → n ∈ l → x ∉ l →
      Interference sc s { s₁ with links := s₁.links.insertTailList n x } (k + 1)

/-- The scan stands on a node of the dirty list: the links are the ring `sc.sharedCacheMap :: t` of
distinct nodes, the cursor among them. -/
def Scan.OnRing (L : Links) (sc : Scan) (t : List Nat) : Prop :=
  L.Ring (sc.sharedCacheMap :: t) ∧ (sc.sharedCacheMap :: t).Nodup ∧
    ccLazyWriterCursor ∈ sc.sharedCacheMap :: t

/-- What the walk has left on the ring `sc.sharedCacheMap :: t`: three steps per node before the
cursor, three per node of the ring while the scan's splice is left, and one per post-tick entry. -/
def Scan.rank (sc : Scan) (t : List Nat) : Nat :=
  3 * (sc.sharedCacheMap :: t).indexOf ccLazyWriterCursor + 3 * (t.length + 1) * sc.splicesLeft +
    sc.postTickWorkQueue.length

/-- The scan is pinning its current stream, which is not the cursor, on a ring of rank at most
`m - k`. -/
def Scan.Pinned (k m : Nat) (L : Links) (sc : Scan) : Prop :=
  sc.sharedCacheMap ≠ ccLazyWriterCursor ∧ ∃ t, sc.OnRing L t ∧ sc.rank t + k ≤ m

/-- The scan, past its top, has at most `m` steps left, whatever other threads do to the rest of
the state. In the walk it holds the master lock at the top of an iteration and pins its current
stream while the lock is released. -/
def Scan.Left (m : Nat) (s : State) (sc : Scan) : Prop :=
  match sc.pc with
  | .top => False
  | .loop => s.masterLock = true ∧ ∃ t, sc.OnRing s.links t ∧ sc.rank t + 3 ≤ m
  | .alloc => sc.Pinned 2 m s.links
  | .posting _ | .courtesy => sc.Pinned 1 m s.links
  | .drain => sc.postTickWorkQueue.length + 2 ≤ m
  | .poke => 1 ≤ m
  | .done => True

section Lists

variable {C x : Nat}

/-- Erasing a node other than `C` does not move `C` later. -/
lemma indexOf_erase_le (hx : x ≠ C) (l : List Nat) : (l.erase x).indexOf C ≤ l.indexOf C := by
  induction l with
  | nil => simp
  | cons y l ih =>
    by_cases hy : y = x
    · subst hy
      rw [List.erase_cons_head, List.indexOf_cons_ne _ hx]
      exact Nat.le_succ _
    · rw [List.erase_cons_tail (by simpa using hy)]
      by_cases hyC : y = C
      · simp [List.indexOf_cons_eq _ hyC]
      · rw [List.indexOf_cons_ne _ hyC, List.indexOf_cons_ne _ hyC]
        exact Nat.succ_le_succ ih

/-- Inserting a node other than `C` moves `C` at most one place later. -/
lemma indexOf_insert_le (hx : x ≠ C) (l₁ l₂ : List Nat) :
    (l₁ ++ x :: l₂).indexOf C ≤ (l₁ ++ l₂).indexOf C + 1 := by
  induction l₁ with
  | nil => simp [List.indexOf_cons_ne _ hx]
  | cons y l₁ ih =>
    by_cases hyC : y = C
    · simp [List.indexOf_cons_eq _ hyC]
    · simp only [List.cons_append, List.indexOf_cons_ne _ hyC]
      omega

/-- A ring of distinct nodes can be read from any of its nodes. -/
lemma Links.Ring.from {L : Links} {l : List Nat} {y : Nat} (h : L.Ring l) (hd : l.Nodup) (hy : y ∈ l) :
    ∃ t, L.Ring (y :: t) ∧ (y :: t).Nodup ∧ t.length + 1 = l.length ∧ ∀ z, z ∈ y :: t ↔ z ∈ l := by
  obtain ⟨t, hrot⟩ := exists_isRotated_cons hy
  exact ⟨t, h.isRotated hrot, hrot.nodup_iff.1 hd, hrot.perm.length_eq.symm, fun _ => hrot.mem_iff.symm⟩

end Lists

section Rank

variable {L : Links} {s : State} {sc : Scan} {t : List Nat} {m : Nat}

lemma Scan.splicesLeft_cases (sc : Scan) : sc.splicesLeft = 0 ∨ sc.splicesLeft = 1 := by
  unfold Scan.splicesLeft; split_ifs <;> simp

/-- The cursor comes after a current stream that is not the cursor. -/
lemma indexOf_cursor_pos {S : Nat} (h : S ≠ ccLazyWriterCursor) (t : List Nat) :
    1 ≤ (S :: t).indexOf ccLazyWriterCursor := by
  rw [List.indexOf_cons_ne _ h]; omega

lemma Scan.OnRing.indexOf_le (h : sc.OnRing L t) :
    (sc.sharedCacheMap :: t).indexOf ccLazyWriterCursor ≤ t.length :=
  Nat.lt_succ_iff.1 (List.indexOf_lt_length.2 h.2.2)

/-- Removing a node of the list other than the cursor and the current stream keeps the scan on the
ring and does not raise its rank. -/
lemma Scan.OnRing.remove {x : Nat} {l : List Nat} (h : sc.OnRing L t) (hl : L.Ring l)
    (hC : ccLazyWriterCursor ∈ l) (hx : x ∈ l) (hxC : x ≠ ccLazyWriterCursor)
    (hxS : x ≠ sc.sharedCacheMap) :
    sc.OnRing (L.removeEntryList x) (t.erase x) ∧ sc.rank (t.erase x) ≤ sc.rank t := by
  have hxt : x ∈ sc.sharedCacheMap :: t := (hl.mem_iff h.1 hC h.2.2 x).1 hx
  have he : (sc.sharedCacheMap :: t).erase x = sc.sharedCacheMap :: t.erase x :=
    List.erase_cons_tail (by simpa using Ne.symm hxS)
  have hr := h.1.removeEntryList h.2.1 hxt fun h1 =>
    hxC (List.mem_singleton.1 (h1 ▸ h.2.2)).symm
  refine ⟨⟨he ▸ hr, he ▸ h.2.1.erase x, he ▸ (List.mem_erase_of_ne (Ne.symm hxC)).2 h.2.2⟩, ?_⟩
  have hi := he ▸ indexOf_erase_le hxC (sc.sharedCacheMap :: t)
  have hn := List.length_erase_le x t
  rcases sc.splicesLeft_cases with hσ | hσ <;> simp only [Scan.rank, hσ] <;> omega

/-- Inserting a new node keeps the scan on the ring and raises its rank by at most two nodes'
worth. -/
lemma Scan.OnRing.insert {x n : Nat} {l : List Nat} (h : sc.OnRing L t) (hl : L.Ring l)
    (hC : ccLazyWriterCursor ∈ l) (hn : n ∈ l) (hx : x ∉ l) :
    ∃ t', sc.OnRing (L.insertTailList n x) t' ∧ sc.rank t' ≤ sc.rank t + 6 := by
  have hmem := hl.mem_iff h.1 hC h.2.2
  have hxt : x ∉ sc.sharedCacheMap :: t := fun h1 => hx ((hmem x).2 h1)
  have hxC : x ≠ ccLazyWriterCursor := fun e => hx (e ▸ hC)
  obtain ⟨a, b, hab⟩ := List.append_of_mem ((hmem n).1 hn)
  have hr := Links.Ring.insertTailList (hab ▸ h.1) (hab ▸ h.2.1) (hab ▸ hxt)
  have hd : (a ++ x :: n :: b).Nodup :=
    List.nodup_middle.2 (List.nodup_cons.2 ⟨hab ▸ hxt, hab ▸ h.2.1⟩)
  have hσ := sc.splicesLeft_cases
  cases a with
  | nil =>
    -- the new node goes just before the current stream, at the end of the ring read from it
    obtain ⟨rfl, rfl⟩ : sc.sharedCacheMap = n ∧ t = b := by simpa using hab
    have hi : (sc.sharedCacheMap :: (t ++ [x])).indexOf ccLazyWriterCursor =
        (sc.sharedCacheMap :: t).indexOf ccLazyWriterCursor := List.indexOf_append_of_mem h.2.2
    refine ⟨t ++ [x], ⟨hr.rotate_one, (List.perm_append_singleton x _).nodup_iff.2 hd,
      List.mem_append_left [x] h.2.2⟩, ?_⟩
    rcases hσ with hσ | hσ <;> simp only [Scan.rank, hσ, hi, List.length_append, List.length_singleton,
      Nat.mul_zero, Nat.mul_one] <;> omega
  | cons y a =>
    obtain ⟨rfl, rfl⟩ : sc.sharedCacheMap = y ∧ t = a ++ n :: b := by simpa using hab
    have hi : (sc.sharedCacheMap :: (a ++ x :: n :: b)).indexOf ccLazyWriterCursor ≤
        (sc.sharedCacheMap :: (a ++ n :: b)).indexOf ccLazyWriterCursor + 1 :=
      indexOf_insert_le hxC (sc.sharedCacheMap :: a) (n :: b)
    have hsub : (sc.sharedCacheMap :: (a ++ n :: b)).Sublist (sc.sharedCacheMap :: (a ++ x :: n :: b)) :=
      (((List.sublist_cons_self x _).append_left a)).cons₂ _
    refine ⟨a ++ x :: n :: b, ⟨hr, hd, hsub.subset h.2.2⟩, ?_⟩
    rcases hσ with hσ | hσ <;> simp only [Scan.rank, hσ, List.length_append, List.length_cons,
        Nat.mul_zero, Nat.mul_one] <;> omega

/-- Lines 271-299: deciding where the cursor goes does not raise the rank, and the splice before
the current stream spends the scan's splice. -/
lemma Scan.OnRing.moveCursor (h : sc.OnRing s.links t) (hS : sc.sharedCacheMap ≠ ccLazyWriterCursor)
    (hb : sc.BehindOk) (mwd : Bool) (fv : Nat) (pass amount : ULONG) :
    ∃ t', (Scan.moveCursor s sc mwd fv pass amount).2.OnRing
      (Scan.moveCursor s sc mwd fv pass amount).1.links t' ∧
      (Scan.moveCursor s sc mwd fv pass amount).2.rank t' ≤ sc.rank t := by
  unfold Scan.moveCursor
  split_ifs with h1 h2 h3
  · exact ⟨t, h, le_rfl⟩
  · exact ⟨t, h, by simp [Scan.rank, Scan.splicesLeft, h1]⟩
  · -- the cursor is spliced in just before the current stream
    have hct : ccLazyWriterCursor ∈ t := (List.mem_cons.1 h.2.2).resolve_left (Ne.symm hS)
    have hmb : sc.moveBehindCursor = false := Bool.eq_false_iff.2 fun hm => h1 (hb hm).1
    have hd : (sc.sharedCacheMap :: (t.erase ccLazyWriterCursor ++ [ccLazyWriterCursor])).Nodup :=
      (((List.perm_append_singleton _ _).trans (List.perm_cons_erase hct).symm).cons _).nodup_iff.2 h.2.1
    refine ⟨_, ⟨h.1.moveBefore h.2.1 hct, hd, by simp⟩, ?_⟩
    have hi : (sc.sharedCacheMap :: (t.erase ccLazyWriterCursor ++ [ccLazyWriterCursor])).indexOf
        ccLazyWriterCursor ≤ (t.erase ccLazyWriterCursor ++ [ccLazyWriterCursor]).length :=
      Nat.lt_succ_iff.1 (List.indexOf_lt_length.2 (by simp))
    have hl := List.length_erase_of_mem hct
    have hp := List.length_pos_of_mem hct
    simp only [Scan.rank, Scan.splicesLeft, h1, hmb, Bool.false_eq_true, ↓reduceIte, List.length_append,
      List.length_singleton, Nat.mul_one, Nat.mul_zero] at hi ⊢
    omega
  · exact ⟨t, h, le_rfl⟩

/-- Lines 352-359: moving to the successor lowers the rank by one node, or spends the scan's splice
behind its current stream. -/
lemma Scan.OnRing.advance (h : sc.OnRing s.links t) (hS : sc.sharedCacheMap ≠ ccLazyWriterCursor)
    (hb : sc.BehindOk) :
    ∃ t', (Scan.advance s sc).2.OnRing (Scan.advance s sc).1.links t' ∧
      (Scan.advance s sc).2.rank t' + 3 ≤ sc.rank t := by
  obtain ⟨hr, hd, hc⟩ := h
  have hct : ccLazyWriterCursor ∈ t := (List.mem_cons.1 hc).resolve_left (Ne.symm hS)
  obtain ⟨y, t, rfl⟩ := List.exists_cons_of_ne_nil (List.ne_nil_of_mem hct)
  have hnext : s.links.flink sc.sharedCacheMap = y := hr.flink_head
  have hi := indexOf_cursor_pos hS (y :: t)
  unfold Scan.advance
  split
  · next hmb =>
    -- the splice behind the current stream spends the scan's one splice
    obtain ⟨hm, -, -⟩ := hb hmb
    have hy : y ∈ sc.sharedCacheMap :: ccLazyWriterCursor :: (y :: t).erase ccLazyWriterCursor :=
      List.mem_cons_of_mem _ ((List.perm_cons_erase hct).subset (List.mem_cons_self y t))
    have hd' := ((List.perm_cons_erase hct).cons sc.sharedCacheMap).nodup_iff.1 hd
    obtain ⟨t', hr', hd'', hlen, hmem⟩ := (hr.moveAfter hd hct).from hd' hy
    have hc' : ccLazyWriterCursor ∈ y :: t' := (hmem _).2 (List.mem_cons_of_mem _ (List.mem_cons_self _ _))
    have hi' := Nat.lt_succ_iff.1 (List.indexOf_lt_length.2 hc')
    have hl := List.length_erase_of_mem hct
    refine ⟨t', by simp only [Scan.OnRing, hnext]; exact ⟨hr', hd'', hc'⟩, ?_⟩
    simp only [Scan.rank, Scan.splicesLeft, hm, hmb, hnext, Bool.false_eq_true, ↓reduceIte,
      List.length_cons, Nat.mul_one, Nat.mul_zero] at hlen hl hi' ⊢
    omega
  · next hmb =>
    have hi' : (y :: (t ++ [sc.sharedCacheMap])).indexOf ccLazyWriterCursor =
        (y :: t).indexOf ccLazyWriterCursor := List.indexOf_append_of_mem hct
    refine ⟨t ++ [sc.sharedCacheMap], by
      simp only [Scan.OnRing, hnext]
      exact ⟨hr.rotate_one, (List.perm_append_singleton _ _).nodup_iff.2 hd, List.mem_append_left _ hct⟩, ?_⟩
    simp only [Scan.rank, Scan.splicesLeft, hnext, List.length_append, List.length_cons,
      List.length_nil, Nat.zero_add]
    rw [hi', List.indexOf_cons_ne _ hS]
    omega

/-- Line 231: inspecting the current stream changes neither the ring it stands on nor its rank. -/
lemma Scan.OnRing.visit (h : sc.OnRing L t) :
    ({ sc with
        firstVisited := some (sc.firstVisited.getD sc.sharedCacheMap)
        visited := sc.visited ++ [sc.sharedCacheMap] } : Scan).OnRing L t := h

end Rank

section Steps

variable {T : Tunables} {s : State} {sc : Scan} {t : List Nat} {m : Nat}

lemma Scan.left_loop (hpc : sc.pc = .loop) :
    sc.Left m s ↔ s.masterLock = true ∧ ∃ t, sc.OnRing s.links t ∧ sc.rank t + 3 ≤ m := by
  unfold Scan.Left; rw [hpc]

lemma Scan.left_alloc (hpc : sc.pc = .alloc) : sc.Left m s ↔ sc.Pinned 2 m s.links := by
  unfold Scan.Left; rw [hpc]

lemma Scan.left_released (hpc : (∃ e, sc.pc = .posting e) ∨ sc.pc = .courtesy) :
    sc.Left m s ↔ sc.Pinned 1 m s.links := by
  rcases hpc with ⟨e, h⟩ | h <;> unfold Scan.Left <;> rw [h]

lemma Scan.left_drain (hpc : sc.pc = .drain) : sc.Left m s ↔ sc.postTickWorkQueue.length + 2 ≤ m := by
  unfold Scan.Left; rw [hpc]

/-- The move to the next node with the lock held: at most `m` steps are left at the top of the next
iteration when the rank was at most `m`. -/
lemma Scan.OnRing.advance_left (h : sc.OnRing s.links t) (hS : sc.sharedCacheMap ≠ ccLazyWriterCursor)
    (hb : sc.BehindOk) (hl : s.masterLock = true) (hm : sc.rank t ≤ m) :
    (Scan.advance s sc).2.Left m (Scan.advance s sc).1 := by
  obtain ⟨t', ht', hr⟩ := h.advance hS hb
  exact (Scan.left_loop (Scan.advance_pc _)).2 ⟨Scan.advance_masterLock.trans hl, t', ht', by omega⟩

/-- One iteration of the walk (lines 228-360) lowers the bound: it ends the walk, releases the lock
with its stream pinned, or moves to the next node with the lock held. -/
lemma Scan.Left.walk (h : sc.Left m s) (hpc : sc.pc = .loop) (hb : sc.BehindOk) (c : Bool) :
    ∃ m' < m, (Scan.walk T c s sc).2.Left m' (Scan.walk T c s sc).1 := by
  obtain ⟨hl, t, ht, hm⟩ := (Scan.left_loop hpc).1 h
  have hP : sc.postTickWorkQueue.length ≤ sc.rank t := Nat.le_add_left _ _
  dsimp only [Scan.walk]
  split_ifs with hg h1 h2
  · -- the loop test ends the walk
    exact ⟨sc.postTickWorkQueue.length + 2, by omega, (Scan.left_drain rfl).2 le_rfl⟩
  all_goals have hS : sc.sharedCacheMap ≠ ccLazyWriterCursor := fun e => hg (.inr e)
  · -- an eligible stream: the scan releases the lock with the stream pinned
    obtain ⟨t', ht', hr⟩ := ht.visit.moveCursor hS hb _ _ _ _
    have hr' := Nat.add_le_add_right hr 2
    exact ⟨m - 1, by omega, (Scan.left_alloc rfl).2
      ⟨by simpa only [Scan.moveCursor_current] using hS, t', ht',
        hr'.trans (show sc.rank t + 2 ≤ m - 1 by omega)⟩⟩
  · -- lock courtesy
    have hm' : sc.rank t + 1 ≤ m - 1 := by omega
    exact ⟨m - 1, by omega, (Scan.left_released (.inr rfl)).2 ⟨hS, t, ht, hm'⟩⟩
  · -- the next node, with the lock held
    have hm' : sc.rank t ≤ m - 3 := by omega
    exact ⟨m - 3, by omega, Scan.OnRing.advance_left ht hS hb hl hm'⟩

/-- Lines 308-318: the allocation keeps the stream pinned, or its failure takes the lock back and
leaves the walk. -/
lemma Scan.Left.allocate (h : sc.Left m s) (hpc : sc.pc = .alloc) (ok : Bool) :
    ∃ m' < m, (Scan.allocate ok s sc).2.Left m' (Scan.allocate ok s sc).1 := by
  obtain ⟨hS, t, ht, hm⟩ := (Scan.left_alloc hpc).1 h
  have hi := indexOf_cursor_pos hS t
  unfold Scan.allocate
  split
  · have hm' : sc.rank t + 1 ≤ m - 1 := by omega
    exact ⟨m - 1, by omega, (Scan.left_released (.inl ⟨_, rfl⟩)).2 ⟨hS, t, ht, hm'⟩⟩
  · have hm' : sc.postTickWorkQueue.length + 2 ≤ m - 1 := by simp only [Scan.rank] at hm; omega
    exact ⟨m - 1, by omega, (Scan.left_drain rfl).2 hm'⟩

/-- Lines 320-335: the scan takes the lock back, queues its entry and moves on. -/
lemma Scan.Left.post {e : Entry} (h : sc.Left m s) (hpc : sc.pc = .posting e) (hb : sc.BehindOk) :
    ∃ m' < m, (Scan.post e s sc).2.Left m' (Scan.post e s sc).1 := by
  obtain ⟨hS, t, ht, hm⟩ := (Scan.left_released (.inl ⟨e, hpc⟩)).1 h
  have hm' : sc.rank t ≤ m - 1 := by omega
  exact ⟨m - 1, by omega, Scan.OnRing.advance_left (by simpa [State.updateMap] using ht) hS hb
    (by simp) hm'⟩

/-- Lines 343-345: the scan takes the lock back after a lock-courtesy release and moves on. -/
lemma Scan.Left.courtesy (h : sc.Left m s) (hpc : sc.pc = .courtesy) (hb : sc.BehindOk) :
    ∃ m' < m, (Scan.courtesy s sc).2.Left m' (Scan.courtesy s sc).1 := by
  obtain ⟨hS, t, ht, hm⟩ := (Scan.left_released (.inr hpc)).1 h
  have hm' : sc.rank t ≤ m - 1 := by omega
  exact ⟨m - 1, by omega, Scan.OnRing.advance_left (by simpa [State.updateMap] using ht) hS hb rfl hm'⟩

/-- Lines 365-371: each post-tick entry is one step, and the release of the lock one more. -/
lemma Scan.Left.drain (h : sc.Left m s) (hpc : sc.pc = .drain) :
    ∃ m' < m, (Scan.drain s sc).2.Left m' (Scan.drain s sc).1 := by
  have hm := (Scan.left_drain hpc).1 h
  unfold Scan.drain
  split
  · next e rest hq =>
    have hm' : rest.length + 2 ≤ m - 1 := by rw [hq] at hm; simp only [List.length_cons] at hm; omega
    exact ⟨m - 1, by omega, (Scan.left_drain (by exact hpc)).2 hm'⟩
  · exact ⟨1, by omega, by simp [Scan.Left]⟩

/-- Every step of a scan past its top lowers the bound. -/
lemma Scan.Left.step {inp : Input} {s₁ : State} {sc₁ : Scan} (h : sc.Left m s) (hb : sc.BehindOk)
    (hs : scanStep T inp s sc = some (s₁, sc₁)) : ∃ m' < m, sc₁.Left m' s₁ := by
  rcases scanStep_cases hs with ⟨hpc, -, h1⟩ | ⟨hpc, h1⟩ | ⟨hpc, -, h1⟩ | ⟨e, hpc, -, h1⟩ |
    ⟨hpc, -, h1⟩ | ⟨hpc, h1⟩ | ⟨hpc, h1⟩ <;>
    rw [show s₁ = _ from congrArg Prod.fst h1, show sc₁ = _ from congrArg Prod.snd h1]
  · unfold Scan.Left at h; rw [hpc] at h; exact h.elim
  · exact h.walk hpc hb _
  · exact h.allocate hpc _
  · exact h.post hpc hb
  · exact h.courtesy hpc hb
  · exact h.drain hpc
  · have hm : 1 ≤ m := by unfold Scan.Left at h; rw [hpc] at h; exact h
    exact ⟨0, hm, by simp [Scan.Left, Scan.poke]⟩

end Steps

section Others

variable {s s' : State} {sc : Scan} {m k : Nat}

/-- The dirty list is a ring of distinct nodes that holds the cursor. -/
def Links.CursorRing (L : Links) : Prop :=
  ∃ l, L.Ring l ∧ l.Nodup ∧ ccLazyWriterCursor ∈ l

lemma Scan.Left.congr (h : sc.Left m s) (hL : s'.links = s.links) (hl : s'.masterLock = s.masterLock) :
    sc.Left m s' := by
  unfold Scan.Left at h ⊢; rw [hL, hl]; exact h

lemma Scan.Pinned.remove {j x : Nat} {l : List Nat} {L : Links} (h : sc.Pinned j m L) (hl : L.Ring l)
    (hC : ccLazyWriterCursor ∈ l) (hx : x ∈ l) (hxC : x ≠ ccLazyWriterCursor)
    (hxS : x ≠ sc.sharedCacheMap) : sc.Pinned j m (L.removeEntryList x) := by
  obtain ⟨hS, t, ht, hm⟩ := h
  obtain ⟨ht', hr⟩ := ht.remove hl hC hx hxC hxS
  exact ⟨hS, _, ht', by omega⟩

lemma Scan.Pinned.insert {j x n : Nat} {l : List Nat} {L : Links} (h : sc.Pinned j m L) (hl : L.Ring l)
    (hC : ccLazyWriterCursor ∈ l) (hn : n ∈ l) (hx : x ∉ l) :
    sc.Pinned j (m + 6) (L.insertTailList n x) := by
  obtain ⟨hS, t, ht, hm⟩ := h
  obtain ⟨t', ht', hr⟩ := ht.insert hl hC hn hx
  exact ⟨hS, t', ht', by omega⟩

/-- Other threads' moves keep the bound, except that each insertion raises it by six. They change
the list only under the master lock, so not while the scan is in an iteration with the lock held,
and they leave the stream the scan pins. -/
lemma Interference.left (hi : Interference sc s s' k) (h : sc.Left m s) : sc.Left (m + 6 * k) s' := by
  induction hi with
  | refl => simpa using h
  | other _ hL hl ih => exact ih.congr hL hl
  | remove x l _ hl hr _ hC hx hxC hxS ih =>
    unfold Scan.Left at ih ⊢
    cases hpc : sc.pc with
    | top | drain | poke | done => rw [hpc] at ih; exact ih
    | loop => rw [hpc] at ih; exact absurd (hl.symm.trans ih.1) Bool.false_ne_true
    | alloc => rw [hpc] at ih; exact ih.remove hr hC hx hxC (hxS (by simp [Scan.pinning, hpc]))
    | posting e => rw [hpc] at ih; exact ih.remove hr hC hx hxC (hxS (by simp [Scan.pinning, hpc]))
    | courtesy => rw [hpc] at ih; exact ih.remove hr hC hx hxC (hxS (by simp [Scan.pinning, hpc]))
  | insert x n l _ hl hr _ hC hn hx ih =>
    unfold Scan.Left at ih ⊢
    rw [Nat.mul_succ, ← Nat.add_assoc]
    cases hpc : sc.pc with
    | top | done => rw [hpc] at ih; exact ih
    | drain | poke => rw [hpc] at ih; exact Nat.le_trans ih (Nat.le_add_right _ 6)
    | loop => rw [hpc] at ih; exact absurd (hl.symm.trans ih.1) Bool.false_ne_true
    | alloc => rw [hpc] at ih; exact ih.insert hr hC hn hx
    | posting e => rw [hpc] at ih; exact ih.insert hr hC hn hx
    | courtesy => rw [hpc] at ih; exact ih.insert hr hC hn hx

/-- Other threads' moves keep the dirty list a ring that holds the cursor. -/
lemma Interference.cursorRing (hi : Interference sc s s' k) (h : s.links.CursorRing) :
    s'.links.CursorRing := by
  induction hi with
  | refl => exact h
  | other _ hL _ ih => rw [hL]; exact ih
  | remove x l _ _ hr hd hC hx hxC _ _ =>
    exact ⟨l.erase x, hr.removeEntryList hd hx fun e => hxC (List.mem_singleton.1 (e ▸ hC)).symm,
      hd.erase x, (List.mem_erase_of_ne (Ne.symm hxC)).2 hC⟩
  | insert x n l _ _ hr hd hC hn hx _ =>
    obtain ⟨a, b, rfl⟩ := List.append_of_mem hn
    exact ⟨a ++ x :: n :: b, hr.insertTailList hd hx, List.nodup_middle.2 (List.nodup_cons.2 ⟨hx, hd⟩),
      ((List.sublist_cons_self x _).append_left a).subset hC⟩

/-- Lines 140-231: the top of the scan goes idle, or takes the master lock and starts the walk at
the cursor's successor, a node of the ring. -/
lemma Scan.left_start (T : Tunables) (h : s.links.CursorRing) :
    ∃ m, (Scan.start T s sc).2.Left m (Scan.start T s sc).1 := by
  unfold Scan.start
  split_ifs
  · exact ⟨1, by simp [Scan.Left]⟩
  · exact ⟨0, by simp [Scan.Left]⟩
  · obtain ⟨l, hr, hd, hC⟩ := h
    obtain ⟨t, ht, hdt, -, hmem⟩ := hr.from hd (hr.flink_mem hC)
    exact ⟨_, (Scan.left_loop rfl).2 ⟨rfl, t, ⟨ht, hdt, (hmem _).2 hC⟩, le_rfl⟩⟩

/-- No run of a scan from its top on a ring that holds the cursor is infinite, when the other
threads insert only finitely many nodes: past its top every step of the scan lowers the bound,
which the other threads raise only at their insertions. -/
lemma walk_terminates (T : Tunables) (h : s.links.CursorRing) :
    ¬∃ (f : ℕ → State × Scan) (k : ℕ → ℕ), f 0 = (s, Scan.init) ∧ (∃ N, ∀ n ≥ N, k n = 0) ∧
      ∀ n, ∃ s₁ inp, Interference (f n).2 (f n).1 s₁ (k n) ∧
        scanStep T inp s₁ (f n).2 = some (f (n + 1)) := by
  rintro ⟨f, k, h0, ⟨N, hN⟩, hf⟩
  -- past its top the scan keeps `BehindOk` and a bound
  have hl : ∀ n, (f (n + 1)).2.BehindOk ∧ ∃ m, (f (n + 1)).2.Left m (f (n + 1)).1 := by
    intro n
    induction n with
    | zero =>
      obtain ⟨s₁, inp, hi, hs⟩ := hf 0
      rw [h0] at hi hs
      refine ⟨(scanStep_splice hs (.of_false rfl)).1, ?_⟩
      simp only [scanStep, Scan.init] at hs
      split_ifs at hs
      rw [← Option.some.inj hs]
      exact Scan.left_start T (hi.cursorRing h)
    | succ n ih =>
      obtain ⟨s₁, inp, hi, hs⟩ := hf (n + 1)
      obtain ⟨m, hm⟩ := ih.2
      obtain ⟨m', -, hm'⟩ := (hi.left hm).step ih.1 hs
      exact ⟨(scanStep_splice hs ih.1).1, m', hm'⟩
  obtain ⟨m, hm⟩ := (hl N).2
  -- once the insertions have stopped, the bound falls at every step
  have hdec : ∀ j, ∃ m', m' + j ≤ m ∧ (f (N + j + 1)).2.Left m' (f (N + j + 1)).1 := by
    intro j
    induction j with
    | zero => exact ⟨m, le_rfl, hm⟩
    | succ j ih =>
      obtain ⟨m', hj, hm'⟩ := ih
      obtain ⟨s₁, inp, hi, hs⟩ := hf (N + j + 1)
      have hk : m' + 6 * k (N + j + 1) = m' := by rw [hN _ (by omega), Nat.mul_zero, Nat.add_zero]
      obtain ⟨m'', hlt, hm''⟩ := (hk ▸ hi.left hm').step (hl (N + j)).1 hs
      exact ⟨m'', by omega, hm''⟩
  obtain ⟨m', hj, -⟩ := hdec (m + 1)
  omega

end Others

section Alone

/-- `WalkInv` reads only the links and the master lock. -/
lemma WalkInv.congr {L₀ : Links} {W : List Nat} {s s' : State} {sc : Scan} (h : WalkInv L₀ W s sc)
    (hL : s'.links = s.links) (hl : s'.masterLock = s.masterLock) : WalkInv L₀ W s' sc := by
  unfold WalkInv at h ⊢; rw [hL, hl]; exact h

/-- Along a run of a scan from its first line on the ring `C :: W`, among threads that leave the
list and the master lock alone, `WalkInv` holds. -/
lemma WalkRun.walkInv {T : Tunables} {L₀ : Links} {W : List Nat} {s s₁ : State} {sc₁ : Scan}
    (hr : L₀.Ring (ccLazyWriterCursor :: W)) (hW : (ccLazyWriterCursor :: W).Nodup) (hne : W ≠ [])
    (hs : s.links = L₀) (hl : s.masterLock = false) (h : WalkRun T s Scan.init s₁ sc₁) :
    sc₁.BehindOk ∧ WalkInv L₀ W s₁ sc₁ := by
  induction h with
  | refl => exact ⟨.of_false rfl, rfl, hs, hl⟩
  | scan _ _ h ih => exact ⟨(scanStep_splice h ih.1).1, WalkInv.step hr hW hne ih.1 ih.2 h⟩
  | other _ hL hl' ih => exact ⟨ih.1, ih.2.congr hL hl'⟩

/-- A run of the scan alone extends a `WalkRun`. -/
lemma WalkRun.extend_runScan {T : Tunables} {s₀ s : State} {sc₀ sc : Scan} (h : WalkRun T s₀ sc₀ s sc)
    (inp : Input) (n : Nat) : WalkRun T s₀ sc₀ (runScan T inp n s sc).1 (runScan T inp n s sc).2.1 := by
  induction n generalizing s sc with
  | zero => exact h
  | succ n ih =>
    rw [runScan]
    split
    · next s₁ sc₁ h1 => exact ih (h.scan inp h1)
    · exact h

end Alone

/-- The walk of a scan on a well-formed dirty list, the ring `C :: W` with the list head in `W`,
started with the master lock free. Other threads may remove streams the scan has not pinned and
insert streams: as long as they insert finitely many, every run of the scan is finite. Among
threads that leave the list and the master lock alone, the scan can step until it is done; at
every point the nodes it has inspected are a prefix of `W`, so each node other than the cursor at
most once; and when its loop test ends the walk it has inspected every node of `W`, although the
cursor may have been spliced in front of a stream or behind it during the walk. -/
theorem walk_visits_each_node_once {T : Tunables} {s : State} {W : List Nat}
    (hr : s.links.Ring (ccLazyWriterCursor :: W)) (hW : (ccLazyWriterCursor :: W).Nodup)
    (hH : ccDirtySharedCacheMapList ∈ W) (hl : s.masterLock = false) :
    (¬∃ (f : ℕ → State × Scan) (k : ℕ → ℕ), f 0 = (s, Scan.init) ∧ (∃ N, ∀ n ≥ N, k n = 0) ∧
      ∀ n, ∃ s₁ inp, Interference (f n).2 (f n).1 s₁ (k n) ∧
        scanStep T inp s₁ (f n).2 = some (f (n + 1))) ∧
    (∀ s₁ sc₁, WalkRun T s Scan.init s₁ sc₁ → sc₁.pc ≠ .done →
      ∃ inp s₂ sc₂, scanStep T inp s₁ sc₁ = some (s₂, sc₂)) ∧
    (∀ s₁ sc₁, WalkRun T s Scan.init s₁ sc₁ → sc₁.visited <+: W) ∧
    (∀ s₁ sc₁ inp s₂ sc₂, WalkRun T s Scan.init s₁ sc₁ → sc₁.pc = .loop →
      scanStep T inp s₁ sc₁ = some (s₂, sc₂) → sc₂.pc = .drain → sc₂.visited = W) := by
  have hne : W ≠ [] := List.ne_nil_of_mem hH
  have hrun := fun {s₁ sc₁} (h : WalkRun T s Scan.init s₁ sc₁) => h.walkInv hr hW hne rfl hl
  refine ⟨walk_terminates T ⟨_, hr, hW, List.mem_cons_self _ _⟩, fun _ _ h hpc =>
    ⟨_, (hrun h).2.progress hpc⟩, fun _ _ h => (hrun h).2.visited_in_order, ?_⟩
  intro s₁ sc₁ inp s₂ sc₂ h hpc h1 hd
  have h2 : scanStep T inp s₁ sc₁ = some (Scan.walk T inp.canIWrite s₁ sc₁) := by
    simp [scanStep, hpc]
  rw [show sc₂ = _ from congrArg Prod.snd (Option.some.inj (h1.symm.trans h2))] at hd ⊢
  have hi := (WalkInv.loop_iff hpc).1 (hrun h).2
  revert hd
  dsimp only [Scan.walk]
  split_ifs with hg
  · exact fun _ => hi.stop hW hg
  all_goals simp [Scan.advance_pc]

/-- Streams 2, 3 and 4 after the list head, each with 100 dirty pages: the page budget of the next
tick is 37. -/
def walkStart : State :=
  let d : SharedCacheMap := ⟨⟨false, false, false, false, false⟩, 100, 0, 1, 4096, 0⟩
  { threeStreams with
    maps := Function.update (Function.update (Function.update threeStreams.maps 2 d) 3 d) 4 d
    totalDirtyPages := 300 }

/-- The scan on `walkStart` after its top and its first iteration: the budget is met at stream 2,
and the scan has released the master lock to allocate its `WriteBehind`. -/
def walkRelease : State × Scan :=
  let r := runScan ⟨1000, false, 16⟩ ⟨true, true, ⟨true, false, false⟩⟩ 2 walkStart Scan.init
  (r.1, r.2.1)

/-- Meanwhile another thread writes stream 3, without touching the dirty list. -/
def walkCleaned : State :=
  { walkRelease.1 with
    maps := Function.update walkRelease.1.maps 3 { walkRelease.1.maps 3 with dirtyPages := 0 }
    totalDirtyPages := 200 }

/-- The scan then posts its entry, walks over streams 3 and 4 and the list head, and reaches the
cursor. -/
def walkAtCursor : State × Scan :=
  let r := runScan ⟨1000, false, 16⟩ ⟨true, true, ⟨true, false, false⟩⟩ 5 walkCleaned walkRelease.2
  (r.1, r.2.1)

theorem walk_visits_each_node_once_streams :
    ∃ s₁ sc₁ s₂ sc₂, WalkRun ⟨1000, false, 16⟩ walkStart Scan.init s₁ sc₁ ∧ sc₁.pc = .loop ∧
      scanStep ⟨1000, false, 16⟩ ⟨true, true, ⟨true, false, false⟩⟩ s₁ sc₁ = some (s₂, sc₂) ∧
      sc₂.pc = .drain ∧ sc₂.posted.map (·.1.work) = [.writeBehind 2] ∧
      sc₂.visited = [2, 3, 4, ccDirtySharedCacheMapList] := by
  have h1 : WalkRun ⟨1000, false, 16⟩ walkStart Scan.init walkRelease.1 walkRelease.2 :=
    WalkRun.refl.extend_runScan _ 2
  have h2 : WalkRun ⟨1000, false, 16⟩ walkStart Scan.init walkCleaned walkRelease.2 := h1.other rfl rfl
  have hrun : WalkRun ⟨1000, false, 16⟩ walkStart Scan.init walkAtCursor.1 walkAtCursor.2 :=
    h2.extend_runScan _ 5
  have hpc : walkAtCursor.2.pc = .loop := by decide
  have hstep : scanStep ⟨1000, false, 16⟩ ⟨true, true, ⟨true, false, false⟩⟩ walkAtCursor.1 walkAtCursor.2 =
      some (Scan.walk ⟨1000, false, 16⟩ true walkAtCursor.1 walkAtCursor.2) := by
    simp [scanStep, hpc]
  have hd : (Scan.walk ⟨1000, false, 16⟩ true walkAtCursor.1 walkAtCursor.2).2.pc = .drain := by decide
  exact ⟨_, _, _, _, hrun, hpc, hstep, hd, by decide,
    (walk_visits_each_node_once (by decide) (by decide) (by decide) rfl).2.2.2 _ _ _ _ _ hrun hpc hstep hd⟩

/-- The schedule of the first run of `walk_ends_early`: one dirty stream, and a timer scan whose
`CcAllocateWorkQueueEntry` fails at it. -/
def allocFailRun : List Label :=
  [.env (.setStream 2 100 1 4096 false false false), .env (.setTotalDirtyPages 100),
    .schedule false, .scanDpc true] ++ List.replicate 4 (.thread 0 ⟨true, true, ⟨true, false, false⟩⟩) ++
    [.thread 0 ⟨true, false, ⟨true, false, false⟩⟩]

/-- The schedule of the second run of `walk_ends_early`, up to the removal. The first scan meets
its budget at stream 3 and splices the cursor before it, so that the list reads `H, 2, C, 3, 4`;
the worker writes stream 3 behind and leaves. Stream 3 becomes clean and stream 4 dirty, and the
next scan runs on a new thread: it starts at stream 3 (`FirstVisited`), pins stream 4 and releases
the master lock to allocate. -/
def reinsertRun : List Label :=
  [.env (.setStream 2 0 1 4096 false false false), .env (.setStream 3 100 1 4096 false false false),
    .env (.setStream 4 0 1 4096 false false false), .env (.setTotalDirtyPages 100),
    .schedule false, .scanDpc true] ++ List.replicate 17 (.thread 0 ⟨true, true, ⟨true, false, false⟩⟩) ++
    [.env (.setStream 3 0 1 4096 false false false), .env (.setStream 4 100 1 4096 false false false),
    .scanDpc true] ++ List.replicate 5 (.thread 1 ⟨true, true, ⟨true, false, false⟩⟩)

/-- Two walks that end before inspecting every node that stays in the list. In the first, nothing
else touches the list: `CcAllocateWorkQueueEntry` fails at stream 2, and the scan leaves the walk
(lines 312-316) without inspecting the list head. In the second, while the scan has released the
master lock at stream 4, other threads remove stream 3, its `FirstVisited`, which is neither
`WRITE_QUEUED` nor a cursor, and insert it again at the tail of the list; the scan fetches it as the
successor of stream 4 and stops there, having never inspected stream 2, which stays in the list. -/
theorem walk_ends_early :
    (∃ s : State, Reachable ⟨1000, false, 16⟩ 1 s ∧
      s.links.Ring [ccLazyWriterCursor, 2, ccDirtySharedCacheMapList] ∧
      (s.threads.filterMap Thread.scan?).map (fun sc => (sc.pc, sc.visited)) = [(.drain, [2])]) ∧
    (∃ s : State, Reachable ⟨1000, false, 16⟩ 1 s ∧
      s.links.Ring [ccLazyWriterCursor, 4, 3, ccDirtySharedCacheMapList, 2] ∧
      (s.threads.filterMap Thread.scan?).map (fun sc => (sc.pc, sc.visited)) = [(.drain, [3, 4])]) := by
  constructor
  · obtain ⟨s, hs, h⟩ := (Reachable.init_stream ⟨1000, false, 16⟩ 1 2 (by decide)).exists_of_runAll
      allocFailRun (P := fun s => decide (s.links.Ring [ccLazyWriterCursor, 2, ccDirtySharedCacheMapList] ∧
        (s.threads.filterMap Thread.scan?).map (fun sc => (sc.pc, sc.visited)) = [(.drain, [2])]))
      (by decide)
    exact ⟨s, hs, of_decide_eq_true h⟩
  · have h1 : Reachable ⟨1000, false, 16⟩ 1
        ((runAll ⟨1000, false, 16⟩ reinsertRun threeStreams).getD threeStreams) :=
      Reachable.threeStreams.runAll_getD (by decide) _
    have h2 := h1.step (.removeStream 3 [0, 2, 3, 1, 4] (by decide) (by decide) (by decide)
      (by decide) (by decide) (by decide))
    have h3 := h2.step (.insertStream 3 0 [0, 2, 1, 4] rfl (by decide) (by decide) (by decide)
      (by decide) (by decide))
    obtain ⟨s, hs, h⟩ := h3.exists_of_runAll (List.replicate 3 (.thread 1 ⟨true, true, ⟨true, false, false⟩⟩))
      (P := fun s => decide (s.links.Ring [ccLazyWriterCursor, 4, 3, ccDirtySharedCacheMapList, 2] ∧
        (s.threads.filterMap Thread.scan?).map (fun sc => (sc.pc, sc.visited)) = [(.drain, [3, 4])]))
      (by decide)
    exact ⟨s, hs, of_decide_eq_true h⟩

end LazyWriter
