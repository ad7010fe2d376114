import LazyWriter.Cursor

/-!
# The walk of the dirty list

The walk of `CcLazyWriteScan` (lines 221-360) starts at the successor of `CcLazyWriterCursor` and
stops when it is back at `FirstVisited` or at the cursor. Write the dirty list as the ring
`C :: W`, `C` the cursor: `W` is every other node, the list head included, in the order the walk
meets them. For a scan alone on the list, `WalkInv` says where the walk is: at the top of an
iteration (`Scan.Walking`) it has inspected a prefix `V` of `W` and the links are a ring that
starts with the rest of `W`; inside an iteration (`Scan.AtNode`) it has also inspected its current
stream. `Scan.Spliced` says where the cursor is: still just before the first node of `W`, or, once
the scan has made its one splice, just before the current stream (lines 285-295) or just behind a
stream the walk has left (lines 352-359); either way the walk meets `FirstVisited` or the cursor
only once the rest of `W` is behind it.

`WalkInv.step` proves that every step of the scan keeps `WalkInv`, which depends only on the links
and the master lock. So the walk inspects each node of `W` at most once, in order, and, when its
loop test ends it, has inspected every one (`Scan.Walking.stop`); `WalkInv.progress` says that the
scan can step until it is done. `Interference.lean` runs the scan among other threads.
-/

namespace LazyWriter

/-- Where the cursor is for a walk over the ring `C :: W` that has inspected `V`, when the nodes
after the part of `W` still ahead are `pre`: before the scan's one splice, `pre` is the cursor and
then `V`; after it, `pre` starts with the cursor or with the first node of `W`. -/
def Scan.Spliced (W V : List Nat) (sc : Scan) (pre : List Nat) : Prop :=
  (sc.splicesLeft = 1 ∧ pre = ccLazyWriterCursor :: V) ∨
    (sc.splicesLeft = 0 ∧ (pre.head? = some ccLazyWriterCursor ∨ pre.head? = W.head?))

/-- The scan at the top of an iteration of the walk (line 228): it has inspected `V`, the part of
`W` still ahead is `R`, and the links are the ring `R ++ pre`, which starts at the current stream. -/
def Scan.Walking (W : List Nat) (L : Links) (sc : Scan) : Prop :=
  ∃ V R pre, W = V ++ R ∧ sc.visited = V ∧ sc.firstVisited = V.head? ∧ L.Ring (R ++ pre) ∧
    (R ++ pre).head? = some sc.sharedCacheMap ∧ sc.Spliced W V pre

/-- The scan inside an iteration: it has inspected `V` and then its current stream. -/
def Scan.AtNode (W : List Nat) (L : Links) (sc : Scan) : Prop :=
  ∃ V R pre, W = V ++ sc.sharedCacheMap :: R ∧ sc.visited = V ++ [sc.sharedCacheMap] ∧
    sc.firstVisited = W.head? ∧ L.Ring (sc.sharedCacheMap :: (R ++ pre)) ∧ sc.Spliced W V pre

/-- The walk of a scan alone over the dirty list `L₀`, the ring `C :: W`. -/
def WalkInv (L₀ : Links) (W : List Nat) (s : State) (sc : Scan) : Prop :=
  match sc.pc with
  | .top => sc = Scan.init ∧ s.links = L₀ ∧ s.masterLock = false
  | .loop => sc.Walking W s.links
  | .alloc | .posting _ | .courtesy => s.masterLock = false ∧ sc.AtNode W s.links
  | .drain | .poke | .done => sc.visited <+: W

section Walk

variable {W V R pre : List Nat} {L : Links} {sc sc' : Scan}

lemma Scan.Spliced.congr (h : sc.Spliced W V pre) (hs : sc'.splicesLeft = sc.splicesLeft) :
    sc'.Spliced W V pre := by
  unfold Scan.Spliced at *; rwa [hs]

/-- The cursor has not been spliced yet when the scan has its splice left. -/
lemma Scan.Spliced.unspliced (h : sc.Spliced W V pre) (hs : sc.splicesLeft = 1) :
    pre = ccLazyWriterCursor :: V := by
  rcases h with ⟨-, h⟩ | ⟨h, -⟩
  · exact h
  · omega

lemma Scan.AtNode.congr {L' : Links} (h : sc.AtNode W L) (hL : L' = L)
    (hS : sc'.sharedCacheMap = sc.sharedCacheMap) (hv : sc'.visited = sc.visited)
    (hf : sc'.firstVisited = sc.firstVisited) (hs : sc'.splicesLeft = sc.splicesLeft) :
    sc'.AtNode W L' := by
  obtain ⟨V, R, pre, h1, h2, h3, h4, h5⟩ := h
  exact ⟨V, R, pre, hS ▸ h1, hv ▸ hS ▸ h2, hf ▸ h3, hL ▸ hS ▸ h4, h5.congr hs⟩

lemma Scan.Walking.visited_in_order (h : sc.Walking W L) : sc.visited <+: W := by
  obtain ⟨V, R, -, rfl, h2, -⟩ := h
  exact h2 ▸ List.prefix_append V R

lemma Scan.AtNode.visited_in_order (h : sc.AtNode W L) : sc.visited <+: W := by
  obtain ⟨V, R, -, h1, h2, -⟩ := h
  exact ⟨R, by rw [h2, h1, List.append_assoc, List.singleton_append]⟩

/-- The ring `C :: V ++ S :: R` read from `S` is still without repeated nodes. -/
lemma nodup_from_current {S : Nat} (h : (ccLazyWriterCursor :: (V ++ S :: R)).Nodup) :
    (S :: (R ++ ccLazyWriterCursor :: V)).Nodup :=
  (List.IsRotated.nodup_iff ⟨(ccLazyWriterCursor :: V).length,
    List.rotate_append_length_eq (ccLazyWriterCursor :: V) (S :: R)⟩).1 h

/-- The loop test of line 228 ends the walk only once every node of `W` has been inspected. -/
lemma Scan.Walking.stop (h : sc.Walking W L) (hW : (ccLazyWriterCursor :: W).Nodup)
    (hg : sc.firstVisited = some sc.sharedCacheMap ∨ sc.sharedCacheMap = ccLazyWriterCursor) :
    sc.visited = W := by
  obtain ⟨V, R, pre, rfl, h2, h3, -, h5, -⟩ := h
  cases R with
  | nil => simpa using h2
  | cons r R =>
    simp only [List.cons_append, List.head?_cons, Option.some.injEq] at h5
    obtain ⟨hC, hd⟩ := List.nodup_cons.1 hW
    rcases hg with hg | hg
    · -- `FirstVisited` is the first node of `V`, which the rest of `W` does not repeat
      have hv : sc.sharedCacheMap ∈ V := List.mem_of_mem_head? (h3.symm.trans hg)
      exact (List.disjoint_of_nodup_append hd hv (h5 ▸ List.mem_cons_self r R)).elim
    · exact absurd (List.mem_append_right V (hg ▸ h5 ▸ List.mem_cons_self r R)) hC

/-- Past the loop test the walk inspects its current stream, the next node of `W`
(lines 228-231). -/
lemma Scan.Walking.visit (h : sc.Walking W L)
    (hg : ¬(sc.firstVisited = some sc.sharedCacheMap ∨ sc.sharedCacheMap = ccLazyWriterCursor)) :
    ({ sc with
        firstVisited := some (sc.firstVisited.getD sc.sharedCacheMap)
        visited := sc.visited ++ [sc.sharedCacheMap] } : Scan).AtNode W L := by
  obtain ⟨V, R, pre, rfl, h2, h3, h4, h5, h6⟩ := h
  cases R with
  | nil =>
    -- with nothing of `W` ahead, the current node is the cursor or `FirstVisited`
    exfalso
    simp only [List.nil_append] at h5
    rcases h6 with ⟨-, rfl⟩ | ⟨-, h7 | h7⟩
    · exact hg (.inr (Option.some.inj h5).symm)
    · exact hg (.inr (Option.some.inj (h7.symm.trans h5)).symm)
    · rw [List.append_nil] at h7
      exact hg (.inl (h3.trans (h7.symm.trans h5)))
  | cons r R =>
    simp only [List.cons_append, List.head?_cons, Option.some.injEq] at h5
    subst h5
    refine ⟨V, R, pre, rfl, by rw [h2], ?_, h4, h6.congr rfl⟩
    cases V with
    | nil => simp [h3]
    | cons v V => simp [h3]

/-- `V ++ S :: R` starts with the first node of `V`, or with `S`. -/
lemma head?_append_cons (V R R' : List Nat) (S : Nat) : (V ++ S :: R).head? = (V ++ S :: R').head? := by
  cases V <;> rfl

lemma cursor_not_mem_rest {S : Nat} (hW : (ccLazyWriterCursor :: W).Nodup) (hV : W = V ++ S :: R) :
    ccLazyWriterCursor ∉ R := fun hc =>
  (List.nodup_cons.1 hW).1 (hV ▸ List.mem_append_right V (List.mem_cons_of_mem _ hc))

/-- Lines 285-295: the splice before the current stream takes the cursor from its place before the
first node of `W`. -/
lemma Scan.AtNode.moveCursor {s : State} (h : sc.AtNode W s.links)
    (hW : (ccLazyWriterCursor :: W).Nodup) (hb : sc.BehindOk) (mwd : Bool) (fv : Nat)
    (pass amount : ULONG) :
    (Scan.moveCursor s sc mwd fv pass amount).2.AtNode W
      (Scan.moveCursor s sc mwd fv pass amount).1.links := by
  unfold Scan.moveCursor
  split_ifs with h1 h2
  · exact h
  · exact h.congr rfl rfl rfl rfl (by simp [Scan.splicesLeft, h1])
  · obtain ⟨V, R, pre, hV, h2, h3, h4, h5⟩ := h
    have hmb : sc.moveBehindCursor = false := Bool.eq_false_iff.2 fun h => h1 (hb h).1
    obtain rfl := h5.unspliced (by simp [Scan.splicesLeft, h1])
    have hr := h4.moveBefore (nodup_from_current (hV ▸ hW))
      (List.mem_append_right R (List.mem_cons_self _ _))
    rw [List.erase_append_right _ (cursor_not_mem_rest hW hV), List.erase_cons_head] at hr
    refine ⟨V, R, V ++ [ccLazyWriterCursor], hV, h2, h3, by simpa using hr,
      .inr ⟨by simp [Scan.splicesLeft, hmb], ?_⟩⟩
    cases V with
    | nil => exact .inl rfl
    | cons v V => exact .inr (by rw [hV]; rfl)
  · exact h.congr rfl rfl rfl rfl rfl

/-- Lines 352-359: the walk moves to the successor of its current stream, fetched before the
pending splice behind that stream. -/
lemma Scan.AtNode.advance {s : State} (h : sc.AtNode W s.links)
    (hW : (ccLazyWriterCursor :: W).Nodup) (hb : sc.BehindOk) :
    (Scan.advance s sc).2.Walking W (Scan.advance s sc).1.links := by
  obtain ⟨V, R, pre, hV, h2, h3, h4, h5⟩ := h
  have hpre : pre ≠ [] := by
    rintro rfl
    rcases h5 with ⟨-, h⟩ | ⟨-, h | h⟩
    · cases h
    · cases h
    · rw [hV] at h; cases V <;> cases h
  obtain ⟨x, t, hxt⟩ := List.exists_cons_of_ne_nil (List.append_ne_nil_of_right_ne_nil R hpre)
  have hnext : s.links.flink sc.sharedCacheMap = x := (hxt ▸ h4).flink_head
  have hfv : sc.firstVisited = (V ++ [sc.sharedCacheMap]).head? := h3.trans (hV ▸ head?_append_cons _ _ _ _)
  unfold Scan.advance
  split <;> dsimp only
  · next hmb =>
    -- the splice behind the current stream, the only one of the scan
    obtain ⟨hm, -, -⟩ := hb hmb
    obtain rfl := h5.unspliced (by simp [Scan.splicesLeft, hm, hmb])
    have hr := h4.moveAfter (nodup_from_current (hV ▸ hW))
      (List.mem_append_right R (List.mem_cons_self _ _))
    rw [List.erase_append_right _ (cursor_not_mem_rest hW hV), List.erase_cons_head] at hr
    have hs : Scan.splicesLeft { sc with
        moveBehindCursor := false
        sharedCacheMap := s.links.flink sc.sharedCacheMap
        pc := .loop } = 0 := by
      simp [Scan.splicesLeft, hm]
    cases R with
    | nil =>
      -- the successor was the cursor, which now sits just behind the current stream
      simp only [List.nil_append, List.cons.injEq] at hxt
      refine ⟨V ++ [sc.sharedCacheMap], [], ccLazyWriterCursor :: (V ++ [sc.sharedCacheMap]),
        by rw [hV, List.append_nil], h2,
        hfv, by simpa using hr.rotate_one, by simp [hnext, hxt.1], .inr ⟨hs, .inl rfl⟩⟩
    | cons r R =>
      simp only [List.cons_append, List.cons.injEq] at hxt
      refine ⟨V ++ [sc.sharedCacheMap], r :: R, V ++ [sc.sharedCacheMap, ccLazyWriterCursor],
        by simp [hV], h2, hfv, by simpa using hr.rotate_one.rotate_one, by simp [hnext, hxt.1],
        .inr ⟨hs, .inr (hV ▸ head?_append_cons _ _ _ _)⟩⟩
  · next hmb =>
    refine ⟨V ++ [sc.sharedCacheMap], R, pre ++ [sc.sharedCacheMap], by simp [hV], h2, hfv,
      by simpa using h4.rotate_one, by rw [← List.append_assoc, hxt, hnext]; rfl, ?_⟩
    rcases h5 with ⟨h6, rfl⟩ | ⟨h6, h7⟩
    · exact .inl ⟨h6, rfl⟩
    · exact .inr ⟨h6, by rwa [List.head?_append_of_ne_nil _ hpre]⟩

end Walk

section Steps

variable {T : Tunables} {L₀ : Links} {W : List Nat} {s : State} {sc : Scan}

@[simp] lemma Scan.advance_visited (s : State) (sc : Scan) :
    (Scan.advance s sc).2.visited = sc.visited := by
  unfold Scan.advance; split <;> rfl

@[simp] lemma Scan.moveCursor_visited (mwd : Bool) (fv : Nat) (pass amount : ULONG) :
    (Scan.moveCursor s sc mwd fv pass amount).2.visited = sc.visited := by
  unfold Scan.moveCursor; split_ifs <;> rfl

@[simp] lemma Scan.moveCursor_postTickWorkQueue (mwd : Bool) (fv : Nat) (pass amount : ULONG) :
    (Scan.moveCursor s sc mwd fv pass amount).2.postTickWorkQueue = sc.postTickWorkQueue := by
  unfold Scan.moveCursor; split_ifs <;> rfl

@[simp] lemma ccPostWorkQueue_links (e : Entry) (q : Queue) : (ccPostWorkQueue e q s).links = s.links := by
  simp [ccPostWorkQueue]

lemma WalkInv.loop_iff (hpc : sc.pc = .loop) : WalkInv L₀ W s sc ↔ sc.Walking W s.links := by
  unfold WalkInv; rw [hpc]

lemma WalkInv.node_iff (hpc : sc.pc = .alloc ∨ (∃ e, sc.pc = .posting e) ∨ sc.pc = .courtesy) :
    WalkInv L₀ W s sc ↔ s.masterLock = false ∧ sc.AtNode W s.links := by
  rcases hpc with h | ⟨e, h⟩ | h <;> unfold WalkInv <;> rw [h]

lemma WalkInv.ended_iff (hpc : sc.pc = .drain ∨ sc.pc = .poke ∨ sc.pc = .done) :
    WalkInv L₀ W s sc ↔ sc.visited <+: W := by
  rcases hpc with h | h | h <;> unfold WalkInv <;> rw [h]

/-- Wherever the scan is, what it has inspected is a prefix of `W`: each node at most once, in
the order of the ring. -/
lemma WalkInv.visited_in_order (hi : WalkInv L₀ W s sc) : sc.visited <+: W := by
  unfold WalkInv at hi
  split at hi
  · rw [hi.1]; exact ⟨_, rfl⟩
  · exact hi.visited_in_order
  all_goals first | exact hi.2.visited_in_order | exact hi

/-- The top of the scan (lines 140-231) starts the walk at the cursor's successor, the first node
of `W`, or ends the scan. -/
lemma WalkInv.start (hr : L₀.Ring (ccLazyWriterCursor :: W)) (hne : W ≠ []) (hi : WalkInv L₀ W s sc)
    (hpc : sc.pc = .top) : WalkInv L₀ W (Scan.start T s sc).1 (Scan.start T s sc).2 := by
  unfold WalkInv at hi
  rw [hpc] at hi
  obtain ⟨rfl, hL, -⟩ := hi
  obtain ⟨w, W', rfl⟩ := List.exists_cons_of_ne_nil hne
  unfold Scan.start
  split_ifs
  · exact ⟨_, rfl⟩
  · exact ⟨_, rfl⟩
  · refine ⟨[], w :: W', [ccLazyWriterCursor], rfl, rfl, rfl, hL ▸ hr.rotate_one, ?_, .inl ⟨rfl, rfl⟩⟩
    simp [hL, hr.flink_head]

/-- One iteration of the walk up to the release of the master lock or the next node
(lines 228-360). -/
lemma WalkInv.walk (hW : (ccLazyWriterCursor :: W).Nodup) (hb : sc.BehindOk)
    (hi : sc.Walking W s.links) (c : Bool) :
    WalkInv L₀ W (Scan.walk T c s sc).1 (Scan.walk T c s sc).2 := by
  dsimp only [Scan.walk]
  split_ifs with hg
  · exact hi.visited_in_order
  · exact ⟨rfl, ((hi.visit hg).moveCursor hW hb _ _ _ _).congr rfl rfl rfl rfl rfl⟩
  · exact ⟨rfl, (hi.visit hg).congr rfl rfl rfl rfl rfl⟩
  · exact (WalkInv.loop_iff (Scan.advance_pc _)).2
      (Scan.AtNode.advance ((hi.visit hg).congr rfl rfl rfl rfl rfl) hW hb)

/-- Lines 308-318: the entry is allocated, or the walk is left. -/
lemma WalkInv.allocate (hi : s.masterLock = false ∧ sc.AtNode W s.links) (ok : Bool) :
    WalkInv L₀ W (Scan.allocate ok s sc).1 (Scan.allocate ok s sc).2 := by
  unfold Scan.allocate
  split
  · exact ⟨hi.1, hi.2.congr rfl rfl rfl rfl rfl⟩
  · exact hi.2.visited_in_order

/-- Lines 320-335 and the end of the iteration. -/
lemma WalkInv.post (hW : (ccLazyWriterCursor :: W).Nodup) (hb : sc.BehindOk)
    (hi : s.masterLock = false ∧ sc.AtNode W s.links) (e : Entry) :
    WalkInv L₀ W (Scan.post e s sc).1 (Scan.post e s sc).2 :=
  (WalkInv.loop_iff (Scan.advance_pc _)).2
    (Scan.AtNode.advance (hi.2.congr (by simp [State.updateMap]) rfl rfl rfl rfl) hW hb)

/-- Lines 343-345 and the end of the iteration. -/
lemma WalkInv.courtesy (hW : (ccLazyWriterCursor :: W).Nodup) (hb : sc.BehindOk)
    (hi : s.masterLock = false ∧ sc.AtNode W s.links) :
    WalkInv L₀ W (Scan.courtesy s sc).1 (Scan.courtesy s sc).2 :=
  (WalkInv.loop_iff (Scan.advance_pc _)).2 (Scan.AtNode.advance hi.2 hW hb)

/-- Lines 365-371, and the final `CcScheduleLazyWriteScan`. -/
lemma WalkInv.drain (hi : sc.visited <+: W) (hpc : sc.pc = .drain) :
    WalkInv L₀ W (Scan.drain s sc).1 (Scan.drain s sc).2 := by
  unfold Scan.drain
  split
  · exact (WalkInv.ended_iff (.inl (by exact hpc))).2 hi
  · exact (WalkInv.ended_iff (.inr (.inl rfl))).2 hi

/-- Every step of a scan keeps `WalkInv`. -/
lemma WalkInv.step {inp : Input} {s₁ : State} {sc' : Scan} (hr : L₀.Ring (ccLazyWriterCursor :: W))
    (hW : (ccLazyWriterCursor :: W).Nodup) (hne : W ≠ []) (hb : sc.BehindOk) (hi : WalkInv L₀ W s sc)
    (h : scanStep T inp s sc = some (s₁, sc')) : WalkInv L₀ W s₁ sc' := by
  rcases scanStep_cases h with ⟨hpc, -, h⟩ | ⟨hpc, h⟩ | ⟨hpc, -, h⟩ | ⟨e, hpc, -, h⟩ | ⟨hpc, -, h⟩ |
    ⟨hpc, h⟩ | ⟨hpc, h⟩ <;>
    rw [show s₁ = _ from congrArg Prod.fst h, show sc' = _ from congrArg Prod.snd h]
  · exact WalkInv.start hr hne hi hpc
  · exact WalkInv.walk hW hb ((WalkInv.loop_iff hpc).1 hi) _
  · exact WalkInv.allocate ((WalkInv.node_iff (.inl hpc)).1 hi) _
  · exact WalkInv.post hW hb ((WalkInv.node_iff (.inr (.inl ⟨e, hpc⟩))).1 hi) e
  · exact WalkInv.courtesy hW hb ((WalkInv.node_iff (.inr (.inr hpc))).1 hi)
  · exact WalkInv.drain ((WalkInv.ended_iff (.inl hpc)).1 hi) hpc
  · exact (WalkInv.ended_iff (.inr (.inl hpc))).1 hi

end Steps

/-- A scan under `WalkInv` can always take a step until it is done: it holds the master lock or
released it itself. -/
lemma WalkInv.progress {T : Tunables} {L₀ : Links} {W : List Nat} {s : State} {sc : Scan}
    (hi : WalkInv L₀ W s sc) (hpc : sc.pc ≠ .done) :
    ∃ s₁ sc₁, scanStep T ⟨true, true, ⟨true, false, false⟩⟩ s sc = some (s₁, sc₁) := by
  unfold WalkInv at hi
  unfold scanStep
  split <;> rename_i h <;> rw [h] at hi
  · simp only [hi.2.2, Bool.false_eq_true, ite_false]; exact ⟨_, _, rfl⟩
  · exact ⟨_, _, rfl⟩
  · exact ⟨_, _, rfl⟩
  · simp only [hi.1, Bool.false_eq_true, ite_false]; exact ⟨_, _, rfl⟩
  · simp only [hi.1, Bool.false_eq_true, ite_false]; exact ⟨_, _, rfl⟩
  · exact ⟨_, _, rfl⟩
  · exact ⟨_, _, rfl⟩
  · exact absurd h hpc

end LazyWriter
