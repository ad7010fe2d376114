import LazyWriter.Basic
import Mathlib.Data.List.Rotate

/-!
# The dirty list as a cyclic list

`Links.Ring L l` says that the pointer fields `L` form exactly the cyclic list `l`: from the first
node of `l`, `Flink` visits `l` in order and comes back, and every `Blink` points to the node before.
This is the abstract view of the dirty list, and the list primitives refine list operations on it:
`RemoveEntryList` erases a node (`Ring.removeEntryList`), `InsertTailList` and `InsertHeadList` link
a new node just before and just after a node of the ring (`Ring.insertTailList`,
`Ring.insertHeadList`). A ring depends only on the cyclic order of its list (`Ring.isRotated`), so
each primitive is first proved with the node it acts on rotated to the front.
-/

namespace LazyWriter
namespace Links

/-- `L` links the nodes of `l` in order: the `Flink` of each node is the next one, whose `Blink`
points back. -/
def Chain (L : Links) : List Nat → Prop
  | a :: b :: t => L.flink a = b ∧ L.blink b = a ∧ L.Chain (b :: t)
  | _ => True

/-- `L` links exactly the cyclic list `l`. -/
def Ring (L : Links) : List Nat → Prop
  | [] => False
  | a :: t => L.Chain (a :: t ++ [a])

@[simp] lemma chain_nil (L : Links) : L.Chain [] := trivial

@[simp] lemma chain_singleton (L : Links) (a : Nat) : L.Chain [a] := trivial

@[simp] lemma chain_cons_cons (L : Links) (a b : Nat) (t : List Nat) :
    L.Chain (a :: b :: t) ↔ L.flink a = b ∧ L.blink b = a ∧ L.Chain (b :: t) := Iff.rfl

lemma ring_cons (L : Links) (a : Nat) (t : List Nat) : L.Ring (a :: t) ↔ L.Chain (a :: t ++ [a]) :=
  Iff.rfl

instance decidableChain (L : Links) : (l : List Nat) → Decidable (L.Chain l)
  | [] => isTrue trivial
  | [_] => isTrue trivial
  | a :: b :: t =>
    have := decidableChain L (b :: t)
    inferInstanceAs (Decidable (L.flink a = b ∧ L.blink b = a ∧ L.Chain (b :: t)))

instance decidableRing (L : Links) : (l : List Nat) → Decidable (L.Ring l)
  | [] => isFalse id
  | a :: t => inferInstanceAs (Decidable (L.Chain (a :: t ++ [a])))

/-- A chain splits at any of its nodes. -/
lemma chain_append_cons (L : Links) (xs ys : List Nat) (a : Nat) :
    L.Chain (xs ++ a :: ys) ↔ L.Chain (xs ++ [a]) ∧ L.Chain (a :: ys) := by
  induction xs with
  | nil => simp
  | cons x xs ih =>
    cases xs with
    | nil => simp [and_assoc]
    | cons y xs =>
      simp only [List.cons_append, chain_cons_cons] at ih ⊢
      rw [ih]
      tauto

lemma Chain.of_append {L : Links} {l m : List Nat} (h : L.Chain (l ++ m)) : L.Chain l := by
  induction l with
  | nil => trivial
  | cons a t ih =>
    cases t with
    | nil => trivial
    | cons b t => exact ⟨h.1, h.2.1, ih h.2.2⟩

/-- A chain keeps holding when the links change only away from its pairs. -/
lemma Chain.congr {L L' : Links} {l : List Nat} (h : L.Chain l)
    (hf : ∀ x ∈ l.dropLast, L'.flink x = L.flink x) (hb : ∀ x ∈ l.tail, L'.blink x = L.blink x) :
    L'.Chain l := by
  induction l with
  | nil => trivial
  | cons a t ih =>
    cases t with
    | nil => trivial
    | cons b t =>
      obtain ⟨h1, h2, h3⟩ := h
      refine ⟨(hf a (by simp)).trans h1, (hb b (by simp)).trans h2, ih h3 ?_ ?_⟩
      · intro x hx
        exact hf x (by rw [List.dropLast_cons₂]; exact List.mem_cons_of_mem _ hx)
      · intro x hx
        exact hb x (List.mem_of_mem_tail hx)

/-- Every nonempty list ends in some node. -/
lemma exists_concat (l : List Nat) (h : l ≠ []) : ∃ xs z, l = xs ++ [z] := by
  obtain ⟨xs, z, e⟩ := l.eq_nil_or_concat.resolve_left h
  exact ⟨xs, z, by simpa using e⟩

/-- Rotating a ring by one node gives the same ring. -/
lemma Ring.rotate_one {L : Links} {a : Nat} {t : List Nat} (h : L.Ring (a :: t)) :
    L.Ring (t ++ [a]) := by
  cases t with
  | nil => exact h
  | cons b t =>
    obtain ⟨h1, h2, h3⟩ := h
    show L.Chain ((b :: (t ++ [a])) ++ [b])
    rw [show (b :: (t ++ [a])) ++ [b] = (b :: t) ++ a :: [b] by simp, chain_append_cons]
    exact ⟨h3, by simp [h1, h2]⟩

lemma Ring.rotate {L : Links} {l : List Nat} (h : L.Ring l) (n : Nat) : L.Ring (l.rotate n) := by
  induction n generalizing l with
  | zero => simpa using h
  | succ n ih =>
    cases l with
    | nil => exact h.elim
    | cons a t => rw [List.rotate_cons_succ]; exact ih h.rotate_one

/-- A ring depends only on the cyclic order of its nodes. -/
lemma Ring.isRotated {L : Links} {l l' : List Nat} (h : L.Ring l) (hr : l.IsRotated l') :
    L.Ring l' := by
  obtain ⟨n, rfl⟩ := hr
  exact h.rotate n

/-- The `Flink` of the first node of a ring is the second node. -/
lemma Ring.flink_head {L : Links} {a b : Nat} {t : List Nat} (h : L.Ring (a :: b :: t)) :
    L.flink a = b := h.1

/-- The `Flink` of a node alone in its ring is the node itself. -/
lemma Ring.flink_singleton {L : Links} {a : Nat} (h : L.Ring [a]) : L.flink a = a := h.1

/-- In a ring written `a :: xs ++ [z]`, the last node `z` and the first node `a` are linked. -/
lemma Ring.last_link {L : Links} {a z : Nat} {xs : List Nat} (h : L.Ring (a :: (xs ++ [z]))) :
    L.flink z = a ∧ L.blink a = z := by
  have h' : L.Chain ((a :: xs) ++ z :: [a]) := by
    rw [show (a :: xs) ++ z :: [a] = (a :: (xs ++ [z])) ++ [a] by simp]
    exact h
  rw [chain_append_cons] at h'
  exact ⟨h'.2.1, h'.2.2.1⟩

/-- Every node of a list starts one of its rotations. -/
lemma exists_isRotated_cons {l : List Nat} {x : Nat} (hx : x ∈ l) : ∃ t, l.IsRotated (x :: t) := by
  obtain ⟨a, b, rfl⟩ := List.append_of_mem hx
  exact ⟨b ++ a, a.length, by rw [List.rotate_append_length_eq]; simp⟩

/-- The `Flink` of a node of a ring is a node of the ring. -/
lemma Ring.flink_mem {L : Links} {l : List Nat} {x : Nat} (h : L.Ring l) (hx : x ∈ l) :
    L.flink x ∈ l := by
  obtain ⟨t, hrot⟩ := exists_isRotated_cons hx
  have hr := h.isRotated hrot
  refine hrot.mem_iff.2 ?_
  cases t with
  | nil => rw [hr.flink_singleton]; exact List.mem_singleton_self _
  | cons y t => rw [hr.flink_head]; exact List.mem_cons_of_mem _ (List.mem_cons_self _ _)

/-- A set of nodes closed under `Flink` that holds the first node of a chain holds all of it. -/
lemma Chain.mem_of_closed {L : Links} {P : Nat → Prop} (hP : ∀ x, P x → P (L.flink x))
    {a : Nat} {t : List Nat} (h : L.Chain (a :: t)) (ha : P a) : ∀ x ∈ a :: t, P x := by
  induction t generalizing a with
  | nil => simpa using ha
  | cons b t ih =>
    obtain ⟨hab, -, h⟩ := h
    intro x hx
    rcases List.mem_cons.1 hx with rfl | hx
    · exact ha
    · exact ih h (hab ▸ hP a ha) x hx

/-- Two rings of the same links through a common node have the same nodes: a ring holds exactly
the nodes that `Flink` reaches from any one of them. -/
lemma Ring.mem_iff {L : Links} {l l' : List Nat} {y : Nat} (h : L.Ring l) (h' : L.Ring l')
    (hy : y ∈ l) (hy' : y ∈ l') (x : Nat) : x ∈ l ↔ x ∈ l' := by
  have sub : ∀ {l l' : List Nat}, L.Ring l → L.Ring l' → y ∈ l → y ∈ l' → x ∈ l → x ∈ l' := by
    intro l l' h h' hy hy' hx
    obtain ⟨t, hrot⟩ := exists_isRotated_cons hy
    exact Chain.mem_of_closed (P := (· ∈ l')) (fun _ => h'.flink_mem) ((ring_cons _ _ _).1
      (h.isRotated hrot)) hy' x (List.mem_append_left _ (hrot.mem_iff.1 hx))
  exact ⟨sub h h' hy hy', sub h' h hy' hy⟩

/-- `RemoveEntryList` of the first node of a ring of two or more nodes leaves the ring of the
other nodes. -/
lemma Ring.removeEntryList_head {L : Links} {e b : Nat} {r : List Nat} (h : L.Ring (e :: b :: r))
    (hd : (e :: b :: r).Nodup) : (L.removeEntryList e).Ring (b :: r) := by
  obtain ⟨xs, z, hxz⟩ := exists_concat (b :: r) (List.cons_ne_nil _ _)
  have hfe : L.flink e = b := h.flink_head
  have hbe : L.blink e = z := (Ring.last_link (by rw [← hxz]; exact h)).2
  have hc : L.Chain (b :: r) := Chain.of_append (l := b :: r) (m := [e]) h.2.2
  have hxs : z ∉ xs := by
    have hnd : (xs ++ [z]).Nodup := hxz ▸ hd.of_cons
    simpa using (List.nodup_append.1 hnd).2.2
  show Chain _ ((b :: r) ++ [b])
  rw [hxz, List.append_assoc, List.singleton_append, chain_append_cons]
  refine ⟨?_, by simp [removeEntryList, hfe, hbe]⟩
  rw [← hxz]
  refine hc.congr (fun x hx => ?_) (fun x hx => ?_)
  · have hxz' : x ≠ z := by
      rw [hxz, List.dropLast_concat] at hx
      exact fun e => hxs (e ▸ hx)
    simp [removeEntryList, hbe, hxz']
  · have hxb : x ≠ b := by
      rintro rfl
      exact (List.nodup_cons.1 hd.of_cons).1 hx
    simp [removeEntryList, hfe, hxb]

/-- `InsertTailList` on the first node of a ring links the new node at the end of the ring. -/
lemma Ring.insertTailList_head {L : Links} {h x : Nat} {t : List Nat} (hr : L.Ring (h :: t))
    (hd : (h :: t).Nodup) (hx : x ∉ h :: t) : (L.insertTailList h x).Ring (h :: (t ++ [x])) := by
  obtain ⟨xs, z, hxz⟩ := exists_concat (h :: t) (List.cons_ne_nil _ _)
  have hc : L.Chain (h :: t) := Chain.of_append (m := [h]) hr
  have hbh : L.blink h = z := by
    have h' : L.Chain (xs ++ z :: [h]) := by
      rw [← List.singleton_append, ← List.append_assoc, ← hxz]; exact hr
    rw [chain_append_cons] at h'
    exact h'.2.2.1
  have hxs : z ∉ xs := by
    have hnd : (xs ++ [z]).Nodup := hxz ▸ hd
    simpa using (List.nodup_append.1 hnd).2.2
  have hxz' : x ≠ z := fun e => hx (by rw [hxz]; simp [e])
  have hxh : x ≠ h := fun e => hx (by simp [e])
  show Chain _ ((h :: (t ++ [x])) ++ [h])
  rw [show (h :: (t ++ [x])) ++ [h] = xs ++ z :: [x, h] by rw [← List.cons_append, hxz]; simp,
    chain_append_cons]
  refine ⟨?_, by simp [insertTailList, hbh, hxz', hxh, Ne.symm hxz', Ne.symm hxh]⟩
  rw [← hxz]
  refine hc.congr (fun y hy => ?_) (fun y hy => ?_)
  · have hyz : y ≠ z := by
      rw [hxz, List.dropLast_concat] at hy
      exact fun e => hxs (e ▸ hy)
    have hyx : y ≠ x := fun e => hx (e ▸ List.mem_of_mem_dropLast hy)
    simp [insertTailList, hbh, hyz, hyx]
  · have hyh : y ≠ h := by
      rintro rfl
      exact (List.nodup_cons.1 hd).1 hy
    have hyx : y ≠ x := fun e => hx (e ▸ List.mem_cons_of_mem _ hy)
    simp [insertTailList, hyh, hyx]

/-- `InsertHeadList` on the first node of a ring links the new node right after it. -/
lemma Ring.insertHeadList_head {L : Links} {h x : Nat} {t : List Nat} (hr : L.Ring (h :: t))
    (hd : (h :: t).Nodup) (hx : x ∉ h :: t) : (L.insertHeadList h x).Ring (h :: x :: t) := by
  have hxh : x ≠ h := fun e => hx (by simp [e])
  cases t with
  | nil =>
    have hfh : L.flink h = h := hr.flink_singleton
    show Chain _ [h, x, h]
    simp [insertHeadList, hfh, hxh, Ne.symm hxh]
  | cons b r =>
    obtain ⟨hfh, -, hc⟩ : L.flink h = b ∧ L.blink b = h ∧ L.Chain ((b :: r) ++ [h]) := hr
    have hxb : x ≠ b := fun e => hx (by simp [e])
    have hbr : b ∉ r := (List.nodup_cons.1 hd.of_cons).1
    have hbh : b ≠ h := fun e => (List.nodup_cons.1 hd).1 (by simp [e])
    show Chain _ (h :: x :: b :: (r ++ [h]))
    simp only [chain_cons_cons]
    refine ⟨by simp [insertHeadList], by simp [insertHeadList, hfh, hxb], by
      simp [insertHeadList, hfh, hxh], by simp [insertHeadList, hfh], ?_⟩
    refine hc.congr (fun y hy => ?_) (fun y hy => ?_)
    · have hy' : y ∈ b :: r := by
        rwa [List.dropLast_concat] at hy
      have hyh : y ≠ h := fun e => (List.nodup_cons.1 hd).1 (e ▸ hy')
      have hyx : y ≠ x := fun e => hx (e ▸ List.mem_cons_of_mem _ hy')
      simp [insertHeadList, hyh, hyx]
    · have hy' : y ∈ r ∨ y = h := by simpa using hy
      have hyb : y ≠ b := by
        rintro rfl
        exact hy'.elim hbr hbh
      have hyx : y ≠ x := by
        rintro rfl
        exact hy'.elim (fun e => hx (by simp [e])) hxh
      simp [insertHeadList, hfh, hyb, hyx]

/-- `RemoveEntryList` of any node of a ring of two or more nodes leaves the ring of the others. -/
lemma Ring.removeEntryList {L : Links} {l : List Nat} {y : Nat} (h : L.Ring l) (hd : l.Nodup)
    (hy : y ∈ l) (hl : l ≠ [y]) : (L.removeEntryList y).Ring (l.erase y) := by
  obtain ⟨a, b, rfl⟩ := List.append_of_mem hy
  have hya : y ∉ a := fun hm => List.disjoint_of_nodup_append hd hm (List.mem_cons_self _ _)
  have hrot : (a ++ y :: b).IsRotated (y :: (b ++ a)) :=
    ⟨a.length, by rw [List.rotate_append_length_eq]; simp⟩
  have hd' : (y :: (b ++ a)).Nodup := hrot.nodup_iff.1 hd
  rw [List.erase_append_right _ hya, List.erase_cons_head]
  obtain ⟨c, r, hcr⟩ : ∃ c r, b ++ a = c :: r := by
    cases hba : b ++ a with
    | nil => simp_all
    | cons c r => exact ⟨c, r, rfl⟩
  rw [hcr] at hd'
  have h' := Ring.removeEntryList_head (hcr ▸ h.isRotated hrot) hd'
  exact h'.isRotated (hcr ▸ List.isRotated_append)

/-- `InsertTailList (n, x)` links `x` just before `n`. -/
lemma Ring.insertTailList {L : Links} {a b : List Nat} {n x : Nat} (h : L.Ring (a ++ n :: b))
    (hd : (a ++ n :: b).Nodup) (hx : x ∉ a ++ n :: b) :
    (L.insertTailList n x).Ring (a ++ x :: n :: b) := by
  have hrot : (a ++ n :: b).IsRotated (n :: (b ++ a)) :=
    ⟨a.length, by rw [List.rotate_append_length_eq]; simp⟩
  have h' := Ring.insertTailList_head (h.isRotated hrot) (hrot.nodup_iff.1 hd)
    (fun hm => hx (hrot.mem_iff.2 hm))
  refine h'.isRotated ⟨(n :: b).length, ?_⟩
  rw [show n :: (b ++ a ++ [x]) = (n :: b) ++ (a ++ [x]) by simp, List.rotate_append_length_eq]
  simp

/-- `InsertHeadList (n, x)` links `x` just after `n`. -/
lemma Ring.insertHeadList {L : Links} {a b : List Nat} {n x : Nat} (h : L.Ring (a ++ n :: b))
    (hd : (a ++ n :: b).Nodup) (hx : x ∉ a ++ n :: b) :
    (L.insertHeadList n x).Ring (a ++ n :: x :: b) := by
  have hrot : (a ++ n :: b).IsRotated (n :: (b ++ a)) :=
    ⟨a.length, by rw [List.rotate_append_length_eq]; simp⟩
  have h' := Ring.insertHeadList_head (h.isRotated hrot) (hrot.nodup_iff.1 hd)
    (fun hm => hx (hrot.mem_iff.2 hm))
  refine h'.isRotated ⟨(n :: x :: b).length, ?_⟩
  rw [show n :: x :: (b ++ a) = (n :: x :: b) ++ a by simp, List.rotate_append_length_eq]

/-- Splicing node `c` out and back in just before the first node `s` of a ring: the scan's
`RemoveEntryList` of the cursor followed by `InsertTailList` on the current stream. -/
lemma Ring.moveBefore {L : Links} {s c : Nat} {rest : List Nat} (h : L.Ring (s :: rest))
    (hd : (s :: rest).Nodup) (hc : c ∈ rest) :
    ((L.removeEntryList c).insertTailList s c).Ring (s :: (rest.erase c ++ [c])) := by
  have hcs : c ≠ s := fun e => (List.nodup_cons.1 hd).1 (e ▸ hc)
  have he : (s :: rest).erase c = s :: rest.erase c :=
    List.erase_cons_tail (by simpa using Ne.symm hcs)
  have h1 := h.removeEntryList hd (List.mem_cons_of_mem _ hc)
    (fun e => hcs (List.cons.inj e).1.symm)
  rw [he] at h1
  exact h1.insertTailList_head (he ▸ hd.erase c) (he ▸ hd.not_mem_erase)

/-- Splicing node `c` out and back in just after the first node `s` of a ring: the scan's
`RemoveEntryList` of the cursor followed by `InsertHeadList` on the current stream. -/
lemma Ring.moveAfter {L : Links} {s c : Nat} {rest : List Nat} (h : L.Ring (s :: rest))
    (hd : (s :: rest).Nodup) (hc : c ∈ rest) :
    ((L.removeEntryList c).insertHeadList s c).Ring (s :: c :: rest.erase c) := by
  have hcs : c ≠ s := fun e => (List.nodup_cons.1 hd).1 (e ▸ hc)
  have he : (s :: rest).erase c = s :: rest.erase c :=
    List.erase_cons_tail (by simpa using Ne.symm hcs)
  have h1 := h.removeEntryList hd (List.mem_cons_of_mem _ hc)
    (fun e => hcs (List.cons.inj e).1.symm)
  rw [he] at h1
  exact h1.insertHeadList_head (he ▸ hd.erase c) (he ▸ hd.not_mem_erase)

end Links
end LazyWriter
