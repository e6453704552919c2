import Mathlib.Data.List.Sort

/-! Where a stable sort puts an element: behind everything that sorts strictly before it
and behind what sorts equal and stood before it. And how the counts of a list's prefixes
tell places in it apart. -/

namespace StableSort

section Counting

variable {α : Type*} (p : α → Bool) {l : List α}

theorem countP_take_mono (l : List α) {i j : ℕ} (h : i ≤ j) : (l.take i).countP p ≤ (l.take j).countP p :=
  (List.take_sublist_take_left h).countP_le

theorem countP_take_succ {i : ℕ} {a : α} (ha : l[i]? = some a) (hp : p a = true) :
    (l.take (i + 1)).countP p = (l.take i).countP p + 1 := by
  rw [List.take_add_one, ha, Option.toList_some, List.countP_append, List.countP_singleton, if_pos hp]

/-- A counted place is after another exactly if more is counted before it. -/
theorem lt_iff_countP_take_le {i j : ℕ} {a b : α} (ha : l[i]? = some a) (hpa : p a = true) (hb : l[j]? = some b)
    (hpb : p b = false) : j < i ↔ (l.take j).countP p ≤ (l.take i).countP p := by
  refine ⟨fun h => countP_take_mono p l h.le, fun h => ?_⟩
  by_contra hle
  rcases Nat.eq_or_lt_of_le (Nat.le_of_not_lt hle) with rfl | hlt
  · rw [ha, Option.some.injEq] at hb
    rw [hb, hpb] at hpa
    cases hpa
  · have hmore := countP_take_mono p l (Nat.succ_le_of_lt hlt)
    rw [Nat.succ_eq_add_one, countP_take_succ p ha hpa] at hmore
    omega

theorem countP_take_lt {i j k : ℕ} {a : α} (ha : l[k]? = some a) (hp : p a = true) (hi : i ≤ k) (hj : k < j) :
    (l.take i).countP p < (l.take j).countP p := by
  calc (l.take i).countP p ≤ (l.take k).countP p := countP_take_mono p l hi
    _ < (l.take (k + 1)).countP p := by rw [countP_take_succ p ha hp]; exact Nat.lt_succ_self _
    _ ≤ (l.take j).countP p := countP_take_mono p l hj

theorem countP_take_eq_of_forall {i j : ℕ} (hij : i ≤ j) (h : ∀ k a, l[k]? = some a → p a = true → ¬(i ≤ k ∧ k < j)) :
    (l.take i).countP p = (l.take j).countP p := by
  induction j, hij using Nat.le_induction with
  | base => rfl
  | succ j hij ih =>
    rw [ih fun k a ha hp hk => h k a ha hp ⟨hk.1, Nat.lt_succ_of_lt hk.2⟩, List.take_add_one, List.countP_append]
    cases ha : l[j]? with
    | none => rfl
    | some a =>
      have hp : p a ≠ true := fun hp => h j a ha hp ⟨hij, Nat.lt_succ_self j⟩
      simp [hp]

/-- Two prefixes count the same exactly if nothing counted stands between their ends. -/
theorem countP_take_eq_iff {i j : ℕ} :
    (l.take i).countP p = (l.take j).countP p ↔ ∀ k a, l[k]? = some a → p a = true → (k < i ↔ k < j) := by
  constructor
  · intro heq k a ha hp
    constructor
    · intro hi
      by_contra hj
      have hlt := countP_take_lt p ha hp (Nat.le_of_not_lt hj) hi
      omega
    · intro hj
      by_contra hi
      have hlt := countP_take_lt p ha hp (Nat.le_of_not_lt hi) hj
      omega
  · intro h
    rcases Nat.le_total i j with hij | hji
    · exact countP_take_eq_of_forall p hij fun k a ha hp hk => absurd ((h k a ha hp).2 hk.2) (by omega)
    · exact (countP_take_eq_of_forall p hji fun k a ha hp hk => absurd ((h k a ha hp).1 hk.2) (by omega)).symm

/-- The place of the counted element with so many before it. -/
theorem exists_countP_take {n : ℕ} (h : n < l.countP p) :
    ∃ i a, l[i]? = some a ∧ p a = true ∧ (l.take i).countP p = n := by
  induction l generalizing n with
  | nil => cases h
  | cons b l ih =>
    by_cases hb : p b = true
    · cases n with
      | zero => exact ⟨0, b, rfl, hb, rfl⟩
      | succ n =>
        rw [List.countP_cons_of_pos hb] at h
        obtain ⟨i, a, ha, hp, hcount⟩ := ih (Nat.lt_of_succ_lt_succ h)
        exact ⟨i + 1, a, ha, hp, by rw [List.take_succ_cons, List.countP_cons_of_pos hb, hcount]⟩
    · rw [List.countP_cons_of_neg hb] at h
      obtain ⟨i, a, ha, hp, hcount⟩ := ih h
      exact ⟨i + 1, a, ha, hp, by rw [List.take_succ_cons, List.countP_cons_of_neg hb, hcount]⟩

end Counting

section Sorting

variable {α : Type*} (r : α → α → Prop) [DecidableRel r]

/-- What may stand before an element is inserted before it. -/
theorem orderedInsert_append_of_rel {a b : α} (h : r b a) (xs ys : List α) :
    (xs ++ a :: ys).orderedInsert r b = xs.orderedInsert r b ++ a :: ys := by
  induction xs with
  | nil => simp [h]
  | cons x xs ih =>
    by_cases hx : r b x
    · simp [hx]
    · simp [hx, ih]

theorem orderedInsert_append_of_forall_not {b : α} {xs : List α} (h : ∀ x ∈ xs, ¬r b x) (ys : List α) :
    (xs ++ ys).orderedInsert r b = xs ++ ys.orderedInsert r b := by
  induction xs with
  | nil => rfl
  | cons x xs ih =>
    have hx := h x List.mem_cons_self
    rw [List.cons_append, List.orderedInsert_of_not_le r _ hx, ih fun y hy => h y (List.mem_cons_of_mem x hy)]
    rfl

variable [IsTrans α r]

/-- In a sorted list an element goes behind those that may not follow it. -/
theorem orderedInsert_split (a : α) {l : List α} (hsorted : l.Pairwise r) :
    ∃ xs ys, l.orderedInsert r a = xs ++ a :: ys ∧ l = xs ++ ys ∧ xs.length = l.countP fun b => ¬r a b := by
  induction l with
  | nil => exact ⟨[], [], rfl, rfl, rfl⟩
  | cons x l ih =>
    rw [List.pairwise_cons] at hsorted
    by_cases hx : r a x
    · refine ⟨[], x :: l, by simp [hx], rfl, ?_⟩
      have hall : ∀ b ∈ x :: l, r a b := by
        intro b hb
        rcases List.mem_cons.1 hb with rfl | hb
        · exact hx
        · exact IsTrans.trans _ _ _ hx (hsorted.1 b hb)
      rw [List.length_nil, eq_comm, List.countP_eq_zero]
      simpa using hall
    · obtain ⟨xs, ys, hinsert, hl, hlength⟩ := ih hsorted.2
      refine ⟨x :: xs, ys, ?_, by rw [hl, List.cons_append], ?_⟩
      · rw [List.orderedInsert_of_not_le r _ hx, hinsert, List.cons_append]
      · rw [List.length_cons, hlength, List.countP_cons_of_pos (by simpa using hx)]

variable [Std.Total r]

/-- The place of an element in the sorted list, and what stands around it. -/
theorem insertionSort_split (before : List α) (a : α) (after : List α) :
    ∃ xs ys, (before ++ a :: after).insertionSort r = xs ++ a :: ys ∧ (xs ++ ys).Perm (before ++ after) ∧
      xs.length = before.countP (fun b => r b a) + after.countP fun b => ¬r a b := by
  induction before with
  | nil =>
    obtain ⟨xs, ys, hinsert, hsplit, hlength⟩ := orderedInsert_split r a (List.pairwise_insertionSort r after)
    have hperm := List.perm_insertionSort r after
    refine ⟨xs, ys, hinsert, hsplit ▸ hperm, ?_⟩
    rw [hlength, hperm.countP_eq, List.countP_nil, Nat.zero_add]
  | cons b before ih =>
    obtain ⟨xs, ys, hsort, hperm, hlength⟩ := ih
    rw [List.cons_append, List.insertionSort_cons, hsort]
    by_cases hb : r b a
    · refine ⟨xs.orderedInsert r b, ys, orderedInsert_append_of_rel r hb xs ys, ?_, ?_⟩
      · exact ((List.perm_orderedInsert r b xs).append_right ys).trans (hperm.cons b)
      · rw [List.orderedInsert_length, hlength, List.countP_cons_of_pos (by simpa using hb)]
        omega
    · -- everything up to the element is at or before it, so `b` passes all of it
      have hsorted := hsort ▸ List.pairwise_insertionSort r (before ++ a :: after)
      have hpass : ∀ x ∈ xs ++ [a], ¬r b x := by
        intro x hx hbx
        rcases List.mem_append.1 hx with hx | hx
        · exact hb (IsTrans.trans _ _ _ hbx ((List.pairwise_append.1 hsorted).2.2 x hx a List.mem_cons_self))
        · exact hb (List.mem_singleton.1 hx ▸ hbx)
      refine ⟨xs, ys.orderedInsert r b, ?_, ?_, ?_⟩
      · have hinsert := orderedInsert_append_of_forall_not r hpass ys
        rwa [List.append_assoc, List.append_assoc] at hinsert
      · exact ((List.perm_orderedInsert r b ys).append_left xs).trans (List.perm_middle.trans (hperm.cons b))
      · rw [hlength, List.countP_cons_of_neg (by simpa using hb)]

omit [IsTrans α r] [Std.Total r] in
/-- Elements that are all related keep their order. -/
theorem filter_insertionSort {p : α → Bool} (h : ∀ a b, p a = true → p b = true → r a b) (l : List α) :
    (l.insertionSort r).filter p = l.filter p := by
  have hrelated : (l.filter p).Pairwise r :=
    List.pairwise_of_forall_mem_list fun a ha b hb => h a b (List.mem_filter.1 ha).2 (List.mem_filter.1 hb).2
  have hsub := (List.sublist_insertionSort hrelated List.filter_sublist).filter p
  rw [List.filter_filter] at hsub
  simp only [Bool.and_self] at hsub
  exact (hsub.eq_of_length ((List.perm_insertionSort r l).symm.filter p).length_eq).symm

end Sorting

section Slots

variable {α : Type*} (slot : α → Bool)

/-- Every slot of a list takes the next of `fills`; everything else stays. -/
def fill : List α → List α → List α
  | _, [] => []
  | fills, a :: l => if slot a then fills.take 1 ++ fill (fills.drop 1) l else a :: fill fills l

variable {slot} {fills l : List α}

theorem fill_cons_slot {a : α} (ha : slot a = true) (f : α) (fills l : List α) :
    fill slot (f :: fills) (a :: l) = f :: fill slot fills l := by
  rw [fill, if_pos ha]
  rfl

theorem fill_cons_other {a : α} (ha : slot a = false) (fills l : List α) :
    fill slot fills (a :: l) = a :: fill slot fills l := by
  rw [fill, if_neg (by simp [ha])]

/-- The slots of the result are the fills. -/
theorem fill_filter (hlength : fills.length = l.countP slot) (hfills : ∀ a ∈ fills, slot a = true) :
    (fill slot fills l).filter slot = fills := by
  induction l generalizing fills with
  | nil =>
    rw [List.eq_nil_of_length_eq_zero hlength]
    rfl
  | cons a l ih =>
    by_cases ha : slot a = true
    · rw [List.countP_cons_of_pos ha] at hlength
      obtain ⟨f, fills, rfl⟩ := List.exists_cons_of_length_eq_add_one hlength
      rw [fill_cons_slot ha, List.filter_cons_of_pos (hfills f List.mem_cons_self),
        ih (Nat.succ.inj hlength) fun b hb => hfills b (List.mem_cons_of_mem _ hb)]
    · rw [List.countP_cons_of_neg ha] at hlength
      rw [fill_cons_other (by simpa using ha), List.filter_cons_of_neg ha, ih hlength hfills]

/-- And the rest is the rest. -/
theorem fill_filter_not (hfills : ∀ a ∈ fills, slot a = true) :
    (fill slot fills l).filter (fun a => !slot a) = l.filter fun a => !slot a := by
  induction l generalizing fills with
  | nil => rfl
  | cons a l ih =>
    by_cases ha : slot a = true
    · rw [fill, if_pos ha, List.filter_append, ih fun b hb => hfills b (List.mem_of_mem_drop hb),
        List.filter_cons_of_neg (by simp [ha]), List.filter_eq_nil_iff.2, List.nil_append]
      intro b hb
      simp [hfills b (List.mem_of_mem_take hb)]
    · have hother : slot a = false := by simpa using ha
      rw [fill_cons_other hother, List.filter_cons_of_pos (by simp [hother]), List.filter_cons_of_pos (by simp [hother]),
        ih hfills]

theorem fill_perm (hperm : fills.Perm (l.filter slot)) : (fill slot fills l).Perm l := by
  have hfills : ∀ a ∈ fills, slot a = true := fun a ha => (List.mem_filter.1 (hperm.mem_iff.1 ha)).2
  have hlength : fills.length = l.countP slot := by rw [hperm.length_eq, List.countP_eq_length_filter]
  refine (List.filter_append_perm slot (fill slot fills l)).symm.trans ?_
  rw [fill_filter hlength hfills, fill_filter_not hfills]
  exact (hperm.append_right _).trans (List.filter_append_perm slot l)

/-- Every place keeps its kind, and all but the slots their value. -/
theorem fill_getElem? (hlength : fills.length = l.countP slot) (hfills : ∀ a ∈ fills, slot a = true) {i : ℕ} {a : α}
    (ha : l[i]? = some a) :
    ∃ b, (fill slot fills l)[i]? = some b ∧ slot b = slot a ∧ (slot a = false → b = a) := by
  induction l generalizing fills i with
  | nil => cases ha
  | cons c l ih =>
    by_cases hc : slot c = true
    · rw [List.countP_cons_of_pos hc] at hlength
      obtain ⟨f, fills, rfl⟩ := List.exists_cons_of_length_eq_add_one hlength
      rw [fill_cons_slot hc]
      cases i with
      | zero =>
        obtain rfl : c = a := by simpa using ha
        exact ⟨f, rfl, (hfills f List.mem_cons_self).trans hc.symm, fun hother => absurd hc (by simp [hother])⟩
      | succ i => exact ih (Nat.succ.inj hlength) (fun b hb => hfills b (List.mem_cons_of_mem _ hb)) ha
    · rw [List.countP_cons_of_neg hc] at hlength
      rw [fill_cons_other (by simpa using hc)]
      cases i with
      | zero => exact ⟨c, rfl, by simp_all, fun _ => by simp_all⟩
      | succ i => exact ih hlength hfills ha

theorem fill_self (l : List α) : fill slot (l.filter slot) l = l := by
  induction l with
  | nil => rfl
  | cons a l ih =>
    by_cases ha : slot a = true
    · rw [List.filter_cons_of_pos ha, fill_cons_slot ha, ih]
    · rw [List.filter_cons_of_neg ha, fill_cons_other (by simpa using ha), ih]

end Slots

end StableSort
