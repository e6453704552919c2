import CryptoTrader.Spec.PriceTime

/-! The depth window of a price-time book: the levels in order, truncation as taking
the first of them, and when two books have the same window. -/

namespace CryptoTrader.PriceTime

variable {L L' : List Order} {s : Side} {p : Price}

instance (s : Side) : Std.Total fun a b : Price => ¬ s.better b a := ⟨fun a b => by
  by_cases h : s.better b a
  · exact Or.inr (asymm_of s.better h)
  · exact Or.inl h⟩

instance (s : Side) : IsTrans Price fun a b => ¬ s.better b a := ⟨fun a b c hab hbc => by
  intro hca
  rcases trichotomous_of s.better a b with h | h | h
  · exact hbc (trans_of s.better hca h)
  · exact hbc (h ▸ hca)
  · exact hab h⟩

theorem levelPrices_perm (L : List Order) (s : Side) : (levelPrices L s).Perm (prices L s) :=
  List.perm_insertionSort _ _

theorem levelPrices_pairwise (L : List Order) (s : Side) : (levelPrices L s).Pairwise s.better := by
  have hle : (levelPrices L s).Pairwise fun a b => ¬ s.better b a := List.pairwise_insertionSort _ _
  have hne : (levelPrices L s).Nodup := (levelPrices_perm L s).nodup_iff.2 (prices_nodup _ _)
  refine (hle.and hne).imp fun {a b} h => ?_
  rcases trichotomous_of s.better a b with hab | hab | hab
  · exact hab
  · exact absurd hab h.2
  · exact absurd hab h.1

theorem eq_levelPrices {ps : List Price} (hps : ps.Pairwise s.better) (hperm : ps.Perm (prices L s)) :
    ps = levelPrices L s := by
  refine List.Perm.eq_of_pairwise ?_ hps (levelPrices_pairwise L s) (hperm.trans (levelPrices_perm L s).symm)
  intro a b _ _ hab hba
  exact absurd hba (asymm_of s.better hab)

theorem mem_take_levelPrices {d : ℕ} :
    p ∈ (levelPrices L s).take d ↔ p ∈ prices L s ∧ rank L s p < d := by
  rw [OrdMap.mem_take_sorted (levelPrices_pairwise L s), (levelPrices_perm L s).mem_iff,
    ((levelPrices_perm L s).filter _).length_eq]
  rfl

theorem level_truncate (depth : Option ℕ) (s : Side) (p : Price) :
    level (truncate depth L) s p = if InWindow depth L s p then level L s p else [] := by
  rw [level, truncate, List.filter_filter]
  split_ifs with h
  · refine List.filter_congr fun o _ => ?_
    by_cases ho : o.side = s ∧ o.price = p
    · obtain ⟨rfl, rfl⟩ := ho
      simpa using h
    · simp [ho]
  · refine List.filter_eq_nil_iff.2 fun o _ ho => ?_
    simp only [Bool.and_eq_true, decide_eq_true_eq] at ho
    obtain ⟨⟨rfl, rfl⟩, hin⟩ := ho
    exact h hin

theorem level_eq_nil : level L s p = [] ↔ p ∉ prices L s := by
  rw [← queue_eq_nil, queue, List.map_eq_nil_iff]

theorem mem_prices_truncate {depth : Option ℕ} :
    p ∈ prices (truncate depth L) s ↔ p ∈ prices L s ∧ InWindow depth L s p := by
  rw [← not_iff_not, ← level_eq_nil, level_truncate, not_and_or, ← level_eq_nil]
  split_ifs with h <;> simp [h]

theorem truncate_truncate (depth : Option ℕ) (L : List Order) : truncate depth (truncate depth L) = truncate depth L := by
  refine List.filter_eq_self.2 fun o ho => decide_eq_true fun d hd => ?_
  obtain ⟨-, hin⟩ := mem_truncate.1 ho
  exact lt_of_le_of_lt (rank_le_of_subset (fun a ha => (mem_truncate.1 ha).1) _ _) (hin d hd)

/-- A better price has a smaller rank or the same. -/
theorem rank_le_of_better {q : Price} (h : s.better q p) : rank L s q ≤ rank L s p := by
  refine (List.subperm_of_subset ((prices_nodup L s).filter _) fun a ha => ?_).length_le
  obtain ⟨ha, haq⟩ := List.mem_filter.1 ha
  exact List.mem_filter.2 ⟨ha, decide_eq_true (trans_of s.better (of_decide_eq_true haq) h)⟩

theorem rank_le_of_prices (h : prices L s ⊆ prices L' s) (p : Price) : rank L s p ≤ rank L' s p :=
  (List.subperm_of_subset ((prices_nodup L s).filter _) (List.filter_subset _ h)).length_le

/-- Both books have the same queues with the same orders. -/
def SameLevels (L L' : List Order) : Prop := ∀ s p, level L s p = level L' s p

theorem SameLevels.mem_iff (h : SameLevels L L') {o : Order} : o ∈ L ↔ o ∈ L' := by
  have ho (M : List Order) : o ∈ M ↔ o ∈ level M o.side o.price := by simp [mem_level]
  rw [ho L, ho L', h]

theorem SameLevels.prices_subset (h : SameLevels L L') (s : Side) : prices L s ⊆ prices L' s := by
  intro p hp
  by_contra hn
  exact level_eq_nil.1 ((h s p).trans (level_eq_nil.2 hn)) hp

theorem SameLevels.symm (h : SameLevels L L') : SameLevels L' L := fun s p => (h s p).symm

/-- If `L` has the levels of `E` inside the window of `E`, and otherwise only levels
that `E` has outside of it, then both have the same window: the `d` levels inside
rank before every other level of `L`. -/
theorem truncate_sameLevels {d : ℕ} {L E : List Order} (hsub : ∀ s, prices L s ⊆ prices E s)
    (hin : ∀ s p, p ∈ prices (truncate (some d) E) s → level L s p = level E s p) :
    SameLevels (truncate (some d) L) (truncate (some d) E) := by
  intro s p
  rw [level_truncate, level_truncate]
  by_cases hp : p ∈ prices L s
  · by_cases hwin : rank E s p < d
    · have hE : InWindow (some d) E s p := by rintro _ ⟨⟩; exact hwin
      have hL : InWindow (some d) L s p := by
        rintro _ ⟨⟩
        exact lt_of_le_of_lt (rank_le_of_prices (hsub s) p) hwin
      rw [if_pos hE, if_pos hL, hin s p (mem_prices_truncate.2 ⟨hsub s hp, hE⟩)]
    · -- the first `d` levels of `E` are levels of `L`, all better than `p`
      have hbetter : (levelPrices E s).take d ⊆ (prices L s).filter (s.better · p) := by
        intro q hq
        obtain ⟨hqE, hqd⟩ := mem_take_levelPrices.1 hq
        have hqw : q ∈ prices (truncate (some d) E) s :=
          mem_prices_truncate.2 ⟨hqE, by rintro _ ⟨⟩; exact hqd⟩
        have hqL : q ∈ prices L s := by
          by_contra hn
          exact level_eq_nil.1 ((hin s q hqw).symm.trans (level_eq_nil.2 hn)) hqE
        refine List.mem_filter.2 ⟨hqL, decide_eq_true ?_⟩
        rcases trichotomous_of s.better q p with h | h | h
        · exact h
        · exact absurd (h ▸ hqd) hwin
        · exact absurd (lt_of_le_of_lt (rank_le_of_better h) hqd) hwin
      have hlen : d ≤ (levelPrices E s).length := by
        have hle : rank E s p ≤ (prices E s).length := List.length_filter_le _ _
        rw [(levelPrices_perm E s).length_eq]
        omega
      have hnd : ((levelPrices E s).take d).Nodup :=
        ((levelPrices_perm E s).nodup_iff.2 (prices_nodup _ _)).sublist (List.take_sublist _ _)
      have hrank : d ≤ rank L s p := by
        have hle := (List.subperm_of_subset hnd hbetter).length_le
        rwa [List.length_take, Nat.min_eq_left hlen] at hle
      rw [if_neg fun h => Nat.not_lt.2 hrank (h d rfl), if_neg fun h => hwin (h d rfl)]
  · have hL : level L s p = [] := level_eq_nil.2 hp
    have hE : (if InWindow (some d) E s p then level E s p else []) = [] := by
      rw [← level_truncate, level_eq_nil]
      intro hw
      exact level_eq_nil.1 ((hin s p hw).symm.trans hL) (mem_prices_truncate.1 hw).1
    rw [hL, hE, ite_self]

theorem SameLevels.truncate (h : SameLevels L L') (d : ℕ) :
    SameLevels (truncate (some d) L) (PriceTime.truncate (some d) L') :=
  truncate_sameLevels h.prices_subset fun s p _ => h s p

theorem best_mem {e : BookEntry} (h : best L s = some e) : e.price ∈ prices L s := by
  unfold best at h
  obtain ⟨p, hp, rfl⟩ := Option.map_eq_some_iff.1 h
  exact List.mem_of_find?_eq_some hp

/-- Grouping a list by the keys it has keeps its elements. -/
theorem flatMap_filter_perm {α κ : Type} [DecidableEq κ] (f : α → κ) {ks : List κ} (hnd : ks.Nodup) (l : List α)
    (hl : ∀ a ∈ l, f a ∈ ks) : (ks.flatMap fun k => l.filter (f · = k)).Perm l := by
  induction ks generalizing l with
  | nil => rw [List.eq_nil_iff_forall_not_mem.2 fun a ha => List.not_mem_nil (hl a ha)]; rfl
  | cons k ks ih =>
    rw [List.nodup_cons] at hnd
    have hrest : (ks.flatMap fun k' => l.filter (f · = k')) =
        ks.flatMap fun k' => (l.filter fun a => !decide (f a = k)).filter (f · = k') := by
      refine List.flatMap_congr fun k' hk' => ?_
      rw [List.filter_filter]
      refine List.filter_congr fun a _ => ?_
      by_cases ha : f a = k'
      · have hne : k' ≠ k := fun h => hnd.1 (h ▸ hk')
        simp [ha, hne]
      · simp [ha]
    rw [List.flatMap_cons, hrest]
    refine ((ih hnd.2 _ fun a ha => ?_).append_left _).trans (List.filter_append_perm _ l)
    obtain ⟨hal, hak⟩ := List.mem_filter.1 ha
    exact (List.mem_cons.1 (hl a hal)).resolve_left (by simpa using hak)

theorem priority_perm (L : List Order) (s : Side) : (priority L s).Perm (L.filter (·.side = s)) := by
  have hlevel (p : Price) : level L s p = (L.filter (·.side = s)).filter (·.price = p) := by
    simp only [level, List.filter_filter, Bool.decide_and, Bool.and_comm]
  rw [priority, List.flatMap_congr fun p _ => hlevel p]
  refine flatMap_filter_perm Order.price ((levelPrices_perm L s).nodup_iff.2 (prices_nodup L s)) _ fun o ho => ?_
  obtain ⟨ho, hs⟩ := List.mem_filter.1 ho
  exact (levelPrices_perm L s).mem_iff.2 (mem_prices.2 ⟨o, ho, of_decide_eq_true hs, rfl⟩)

theorem filter_flatMap_level (L : List Order) (s : Side) (p : Price) {ps : List Price} (hnd : ps.Nodup) :
    (ps.flatMap (level L s)).filter (fun o => o.side = s ∧ o.price = p) = if p ∈ ps then level L s p else [] := by
  induction ps with
  | nil => rfl
  | cons q ps ih =>
    rw [List.nodup_cons] at hnd
    rw [List.flatMap_cons, List.filter_append, ih hnd.2]
    by_cases hq : q = p
    · subst hq
      rw [if_neg hnd.1, if_pos List.mem_cons_self, List.append_nil]
      exact List.filter_eq_self.2 fun o ho => decide_eq_true (mem_level.1 ho).2
    · have hnone : (level L s q).filter (fun o => o.side = s ∧ o.price = p) = [] := by
        refine List.filter_eq_nil_iff.2 fun o ho hp => hq ?_
        exact (mem_level.1 ho).2.2.symm.trans (of_decide_eq_true hp).2
      have hmem : p ∈ q :: ps ↔ p ∈ ps := by simp [Ne.symm hq]
      rw [hnone, List.nil_append]
      simp only [hmem]

theorem level_priority (L : List Order) (s : Side) (p : Price) :
    (priority L s).filter (fun o => o.side = s ∧ o.price = p) = level L s p := by
  have hnd : (levelPrices L s).Nodup := (levelPrices_perm L s).nodup_iff.2 (prices_nodup L s)
  rw [priority, filter_flatMap_level L s p hnd]
  split_ifs with hp
  · rfl
  · exact (level_eq_nil.2 fun h => hp ((levelPrices_perm L s).mem_iff.2 h)).symm

end CryptoTrader.PriceTime
