import CryptoTrader.Sanity.L3Rep

/-! The two indexes of the order-by-order book agree in every state it reaches: an order is
indexed exactly where it stands, once. A book that represents a list of resting orders is
such a state, and every call takes one representation to another without a failed lookup. -/

namespace CryptoTrader

open PriceTime

/-- A call on the policy. -/
inductive L3Call where
  | snapshot (snapshot : L3Snapshot)
  | batch (updates : List L3Update)
  deriving DecidableEq, Repr

namespace L3State

def call (st : L3State) : L3Call → Except L3Fault (L3State × ChangeSet)
  | .snapshot snapshot => st.applySnapshot snapshot
  | .batch updates => st.applyBatch updates

/-- The policy after a list of calls, unless a lookup failed inside one of them. -/
def run (st : L3State) : List L3Call → Except L3Fault L3State
  | [] => .ok st
  | call :: calls => do
    let (st, _) ← st.call call
    st.run calls

/-- Where an order stands: one entry for each time its id occurs in a level of a side. -/
def places (st : L3State) (id : OrderId) : List (Side × Price) :=
  [Side.bid, Side.ask].flatMap fun s =>
    (st.levelsOf s).flatMap fun level => (level.2.filter (· = id)).map fun _ => (s, level.1)

/-- The representation invariant. -/
structure Consistent (st : L3State) : Prop where
  /-- An indexed order stands once, where its record says; any other stands nowhere. -/
  places_eq : ∀ id, st.places id = ((st.orderIndex.find? id).map fun record => (record.side, record.price)).toList
  level_ne_nil : ∀ s, ∀ level ∈ st.levelsOf s, level.2 ≠ []
  levels_le : ∀ s depth, st.maxDepth = some depth → (st.levelsOf s).length ≤ depth

end L3State

namespace Rep

variable {L : List Order} {st : L3State}

theorem filter_queue_of_not_mem {id : OrderId} (h : id ∉ L.map (·.id)) (s : Side) (p : Price) :
    (queue L s p).filter (· = id) = [] := by
  rw [List.filter_eq_nil_iff]
  intro other hother hid
  obtain ⟨o, ho, rfl⟩ := List.mem_map.1 hother
  exact h (List.mem_map.2 ⟨o, (mem_level.1 ho).1, by simpa using hid⟩)

/-- An order occurs once in its own queue and in no other. -/
theorem filter_queue (h : Rep L st) {o : Order} (ho : o ∈ L) (s : Side) (p : Price) :
    (queue L s p).filter (· = o.id) = if o.side = s ∧ o.price = p then [o.id] else [] := by
  split_ifs with hplace
  · have hmem : o.id ∈ queue L s p := List.mem_map.2 ⟨o, mem_level.2 ⟨ho, hplace⟩, rfl⟩
    have hnodup : (queue L s p).Nodup := h.nodup.sublist (List.filter_sublist.map _)
    rw [List.filter_eq, List.count_eq_one_of_mem hnodup hmem]
    rfl
  · rw [List.filter_eq_nil_iff]
    intro other hother hid
    obtain ⟨o', ho', rfl⟩ := List.mem_map.1 hother
    obtain ⟨hmem, hat⟩ := mem_level.1 ho'
    exact hplace (List.inj_on_of_nodup_map h.nodup hmem ho (by simpa using hid) ▸ hat)

/-- The level of an order is the only one of its side that holds it. -/
theorem places_side (h : Rep L st) {o : Order} (ho : o ∈ L) (s : Side) :
    ((st.levelsOf s).flatMap fun level => (level.2.filter (· = o.id)).map fun _ => (s, level.1)) =
      if o.side = s then [(s, o.price)] else [] := by
  have hlevel : ∀ level ∈ st.levelsOf s, ((level.2.filter (· = o.id)).map fun _ => (s, level.1)) =
      if o.side = s ∧ level.1 = o.price then [(s, o.price)] else [] := by
    rintro ⟨p, ids⟩ hlevel
    obtain ⟨-, rfl⟩ := h.mem_entries.1 hlevel
    rw [h.filter_queue ho]
    by_cases hplace : o.side = s ∧ o.price = p
    · rw [if_pos hplace, if_pos ⟨hplace.1, hplace.2.symm⟩, ← hplace.2]
      rfl
    · rw [if_neg hplace, if_neg fun hp => hplace ⟨hp.1, hp.2.symm⟩]
      rfl
  rw [List.flatMap_congr hlevel]
  split_ifs with hside
  · have hkey : o.price ∈ (st.levels.get s).keys := by
      rw [(h.keys_perm s).mem_iff]
      exact mem_prices.2 ⟨o, ho, hside, rfl⟩
    simp only [hside, true_and, L3State.levelsOf]
    rw [OrdMap.flatMap_at_key, if_pos hkey]
  · simp only [hside, false_and, if_false, List.flatMap_eq_nil_iff, implies_true]

theorem places_of_not_mem (h : Rep L st) {id : OrderId} (hid : id ∉ L.map (·.id)) : st.places id = [] := by
  have hside : ∀ s, ((st.levelsOf s).flatMap fun level => (level.2.filter (· = id)).map fun _ => (s, level.1)) = [] := by
    intro s
    rw [List.flatMap_eq_nil_iff]
    rintro ⟨p, ids⟩ hlevel
    obtain ⟨-, rfl⟩ := h.mem_entries.1 hlevel
    rw [filter_queue_of_not_mem hid]
    rfl
  rw [L3State.places, List.flatMap_cons, List.flatMap_singleton, hside, hside, List.append_nil]

theorem places_of_mem (h : Rep L st) {o : Order} (ho : o ∈ L) : st.places o.id = [(o.side, o.price)] := by
  rw [L3State.places, List.flatMap_cons, List.flatMap_singleton, h.places_side ho, h.places_side ho]
  cases o.side <;> rfl

/-- A represented book within its depth is consistent. -/
theorem consistent (h : Rep L st) (hdepth : ∀ s depth, st.maxDepth = some depth → (st.levelsOf s).length ≤ depth) :
    st.Consistent := by
  refine ⟨fun id => ?_, fun s level hlevel => ?_, hdepth⟩
  · rw [h.index]
    cases hlookup : lookup L id with
    | none => exact h.places_of_not_mem (PriceTime.lookup_eq_none.1 hlookup)
    | some o =>
      obtain ⟨ho, rfl⟩ := (PriceTime.lookup_eq_some h.nodup).1 hlookup
      exact h.places_of_mem ho
  · obtain ⟨p, ids⟩ := level
    obtain ⟨hp, rfl⟩ := h.mem_entries.1 hlevel
    exact fun hnil => queue_eq_nil.1 hnil hp

/-- A call makes no failing lookup and leaves a represented book within its depth. -/
theorem call (h : Rep L st) (c : L3Call) :
    ∃ L' st' cs, st.call c = .ok (st', cs) ∧ Rep L' st' ∧ st'.maxDepth = st.maxDepth ∧
      ∀ s depth, st'.maxDepth = some depth → (st'.levelsOf s).length ≤ depth := by
  cases c with
  | snapshot snapshot =>
    obtain ⟨st', hok, hrep, hdepth⟩ := Rep.applySnapshot st snapshot
    refine ⟨_, st', _, hok, hrep, hdepth, fun s depth hd => ?_⟩
    rw [hdepth] at hd
    rw [snapshotOrders, hd] at hrep
    exact hrep.size_le_depth s
  | batch updates =>
    obtain ⟨st', hok, hrep, hdepth⟩ := h.applyBatch updates
    refine ⟨_, st', _, hok, hrep, hdepth, fun s depth hd => ?_⟩
    rw [hdepth] at hd
    rw [batchOrders, hd] at hrep
    exact hrep.size_le_depth s

/-- Runs of calls, from a represented book within its depth. -/
theorem run (h : Rep L st) (hdepth : ∀ s depth, st.maxDepth = some depth → (st.levelsOf s).length ≤ depth)
    (calls : List L3Call) :
    ∃ L' st', st.run calls = .ok st' ∧ Rep L' st' ∧
      ∀ s depth, st'.maxDepth = some depth → (st'.levelsOf s).length ≤ depth := by
  induction calls generalizing L st with
  | nil => exact ⟨L, st, rfl, h, hdepth⟩
  | cons c calls ih =>
    obtain ⟨L', st', cs, hok, hrep, -, hdepth'⟩ := h.call c
    rw [L3State.run, hok]
    exact ih hrep hdepth'

end Rep

/-- After any snapshots and batches, whatever they hold, the book is consistent: no lookup
on the way failed, and the views of the result can be computed. -/
theorem l3_book_consistent (maxDepth : Option ℕ) (calls : List L3Call) :
    ∃ st, (L3State.init maxDepth).run calls = .ok st ∧ st.Consistent ∧ (∀ s, ∃ best, st.best s = .ok best) ∧
      ∀ maxLevels, ∃ view, st.getBookView maxLevels = .ok view := by
  have hempty : ∀ s depth, (L3State.init maxDepth).maxDepth = some depth →
      ((L3State.init maxDepth).levelsOf s).length ≤ depth := by
    intro s depth _
    cases s <;> exact Nat.zero_le depth
  obtain ⟨L, st, hok, hrep, hdepth⟩ := (Rep.init maxDepth).run hempty calls
  exact ⟨st, hok, hrep.consistent hdepth, fun s => ⟨_, hrep.best s⟩, fun maxLevels => ⟨_, hrep.getBookView maxLevels⟩⟩

end CryptoTrader
