import Mathlib.Order.RelClasses
import Mathlib.Data.List.Perm.Basic
import Mathlib.Data.List.Pairwise
import Mathlib.Data.List.Nodup

/-! Finite maps kept as their list of bindings, sorted by a strict total order on
the keys. The list is a canonical form: two maps with the same lookups are equal,
so a program that compares, walks or cuts such a map can be reasoned about by
lookups alone. -/

/-- A finite map whose bindings are listed in `lt` order of their keys. -/
structure OrdMap (κ ν : Type*) (lt : κ → κ → Prop) where
  entries : List (κ × ν)
  sorted : entries.Pairwise fun a b => lt a.1 b.1

namespace OrdMap

variable {κ ν : Type*} {lt : κ → κ → Prop}

instance [DecidableEq κ] [DecidableEq ν] : DecidableEq (OrdMap κ ν lt) := fun a b =>
  decidable_of_iff (a.entries = b.entries) (by cases a; cases b; simp)

theorem eq_of_entries {m m' : OrdMap κ ν lt} (h : m.entries = m'.entries) : m = m' := by
  cases m; cases m'; cases h; rfl

def empty : OrdMap κ ν lt := ⟨[], List.Pairwise.nil⟩

def keys (m : OrdMap κ ν lt) : List κ := m.entries.map Prod.fst

def size (m : OrdMap κ ν lt) : ℕ := m.entries.length

/-- The first `n` bindings. -/
def take (m : OrdMap κ ν lt) (n : ℕ) : OrdMap κ ν lt :=
  ⟨m.entries.take n, m.sorted.sublist (List.take_sublist _ _)⟩

/-- The bindings that pass a test. -/
def filter (m : OrdMap κ ν lt) (keep : κ → ν → Bool) : OrdMap κ ν lt :=
  ⟨m.entries.filter fun e => keep e.1 e.2, m.sorted.sublist List.filter_sublist⟩

theorem keys_pairwise (m : OrdMap κ ν lt) : m.keys.Pairwise lt :=
  List.pairwise_map.2 m.sorted

section Ops

variable [DecidableEq κ]

/-- The value bound to `k` in a list of bindings. -/
def lookupEntry (k : κ) : List (κ × ν) → Option ν
  | [] => none
  | e :: es => if k = e.1 then some e.2 else lookupEntry k es

def find? (m : OrdMap κ ν lt) (k : κ) : Option ν := lookupEntry k m.entries

def erase (m : OrdMap κ ν lt) (k : κ) : OrdMap κ ν lt :=
  ⟨m.entries.filter fun e => e.1 ≠ k, m.sorted.sublist List.filter_sublist⟩

/-- Insertion into a sorted list of bindings, replacing a binding of the same key. -/
def insertEntry (lt : κ → κ → Prop) [DecidableRel lt] (k : κ) (v : ν) : List (κ × ν) → List (κ × ν)
  | [] => [(k, v)]
  | e :: es =>
    if lt k e.1 then (k, v) :: e :: es
    else if k = e.1 then (k, v) :: es
    else e :: insertEntry lt k v es

theorem mem_insertEntry [DecidableRel lt] {k : κ} {v : ν} {es : List (κ × ν)} {a : κ × ν}
    (h : a ∈ insertEntry lt k v es) : a = (k, v) ∨ a ∈ es := by
  induction es with
  | nil => simpa [insertEntry] using h
  | cons e es ih =>
    simp only [insertEntry] at h
    split_ifs at h with h1 h2
    · simpa using h
    · rcases List.mem_cons.1 h with h | h
      · exact Or.inl h
      · exact Or.inr (List.mem_cons_of_mem _ h)
    · rcases List.mem_cons.1 h with h | h
      · exact Or.inr (h ▸ List.mem_cons_self)
      · exact (ih h).imp_right (List.mem_cons_of_mem _)

theorem insertEntry_sorted [DecidableRel lt] [IsStrictTotalOrder κ lt] (k : κ) (v : ν) {es : List (κ × ν)}
    (h : es.Pairwise fun a b => lt a.1 b.1) :
    (insertEntry lt k v es).Pairwise fun a b => lt a.1 b.1 := by
  induction es with
  | nil => simp [insertEntry]
  | cons e es ih =>
    rw [List.pairwise_cons] at h
    simp only [insertEntry]
    split_ifs with h1 h2
    · refine List.pairwise_cons.2 ⟨?_, List.pairwise_cons.2 h⟩
      intro a ha
      rcases List.mem_cons.1 ha with rfl | ha
      · exact h1
      · exact trans_of lt h1 (h.1 a ha)
    · exact List.pairwise_cons.2 ⟨fun a ha => by rw [h2]; exact h.1 a ha, h.2⟩
    · refine List.pairwise_cons.2 ⟨?_, ih h.2⟩
      intro a ha
      rcases mem_insertEntry ha with rfl | ha
      · exact ((trichotomous_of lt k e.1).resolve_left h1).resolve_left h2
      · exact h.1 a ha

/-- `insert_or_assign` of an ordered map. -/
def insert [DecidableRel lt] [IsStrictTotalOrder κ lt] (m : OrdMap κ ν lt) (k : κ) (v : ν) : OrdMap κ ν lt :=
  ⟨insertEntry lt k v m.entries, insertEntry_sorted k v m.sorted⟩

end Ops

section Lookup

variable [DecidableEq κ]

theorem lookup_insertEntry [DecidableRel lt] (k k' : κ) (v : ν) (es : List (κ × ν)) :
    lookupEntry k' (insertEntry lt k v es) = if k' = k then some v else lookupEntry k' es := by
  induction es with
  | nil => rfl
  | cons e es ih =>
    simp only [insertEntry]
    split_ifs with h1 h2 h3 h4 h5
    · simp [lookupEntry, h2]
    · simp [lookupEntry, h2]
    · simp [lookupEntry, h4]
    · simp [lookupEntry, h4, ← h3]
    · subst h5; simp [lookupEntry, h3, ih]
    · simp [lookupEntry, ih, h5]

@[simp] theorem find?_empty (k : κ) : (empty : OrdMap κ ν lt).find? k = none := rfl

@[simp] theorem find?_insert [DecidableRel lt] [IsStrictTotalOrder κ lt] (m : OrdMap κ ν lt) (k k' : κ) (v : ν) :
    (m.insert k v).find? k' = if k' = k then some v else m.find? k' :=
  lookup_insertEntry k k' v m.entries

@[simp] theorem find?_erase (m : OrdMap κ ν lt) (k k' : κ) :
    (m.erase k).find? k' = if k' = k then none else m.find? k' := by
  simp only [find?, erase]
  induction m.entries with
  | nil => simp [lookupEntry]
  | cons e es ih =>
    by_cases he : e.1 = k
    · rw [List.filter_cons_of_neg (by simpa using he), ih]
      by_cases hk : k' = k <;> simp [lookupEntry, he, hk]
    · rw [List.filter_cons_of_pos (by simpa using he), lookupEntry, lookupEntry, ih]
      by_cases hk : k' = e.1
      · subst hk; simp [he]
      · simp [hk]

theorem find?_foldl_erase (m : OrdMap κ ν lt) (ks : List κ) (k : κ) :
    (ks.foldl (fun m k => m.erase k) m).find? k = if k ∈ ks then none else m.find? k := by
  induction ks generalizing m with
  | nil => simp
  | cons a ks ih =>
    rw [List.foldl_cons, ih, find?_erase]
    by_cases h1 : k ∈ ks <;> by_cases h2 : k = a <;> simp [h1, h2]

variable [IsStrictTotalOrder κ lt]

omit [DecidableEq κ] in
theorem keys_nodup (m : OrdMap κ ν lt) : m.keys.Nodup :=
  List.Pairwise.imp (fun {a b} (h : lt a b) (he : a = b) => irrefl_of lt b (he ▸ h)) m.keys_pairwise

theorem lookup_eq_some {es : List (κ × ν)} (hnd : (es.map Prod.fst).Nodup) (k : κ) (v : ν) :
    lookupEntry k es = some v ↔ (k, v) ∈ es := by
  induction es with
  | nil => simp [lookupEntry]
  | cons e es ih =>
    rw [List.map_cons, List.nodup_cons] at hnd
    rw [lookupEntry, List.mem_cons]
    by_cases hk : k = e.1
    · subst hk
      rw [if_pos rfl, Option.some.injEq]
      refine ⟨fun h => Or.inl (by rw [← h]), ?_⟩
      rintro (h | h)
      · rw [← h]
      · exact absurd (List.mem_map.2 ⟨_, h, rfl⟩) hnd.1
    · rw [if_neg hk, ih hnd.2]
      exact ⟨Or.inr, fun h => h.resolve_left fun he => hk (congrArg Prod.fst he)⟩

theorem find?_eq_some {m : OrdMap κ ν lt} {k : κ} {v : ν} : m.find? k = some v ↔ (k, v) ∈ m.entries :=
  lookup_eq_some m.keys_nodup k v

theorem find?_filter (m : OrdMap κ ν lt) (keep : κ → ν → Bool) (k : κ) :
    (m.filter keep).find? k = (m.find? k).filter (keep k) := by
  ext v
  rw [find?_eq_some, Option.filter_eq_some_iff, find?_eq_some, filter, List.mem_filter]

theorem mem_keys {m : OrdMap κ ν lt} {k : κ} : k ∈ m.keys ↔ (m.find? k).isSome := by
  rw [Option.isSome_iff_exists]
  simp only [find?_eq_some, keys, List.mem_map, Prod.exists, exists_and_right, exists_eq_right]

/-- Two maps with the same lookups are the same map. -/
theorem ext_find {m m' : OrdMap κ ν lt} (h : ∀ k, m.find? k = m'.find? k) : m = m' := by
  apply eq_of_entries
  have hnd (n : OrdMap κ ν lt) : n.entries.Nodup := List.Nodup.of_map _ n.keys_nodup
  refine List.Perm.eq_of_pairwise ?_ m.sorted m'.sorted
    ((List.perm_ext_iff_of_nodup (hnd m) (hnd m')).2 ?_)
  · intro a b _ _ hab hba
    exact absurd (trans_of lt hab hba) (irrefl_of lt _)
  · rintro ⟨k, v⟩
    rw [← find?_eq_some, ← find?_eq_some, h k]

theorem keys_eq_perm (m : OrdMap κ ν lt) {ks : List κ} (hnd : ks.Nodup) (h : ∀ k, k ∈ ks ↔ (m.find? k).isSome) :
    m.keys.Perm ks :=
  (List.perm_ext_iff_of_nodup m.keys_nodup hnd).2 fun k => by rw [mem_keys, h]

/-- What is collected at one key is collected once. -/
theorem flatMap_at_key {β : Type*} (m : OrdMap κ ν lt) (k : κ) (b : β) :
    (m.entries.flatMap fun e => if e.1 = k then [b] else []) = if k ∈ m.keys then [b] else [] := by
  have hnd : (m.entries.map Prod.fst).Nodup := m.keys_nodup
  rw [keys]
  generalize m.entries = entries at hnd ⊢
  induction entries with
  | nil => rfl
  | cons e es ih =>
    rw [List.map_cons, List.nodup_cons] at hnd
    rw [List.flatMap_cons, ih hnd.2, List.map_cons]
    by_cases hk : e.1 = k
    · subst hk
      simp [hnd.1]
    · have hmem : k ∈ e.1 :: es.map Prod.fst ↔ k ∈ es.map Prod.fst := by
        rw [List.mem_cons]
        exact or_iff_right fun h => hk h.symm
      rw [if_neg hk, List.nil_append]
      simp only [hmem]

end Lookup

section Take

variable [DecidableRel lt] [IsStrictTotalOrder κ lt]

/-- A key is among the first `n` of a sorted list when fewer than `n` precede it. -/
theorem mem_take_sorted {l : List κ} (hl : l.Pairwise lt) (n : ℕ) (k : κ) :
    k ∈ l.take n ↔ k ∈ l ∧ (l.filter fun a => lt a k).length < n := by
  induction l generalizing n with
  | nil => simp
  | cons a l ih =>
    rw [List.pairwise_cons] at hl
    cases n with
    | zero => simp
    | succ n =>
      rw [List.take_succ_cons, List.mem_cons, List.mem_cons, ih hl.2]
      by_cases hak : k = a
      · subst hak
        have hnone : (l.filter fun b => lt b k) = [] :=
          List.filter_eq_nil_iff.2 fun b hb => by simpa using asymm_of lt (hl.1 b hb)
        simp [hnone, irrefl_of lt k]
      · by_cases hk : k ∈ l
        · simp [hak, hk, hl.1 k hk]
        · simp [hak, hk]

variable [DecidableEq κ]

theorem find?_take (m : OrdMap κ ν lt) (n : ℕ) (k : κ) :
    (m.take n).find? k = if (m.keys.filter fun a => lt a k).length < n then m.find? k else none := by
  have hkeys : (m.take n).keys = m.keys.take n := List.map_take
  have hmem : k ∈ (m.take n).keys ↔ k ∈ m.keys ∧ (m.keys.filter fun a => lt a k).length < n := by
    rw [hkeys, mem_take_sorted m.keys_pairwise]
  split_ifs with h
  · cases hv : m.find? k with
    | none =>
      rw [← Option.not_isSome_iff_eq_none, ← mem_keys, hmem, mem_keys, hv]
      simp
    | some v =>
      have hk : k ∈ (m.take n).keys := hmem.2 ⟨mem_keys.2 (by simp [hv]), h⟩
      obtain ⟨v', hv'⟩ := Option.isSome_iff_exists.1 (mem_keys.1 hk)
      have hin : (k, v') ∈ m.entries := List.mem_of_mem_take (find?_eq_some.1 hv')
      rw [find?_eq_some.2 hin] at hv
      rw [hv', hv]
  · rw [← Option.not_isSome_iff_eq_none, ← mem_keys, hmem]
    exact fun hk => h hk.2

/-- A binding is past the first `n` when at least `n` keys precede it. -/
theorem mem_drop {m : OrdMap κ ν lt} {n : ℕ} {k : κ} {v : ν} :
    (k, v) ∈ m.entries.drop n ↔ (k, v) ∈ m.entries ∧ n ≤ (m.keys.filter fun a => lt a k).length := by
  have hnd : (m.entries.take n ++ m.entries.drop n).Nodup := by
    rw [List.take_append_drop]
    exact List.Nodup.of_map _ m.keys_nodup
  have htake : (k, v) ∈ m.entries → ((k, v) ∈ m.entries.take n ↔ (m.keys.filter fun a => lt a k).length < n) := by
    intro hk
    rw [← find?_eq_some] at hk
    have htake : (k, v) ∈ (m.take n).entries ↔ _ := find?_eq_some.symm
    rw [find?_take, hk] at htake
    exact htake.trans (by simp)
  constructor
  · intro h
    have hk := List.mem_of_mem_drop h
    refine ⟨hk, Nat.not_lt.1 fun hlt => ?_⟩
    exact (List.nodup_append.1 hnd).2.2 _ ((htake hk).2 hlt) _ h rfl
  · rintro ⟨hk, hle⟩
    rw [← List.take_append_drop n m.entries, List.mem_append] at hk
    rcases hk with hk | hk
    · exact absurd ((htake (List.mem_of_mem_take hk)).1 hk) (Nat.not_lt.2 hle)
    · exact hk

theorem mem_keys_drop {m : OrdMap κ ν lt} {n : ℕ} {k : κ} :
    k ∈ m.keys.drop n ↔ k ∈ m.keys ∧ n ≤ (m.keys.filter fun a => lt a k).length := by
  simp only [keys, ← List.map_drop, List.mem_map, Prod.exists, exists_and_right, exists_eq_right, mem_drop]

end Take

end OrdMap
