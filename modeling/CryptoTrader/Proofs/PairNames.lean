import CryptoTrader.Spec.AssetPairs
import Mathlib.Data.List.Induction
import Mathlib.Data.List.Nodup

/-! Which pair a name finds. All names of all pairs, as they are and normalized, are keys of
one map, and the last pair to write a key has it. So a pair is found by its own names in
every order of the table exactly if no other pair has one of them as a name or as the
normal form of one. -/

namespace CryptoTrader

namespace AssetPairEntry

/-- The names the response gives for an entry. -/
def names (entry : AssetPairEntry) : List Bytes := entry.key :: (entry.altname.toList ++ entry.wsname.toList)

end AssetPairEntry

/-- `IndexPair` of a name writes a key. -/
def WritesKey (name key : Bytes) : Prop := name ≠ [] ∧ (key = name ∨ key = normalizeSymbol name)

/-- An entry writes the keys of its names. -/
def AssetPairEntry.Writes (entry : AssetPairEntry) (key : Bytes) : Prop := ∃ name ∈ entry.names, WritesKey name key

instance (name key : Bytes) : Decidable (WritesKey name key) :=
  inferInstanceAs (Decidable (name ≠ [] ∧ (key = name ∨ key = normalizeSymbol name)))

instance (entry : AssetPairEntry) (key : Bytes) : Decidable (entry.Writes key) :=
  inferInstanceAs (Decidable (∃ name ∈ entry.names, WritesKey name key))

/-- A name an entry has to be found by: its REST name, or an altname or wsname that no other
entry has and that is no REST name. -/
def OwnName (entries : List AssetPairEntry) (entry : AssetPairEntry) (name : Bytes) : Prop :=
  name = entry.key ∨
    (entry.altname = some name ∨ entry.wsname = some name) ∧
      (∀ other ∈ entries, other ≠ entry → other.altname ≠ some name ∧ other.wsname ≠ some name) ∧
      ∀ other ∈ entries, other.key ≠ name

/-- Every entry is found by its own names. -/
def FoundByOwnNames (entries : List AssetPairEntry) : Prop :=
  ∀ entry ∈ entries, ∀ name, OwnName entries entry name →
    (RestClient.parseAssetPairs entries).findAssetPair name = some entry.parsed

/-- A name clashes with an entry that has it as a name or as the normal form of one. -/
def Clashes (name : Bytes) (other : AssetPairEntry) : Prop :=
  ∃ alternative ∈ other.names, alternative = name ∨ normalizeSymbol alternative = name

instance (name : Bytes) (other : AssetPairEntry) : Decidable (Clashes name other) :=
  inferInstanceAs (Decidable (∃ alternative ∈ other.names, alternative = name ∨ normalizeSymbol alternative = name))

section Normal

theorem replaceXbt_eq_nil_iff {name : Bytes} : replaceXbt name = [] ↔ name = [] := by
  constructor
  · intro h
    unfold replaceXbt at h
    split at h
    · cases h
    · cases h
    · rfl
  · rintro rfl
    rfl

theorem normalizeSymbol_eq_nil_iff {name : Bytes} : normalizeSymbol name = [] ↔ name = [] := by
  rw [normalizeSymbol, replaceXbt_eq_nil_iff, List.map_eq_nil_iff]

theorem writes_iff {entry : AssetPairEntry} {key : Bytes} : entry.Writes key ↔ key ≠ [] ∧ Clashes key entry := by
  constructor
  · rintro ⟨name, hmem, hne, rfl | rfl⟩
    · exact ⟨hne, key, hmem, .inl rfl⟩
    · exact ⟨mt normalizeSymbol_eq_nil_iff.1 hne, name, hmem, .inr rfl⟩
  · rintro ⟨hne, name, hmem, rfl | rfl⟩
    · exact ⟨name, hmem, hne, .inl rfl⟩
    · exact ⟨name, hmem, mt normalizeSymbol_eq_nil_iff.2 hne, .inr rfl⟩

/-- A name that is not there is the empty one, which writes nothing. -/
theorem writesKey_getD {name : Option Bytes} {key : Bytes} :
    WritesKey (name.getD []) key ↔ ∃ one ∈ name, WritesKey one key := by
  cases name with
  | none => simp [WritesKey]
  | some name => simp

theorem writes_parsed {entry : AssetPairEntry} {key : Bytes} :
    entry.Writes key ↔
      (WritesKey entry.parsed.wsName key ∨ WritesKey entry.parsed.altname key) ∨ WritesKey entry.key key := by
  rw [AssetPairEntry.parsed, writesKey_getD, writesKey_getD]
  simp only [AssetPairEntry.Writes, AssetPairEntry.names, List.mem_cons, List.mem_append, Option.mem_toList,
    Option.mem_def, or_and_right, exists_or, exists_eq_left]
  exact or_comm.trans (or_congr_left or_comm)

theorem OwnName.mem_names {entries : List AssetPairEntry} {entry : AssetPairEntry} {name : Bytes}
    (h : OwnName entries entry name) : name ∈ entry.names := by
  rcases h with rfl | ⟨hname | hname, -⟩
  · exact List.mem_cons_self
  · simp [AssetPairEntry.names, hname]
  · simp [AssetPairEntry.names, hname]

theorem ownName_congr {entries entries' : List AssetPairEntry} (h : ∀ entry, entry ∈ entries ↔ entry ∈ entries')
    (entry : AssetPairEntry) (name : Bytes) : OwnName entries entry name ↔ OwnName entries' entry name := by
  simp only [OwnName, h]

end Normal

namespace RestClient

section Index

variable (client : RestClient)

theorem lookup_insertAlias (name restName key : Bytes) :
    (client.insertAlias name restName).aliases.lookup key =
      if key = name then some restName else client.aliases.lookup key := by
  rw [insertAlias, List.lookup_cons]
  by_cases hkey : key = name
  · simp [hkey]
  · rw [if_neg hkey, beq_false_of_ne hkey]
    change List.lookup key (client.aliases.filter _) = _
    induction client.aliases with
    | nil => rfl
    | cons first rest ih =>
      by_cases hfirst : first.1 = name
      · have hother : (key == first.1) = false := beq_false_of_ne (by rwa [hfirst])
        rw [List.filter_cons_of_neg (by simpa using hfirst), ih, List.lookup_cons, hother]
      · rw [List.filter_cons_of_pos (by simpa using hfirst), List.lookup_cons, List.lookup_cons, ih]

/-- One name writes itself and its normal form. -/
theorem lookup_indexPair (restName name key : Bytes) :
    (client.indexPair restName name).aliases.lookup key =
      if WritesKey name key then some restName else client.aliases.lookup key := by
  rw [indexPair]
  by_cases hname : name = []
  · rw [if_pos hname, if_neg (fun h => h.1 hname)]
  · rw [if_neg hname, lookup_insertAlias, lookup_insertAlias]
    by_cases hnormal : key = normalizeSymbol name
    · rw [if_pos hnormal, if_pos ⟨hname, .inr hnormal⟩]
    · by_cases hkey : key = name
      · rw [if_neg hnormal, if_pos hkey, if_pos ⟨hname, .inl hkey⟩]
      · rw [if_neg hnormal, if_neg hkey, if_neg (fun h => h.2.elim hkey hnormal)]

theorem indexPair_pairs (restName name : Bytes) : (client.indexPair restName name).pairs = client.pairs := by
  rw [indexPair]
  split_ifs <;> rfl

variable (entry : AssetPairEntry)

theorem lookup_emplacePair (hnew : client.pairs.lookup entry.key = none) (key : Bytes) :
    (client.emplacePair entry.parsed).pairs.lookup key =
      if key = entry.key then some entry.parsed else client.pairs.lookup key := by
  have hemplace : client.emplacePair entry.parsed =
      { client with pairs := (entry.key, entry.parsed) :: client.pairs } := by
    have hnone : ¬ (client.pairs.lookup entry.parsed.restName).isSome = true := by
      change ¬ (client.pairs.lookup entry.key).isSome = true
      rw [hnew]
      exact Bool.false_ne_true
    rw [emplacePair, if_neg hnone]
    rfl
  rw [hemplace, List.lookup_cons]
  by_cases hkey : key = entry.key
  · simp [hkey]
  · simp [hkey, beq_false_of_ne hkey]

/-- One new entry writes its keys. -/
theorem lookup_addEntry (hnew : client.pairs.lookup entry.key = none) (key : Bytes) :
    (client.addEntry entry).aliases.lookup key =
      (if entry.Writes key then some entry.key else client.aliases.lookup key) ∧
    (client.addEntry entry).pairs.lookup key =
      if key = entry.key then some entry.parsed else client.pairs.lookup key := by
  have hstored : ((client.emplacePair entry.parsed).pairs.lookup entry.key).getD entry.parsed = entry.parsed := by
    rw [lookup_emplacePair client entry hnew, if_pos rfl]
    rfl
  have haliases : (client.emplacePair entry.parsed).aliases = client.aliases := by
    rw [emplacePair]
    split_ifs <;> rfl
  simp only [addEntry, hstored]
  constructor
  · rw [lookup_indexPair, lookup_indexPair, lookup_indexPair, haliases, ← ite_or, ← ite_or]
    exact if_congr writes_parsed.symm rfl rfl
  · rw [indexPair_pairs, indexPair_pairs, indexPair_pairs, lookup_emplacePair client entry hnew]

end Index

/-- What the two maps hold after some entries. -/
structure Indexed (entries : List AssetPairEntry) (client : RestClient) : Prop where
  pair : ∀ entry ∈ entries, client.pairs.lookup entry.key = some entry.parsed
  unknown : ∀ key, (∀ entry ∈ entries, entry.key ≠ key) → client.pairs.lookup key = none
  last : ∀ before entry after name, entries = before ++ entry :: after → entry.Writes name →
    (∀ later ∈ after, ¬ later.Writes name) → client.aliases.lookup name = some entry.key
  unwritten : ∀ name, (∀ entry ∈ entries, ¬ entry.Writes name) → client.aliases.lookup name = none

theorem Indexed.addEntry {entries : List AssetPairEntry} {client : RestClient} (h : Indexed entries client)
    {entry : AssetPairEntry} (hnew : ∀ other ∈ entries, other.key ≠ entry.key) :
    Indexed (entries ++ [entry]) (client.addEntry entry) := by
  have hlookup := lookup_addEntry client entry (h.unknown entry.key hnew)
  refine ⟨fun other hother => ?_, fun key hkey => ?_, fun before other after name hsplit hwritten hlater => ?_,
    fun name hname => ?_⟩
  · rw [(hlookup other.key).2]
    rcases List.mem_append.1 hother with hold | hlast
    · rw [if_neg (hnew other hold), h.pair other hold]
    · rw [List.mem_singleton.1 hlast, if_pos rfl]
  · rw [(hlookup key).2, if_neg (hkey entry (by simp)).symm]
    exact h.unknown key fun other hother => hkey other (List.mem_append_left _ hother)
  · rw [(hlookup name).1]
    rcases List.eq_nil_or_concat' after with rfl | ⟨after, last, rfl⟩
    · obtain ⟨-, hsame⟩ := List.append_inj' hsplit rfl
      cases hsame
      rw [if_pos hwritten]
    · rw [← List.cons_append, ← List.append_assoc] at hsplit
      obtain ⟨hold, hsame⟩ := List.append_inj' hsplit rfl
      cases hsame
      rw [if_neg (hlater entry (by simp))]
      exact h.last before other after name hold hwritten fun later hmem => hlater later (List.mem_append_left _ hmem)
  · rw [(hlookup name).1, if_neg (hname entry (by simp))]
    exact h.unwritten name fun other hother => hname other (List.mem_append_left _ hother)

theorem indexed_parseAssetPairs {entries : List AssetPairEntry} (hkeys : (entries.map (·.key)).Nodup) :
    Indexed entries (parseAssetPairs entries) := by
  induction entries using List.reverseRecOn with
  | nil => exact ⟨by simp, fun _ _ => rfl, by simp, fun _ _ => rfl⟩
  | append_singleton entries entry ih =>
    rw [List.map_append, List.nodup_append] at hkeys
    obtain ⟨hold, -, hnew⟩ := hkeys
    have hparse : parseAssetPairs (entries ++ [entry]) = (parseAssetPairs entries).addEntry entry := List.foldl_concat ..
    rw [hparse]
    exact (ih hold).addEntry fun other hother =>
      hnew other.key (List.mem_map_of_mem hother) entry.key (List.mem_singleton_self _)

end RestClient

open RestClient

/-- The last of those that have a property. -/
theorem exists_last {α : Type} {holds : α → Prop} {all : List α} (h : ∃ one ∈ all, holds one) :
    ∃ before one after, all = before ++ one :: after ∧ holds one ∧ ∀ later ∈ after, ¬ holds later := by
  induction all with
  | nil => simp at h
  | cons first rest ih =>
    by_cases hrest : ∃ one ∈ rest, holds one
    · obtain ⟨before, one, after, rfl, hone, hafter⟩ := ih hrest
      exact ⟨first :: before, one, after, rfl, hone, hafter⟩
    · obtain ⟨one, hmem, hone⟩ := h
      rcases List.mem_cons.1 hmem with rfl | hmem
      · exact ⟨[], one, rest, rfl, hone, fun later hlater hholds => hrest ⟨later, hlater, hholds⟩⟩
      · exact absurd ⟨one, hmem, hone⟩ hrest

section Found

variable {entries : List AssetPairEntry}

theorem RestClient.Indexed.findAssetPair_of_last {client : RestClient} (h : Indexed entries client)
    {before after : List AssetPairEntry} {entry : AssetPairEntry} {name : Bytes}
    (hsplit : entries = before ++ entry :: after) (hwritten : entry.Writes name)
    (hlater : ∀ later ∈ after, ¬ later.Writes name) : client.findAssetPair name = some entry.parsed := by
  have hmem : entry ∈ entries := by simp [hsplit]
  rw [findAssetPair, h.last before entry after name hsplit hwritten hlater]
  exact h.pair entry hmem

/-- The empty name is never indexed. -/
theorem RestClient.Indexed.findAssetPair_nil {client : RestClient} (h : Indexed entries client) : client.findAssetPair [] = none := by
  have hnone : client.aliases.lookup [] = none :=
    h.unwritten [] fun entry _ hwritten => (writes_iff.1 hwritten).1 rfl
  rw [findAssetPair, hnone, normalizeSymbol_eq_nil_iff.2 rfl, hnone]
  rfl

/-- A name of an entry finds it if it is not empty and no later entry clashes with it. -/
theorem findAssetPair_eq_iff (hkeys : (entries.map (·.key)).Nodup) {before after : List AssetPairEntry}
    {entry : AssetPairEntry} {name : Bytes} (hsplit : entries = before ++ entry :: after) (hname : name ∈ entry.names) :
    (parseAssetPairs entries).findAssetPair name = some entry.parsed ↔
      name ≠ [] ∧ ∀ later ∈ after, ¬ Clashes name later := by
  have hindexed := indexed_parseAssetPairs hkeys
  by_cases hempty : name = []
  · rw [hempty, hindexed.findAssetPair_nil]
    simp
  · have hown : entry.Writes name := writes_iff.2 ⟨hempty, name, hname, .inl rfl⟩
    by_cases hclash : ∃ later ∈ after, later.Writes name
    · -- the last entry to write the name is another one
      obtain ⟨between, other, rest, hafter, hother, hrest⟩ := exists_last hclash
      have hagain : entries = (before ++ entry :: between) ++ other :: rest := by
        rw [hsplit, hafter, List.append_assoc, List.cons_append]
      have hfound := hindexed.findAssetPair_of_last hagain hother hrest
      have hdistinct : entry.key ≠ other.key := by
        rw [hsplit, hafter, List.map_append, List.map_cons, List.nodup_append, List.nodup_cons] at hkeys
        exact fun hsame => hkeys.2.1.1 (List.mem_map.2 ⟨other, by simp, hsame.symm⟩)
      rw [hfound]
      refine iff_of_false (fun hsame => hdistinct ?_) fun h => ?_
      · exact (congrArg AssetPair.restName (Option.some.inj hsame)).symm
      · obtain ⟨later, hmem, hwritten⟩ := hclash
        exact h.2 later hmem (writes_iff.1 hwritten).2
    · have hlater : ∀ later ∈ after, ¬ later.Writes name := fun later hmem hwritten => hclash ⟨later, hmem, hwritten⟩
      refine iff_of_true (hindexed.findAssetPair_of_last hsplit hown hlater) ⟨hempty, fun later hmem hclashes => ?_⟩
      exact hlater later hmem (writes_iff.2 ⟨hempty, hclashes⟩)

end Found

/-- For any table with distinct REST names: its entries are found by their own names exactly
if none of those is empty and no entry after one clashes with it; and in whatever order the
entries stand exactly if no other entry does. -/
theorem own_names_found_iff (entries : List AssetPairEntry) (hkeys : (entries.map (·.key)).Nodup) :
    (FoundByOwnNames entries ↔ ∀ before entry after, entries = before ++ entry :: after →
      ∀ name, OwnName entries entry name → name ≠ [] ∧ ∀ later ∈ after, ¬ Clashes name later) ∧
    ((∀ order : List AssetPairEntry, order.Perm entries → FoundByOwnNames order) ↔
      ∀ entry ∈ entries, ∀ name, OwnName entries entry name →
        name ≠ [] ∧ ∀ other ∈ entries, other ≠ entry → ¬ Clashes name other) := by
  refine ⟨⟨fun h before entry after hsplit name hname => ?_, fun h entry hentry name hname => ?_⟩,
    ⟨fun h entry hentry name hname => ⟨?_, fun other hother hne => ?_⟩, fun h order horder entry hentry name hname => ?_⟩⟩
  · exact (findAssetPair_eq_iff hkeys hsplit hname.mem_names).1 (h entry (by simp [hsplit]) name hname)
  · obtain ⟨before, after, hsplit⟩ := List.append_of_mem hentry
    exact (findAssetPair_eq_iff hkeys hsplit hname.mem_names).2 (h before entry after hsplit name hname)
  · obtain ⟨before, after, hsplit⟩ := List.append_of_mem hentry
    exact ((findAssetPair_eq_iff hkeys hsplit hname.mem_names).1 (h entries (.refl _) entry hentry name hname)).1
  · -- the order in which the other entry comes last
    have horder : (entries.erase other ++ [other]).Perm entries :=
      (List.perm_append_singleton other _).trans (List.perm_cons_erase hother).symm
    have hfirst : entry ∈ entries.erase other := (List.mem_erase_of_ne hne.symm).2 hentry
    obtain ⟨before, after, hsplit⟩ := List.append_of_mem hfirst
    have hall : entries.erase other ++ [other] = before ++ entry :: (after ++ [other]) := by
      rw [hsplit, List.append_assoc, List.cons_append]
    have hname' := (ownName_congr (fun one => horder.mem_iff) entry name).2 hname
    have hkeys' : ((entries.erase other ++ [other]).map (·.key)).Nodup := (horder.map _).nodup_iff.2 hkeys
    have hfound := h _ horder entry (List.mem_append_left _ hfirst) name hname'
    exact ((findAssetPair_eq_iff hkeys' hall hname.mem_names).1 hfound).2 other (by simp)
  · obtain ⟨before, after, hsplit⟩ := List.append_of_mem hentry
    have hkeys' : (order.map (·.key)).Nodup := (horder.map _).nodup_iff.2 hkeys
    have hname' := (ownName_congr (fun one => horder.mem_iff) entry name).1 hname
    obtain ⟨hne, hclash⟩ := h entry (horder.mem_iff.1 hentry) name hname'
    refine (findAssetPair_eq_iff hkeys' hsplit hname.mem_names).2 ⟨hne, fun later hlater => ?_⟩
    refine hclash later (horder.mem_iff.1 (by simp [hsplit, hlater])) ?_
    rintro rfl
    rw [hsplit, List.map_append, List.map_cons, List.nodup_append, List.nodup_cons] at hkeys'
    exact hkeys'.2.1.1 (List.mem_map_of_mem hlater)

/-- Two pairs as the exchange lists them. -/
def listedEntries : List AssetPairEntry :=
  [⟨ascii "XXBTZUSD", some (ascii "XBTUSD"), some (ascii "XBT/USD"), some 1, some 8⟩,
    ⟨ascii "XETHZUSD", some (ascii "ETHUSD"), some (ascii "ETH/USD"), some 2, some 8⟩]

theorem listed_own_names_found : FoundByOwnNames listedEntries := by
  have hclear : ∀ entry ∈ listedEntries, ∀ name ∈ entry.names,
      name ≠ [] ∧ ∀ other ∈ listedEntries, other ≠ entry → ¬ Clashes name other := by decide
  exact (own_names_found_iff listedEntries (by decide)).2.2
    (fun entry hentry name hname => hclear entry hentry name hname.mem_names) listedEntries (.refl _)

/-- A REST name that is the normal form of the next pair's altname. -/
def displacedEntries : List AssetPairEntry :=
  [⟨ascii "BTCUSD", none, none, some 5, some 8⟩, ⟨ascii "XXBTZUSD", some (ascii "XBTUSD"), none, some 1, some 8⟩]

theorem rest_name_displaced :
    ¬ ∀ entries : List AssetPairEntry, (entries.map (·.key)).Nodup → FoundByOwnNames entries := by
  intro h
  have hfound := h displacedEntries (by decide) _ List.mem_cons_self (ascii "BTCUSD") (.inl rfl)
  exact absurd hfound (by decide)

end CryptoTrader
