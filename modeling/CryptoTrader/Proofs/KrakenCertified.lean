import CryptoTrader.Spec.KrakenL3
import CryptoTrader.Sanity.Engine

/-! A Ready Kraken book is certified in full: the checksum the code recomputes over
the ten best levels is the checksum of the whole view, so it stands for the whole
book, together with an uncrossed top and the subscribed depth. -/

namespace CryptoTrader

open OrderBook

/-- The entries of one level continue the level already open. -/
theorem appendTopLevels_same_price (seen : ℕ) {p : Price} {es : List BookEntry} (hes : ∀ e ∈ es, e.price = p)
    (rest : List BookEntry) :
    appendTopLevels seen (some p) (es ++ rest) = es.flatMap entryText ++ appendTopLevels seen (some p) rest := by
  induction es with
  | nil => rfl
  | cons e es ih =>
    have hp : e.price = p := hes e List.mem_cons_self
    rw [List.cons_append, appendTopLevels, if_neg (by simp [hp]), ih fun e he => hes e (List.mem_cons_of_mem _ he),
      List.flatMap_cons, List.append_assoc]

/-- On a list of non-empty levels at distinct prices, the text counts levels. -/
theorem appendTopLevels_levels {f : Price → List BookEntry} {ps : List Price} (seen : ℕ) (current : Option Price)
    (hne : ∀ p ∈ ps, f p ≠ []) (hprice : ∀ p ∈ ps, ∀ e ∈ f p, e.price = p) (hnd : ps.Nodup)
    (hcurrent : ∀ p ∈ ps, current ≠ some p) :
    appendTopLevels seen current (ps.flatMap f) =
      (ps.take (kKrakenChecksumLevels - seen)).flatMap fun p => (f p).flatMap entryText := by
  induction ps generalizing seen current with
  | nil => simp [appendTopLevels]
  | cons p ps ih =>
    rw [List.nodup_cons] at hnd
    obtain ⟨e, es, hf⟩ := List.exists_cons_of_ne_nil (hne p List.mem_cons_self)
    have hfp := hprice p List.mem_cons_self
    rw [hf] at hfp
    have hep : e.price = p := hfp e List.mem_cons_self
    rw [List.flatMap_cons, hf, List.cons_append, appendTopLevels, hep, if_pos (hcurrent p List.mem_cons_self)]
    split_ifs with hseen
    · rw [show kKrakenChecksumLevels - seen = 0 by omega]
      rfl
    · rw [appendTopLevels_same_price (seen + 1) (fun e he => hfp e (List.mem_cons_of_mem _ he)),
        ih (seen + 1) (some p) (fun q hq => hne q (List.mem_cons_of_mem _ hq))
          (fun q hq => hprice q (List.mem_cons_of_mem _ hq)) hnd.2
          (fun q hq he => hnd.1 (by rw [Option.some.injEq] at he; rwa [he])),
        show kKrakenChecksumLevels - seen = (kKrakenChecksumLevels - (seen + 1)) + 1 by omega,
        List.take_succ_cons, List.flatMap_cons, hf, List.flatMap_cons, List.append_assoc]

section Window

variable {L : List Order} {st : L3State}

theorem Rep.levelView_ne_nil (h : Rep L st) {s : Side} {p : Price} (hp : p ∈ (st.levels.get s).keys) :
    Rep.levelView L s p ≠ [] := by
  obtain ⟨o, ho, hside, hprice⟩ := PriceTime.mem_prices.1 ((h.keys_perm s).mem_iff.1 hp)
  have hmem : o ∈ PriceTime.level L s p := PriceTime.mem_level.2 ⟨ho, hside, hprice⟩
  rw [Rep.levelView, Ne, List.map_eq_nil_iff]
  exact List.ne_nil_of_mem hmem

theorem Rep.levelView_price {s : Side} {p : Price} : ∀ e ∈ Rep.levelView L s p, e.price = p := by
  intro e he
  obtain ⟨o, -, rfl⟩ := List.mem_map.1 he
  rfl

/-- The checksum text of a side needs no more than the checksum's own window. -/
theorem Rep.topLevels_window (h : Rep L st) (s : Side) :
    appendTopLevels 0 none ((limitTo (some kKrakenChecksumLevels) (st.levels.get s).keys).flatMap (Rep.levelView L s)) =
      appendTopLevels 0 none ((limitTo none (st.levels.get s).keys).flatMap (Rep.levelView L s)) := by
  have hnd := (st.levels.get s).keys_nodup
  have htext (ps : List Price) (hsub : ps.Sublist (st.levels.get s).keys) :=
    appendTopLevels_levels 0 none (fun p hp => h.levelView_ne_nil (hsub.subset hp))
      (fun p _ => Rep.levelView_price ) (hnd.sublist hsub) (by simp)
  simp only [limitTo]
  rw [htext _ (List.take_sublist _ _), htext _ (List.Sublist.refl _), List.take_take, Nat.sub_zero, Nat.min_self]

end Window

theorem L3Policy.checksum_window (p : L3Policy) :
    krakenL3Checksum (p.getBookView (some kKrakenChecksumLevels)) = krakenL3Checksum (p.getBookView none) := by
  obtain ⟨L, h⟩ := p.represents
  rw [krakenL3Checksum, krakenL3Checksum, checksumText, checksumText, L3Policy.getBookView_eq h,
    L3Policy.getBookView_eq h]
  simp only [h.topLevels_window]

/-- The checksum a call carries. -/
def carriedMeta : EngineCall KrakenSnapshot KrakenBatch → ChecksumMeta
  | .snapshot snap => snap.msgMeta
  | .batch batch => batch.msgMeta

/-- What the exchange's checksum, the uncrossed top and the depth say about a book. -/
structure Certified (depth : Option ℕ) (p : KrakenL3Policy) (msgMeta : ChecksumMeta) : Prop where
  checksum : krakenL3Checksum (p.book.getBookView none) = msgMeta.checksum
  uncrossed : ∀ bid ask, p.best .bid = some bid → p.best .ask = some ask → bid.price < ask.price
  depth : ∀ s d, depth = some d → (p.book.state.levelsOf s).length ≤ d

namespace KrakenL3Policy

theorem verifyChecksum_clean {book : L3Policy} {cs : ChangeSet} {msgMeta : ChecksumMeta}
    (h : (verifyChecksum book cs msgMeta).integrityIssue = none) :
    krakenL3Checksum (book.getBookView none) = msgMeta.checksum ∧ cs.integrityIssue = none := by
  unfold verifyChecksum at h
  split_ifs at h with hc
  · exact absurd h (reportIssue_ne_none _ _)
  · rw [L3Policy.checksum_window, not_not] at hc
    exact ⟨hc, h⟩

/-- A book without a crossed issue and with a matching checksum is certified. -/
theorem certified_of_clean {book : L3Policy} {depth : Option ℕ} {L : List Order} {slot : Option IntegrityIssue}
    {cs : ChangeSet} {msgMeta : ChecksumMeta} (hrep : Rep (PriceTime.truncate depth L) book.state)
    (hissue : cs.integrityIssue = Rep.crossedIssue (PriceTime.truncate depth L) slot)
    (h : (verifyChecksum book cs msgMeta).integrityIssue = none) : Certified depth ⟨book⟩ msgMeta := by
  obtain ⟨hsum, hclean⟩ := verifyChecksum_clean h
  refine ⟨hsum, ?_, ?_⟩
  · rw [hclean, Rep.crossedIssue] at hissue
    split_ifs at hissue with hc
    · exact absurd hissue.symm (reportIssue_ne_none _ _)
    · have hb := L3Policy.best_eq hrep
      simp only [best, hb]
      exact lt_of_not_crossed (by simpa using hc)
  · rintro s d rfl
    exact hrep.size_le_depth s

theorem applySnapshot_certified (p : KrakenL3Policy) (snap : KrakenSnapshot)
    (h : (p.applySnapshot snap).2.integrityIssue = none) :
    Certified p.book.state.maxDepth (p.applySnapshot snap).1 snap.msgMeta := by
  obtain ⟨hrep, -, hissue⟩ := p.book.applySnapshot_spec snap.snapshot
  exact certified_of_clean hrep hissue h

theorem applyBatch_certified (p : KrakenL3Policy) (batch : KrakenBatch)
    (h : (p.applyBatch batch).2.integrityIssue = none) :
    Certified p.book.state.maxDepth (p.applyBatch batch).1 batch.msgMeta := by
  obtain ⟨L, hL⟩ := p.book.represents
  obtain ⟨hrep, -, hissue⟩ := L3Policy.applyBatch_spec hL (addsInArrivalOrder batch.updates)
  exact certified_of_clean hrep hissue h

theorem applySnapshot_maxDepth (p : KrakenL3Policy) (snap : KrakenSnapshot) :
    (p.applySnapshot snap).1.book.state.maxDepth = p.book.state.maxDepth :=
  (p.book.applySnapshot_spec snap.snapshot).2.1

theorem applyBatch_maxDepth (p : KrakenL3Policy) (batch : KrakenBatch) :
    (p.applyBatch batch).1.book.state.maxDepth = p.book.state.maxDepth := by
  obtain ⟨L, hL⟩ := p.book.represents
  exact (L3Policy.applyBatch_spec hL (addsInArrivalOrder batch.updates)).2.1

/-- The subscribed depth never changes. -/
theorem run_maxDepth (depth : Option ℕ) (calls : List (EngineCall KrakenSnapshot KrakenBatch)) :
    ((⟨init depth, .uninitialized⟩ : OrderBook KrakenL3Policy).run calls).policy.book.state.maxDepth = depth :=
  run_policy_invariant (I := fun p : KrakenL3Policy => p.book.state.maxDepth = depth) rfl
    (fun q snap hq => (q.applySnapshot_maxDepth snap).trans hq)
    (fun q batch hq => (q.applyBatch_maxDepth batch).trans hq) calls

end KrakenL3Policy

/-- Every Ready state is certified by the last message applied, and a message whose
result is not certified freezes the book until the next snapshot. -/
theorem ready_kraken_book_certified (depth : Option ℕ) (calls : List (EngineCall KrakenSnapshot KrakenBatch)) :
    let book := (⟨KrakenL3Policy.init depth, .uninitialized⟩ : OrderBook KrakenL3Policy)
    ((book.run calls).readiness = .ready →
      ∃ c, (book.applied calls).getLast? = some c ∧ Certified depth (book.run calls).policy (carriedMeta c)) ∧
    ∀ c batches, ¬ Certified depth (book.run (calls ++ [c])).policy (carriedMeta c) →
      (book.run (calls ++ [c] ++ OrderBook.batches batches)).readiness ≠ .ready ∧
      (book.run (calls ++ [c] ++ OrderBook.batches batches)).policy = (book.run (calls ++ [c])).policy := by
  intro book
  have hstart : book.readiness ≠ .ready := fun h => by cases h
  have hready : ∀ calls, (book.run calls).readiness = .ready →
      ∃ c, calls.getLast? = some c ∧ (book.applied calls).getLast? = some c ∧
        Certified depth (book.run calls).policy (carriedMeta c) := by
    intro calls hr
    obtain ⟨c, hlast, happlied, hcert⟩ := ready_last
      (P := fun p c => Certified p.book.state.maxDepth p (carriedMeta c)) hstart
      (fun q snap hq => (q.applySnapshot_maxDepth snap).symm ▸ q.applySnapshot_certified snap hq)
      (fun q batch hq => (q.applyBatch_maxDepth batch).symm ▸ q.applyBatch_certified batch hq) calls hr
    rw [KrakenL3Policy.run_maxDepth depth calls] at hcert
    exact ⟨c, hlast, happlied, hcert⟩
  refine ⟨fun hr => ?_, fun c batches hbad => ?_⟩
  · obtain ⟨c, -, happlied, hcert⟩ := hready calls hr
    exact ⟨c, happlied, hcert⟩
  have hnot : (book.run (calls ++ [c])).readiness ≠ .ready := by
    intro hr
    obtain ⟨c', hlast, -, hcert⟩ := hready _ hr
    rw [List.getLast?_concat, Option.some.injEq] at hlast
    exact hbad (hlast ▸ hcert)
  rw [run_append, (run_batches_of_not_ready hnot batches).1]
  exact ⟨hnot, rfl⟩

/-- A snapshot and a batch whose adds arrive out of order. -/
def certifiedRun : List (EngineCall KrakenSnapshot KrakenBatch) :=
  [.snapshot ⟨⟨[⟨.added, 1, .bid, 100, 5⟩, ⟨.added, 2, .ask, 101, 2⟩]⟩, ⟨1978179250#32⟩⟩,
   .batch ⟨[⟨⟨.added, 3, .bid, 100, 4⟩, [57]⟩, ⟨⟨.deleted, 2, .ask, 101, 2⟩, [56]⟩,
     ⟨⟨.added, 4, .bid, 100, 1⟩, [55]⟩], ⟨995567749#32⟩⟩]

theorem kraken_book_certified_run :
    ∃ c, (OrderBook.applied ⟨KrakenL3Policy.init (some 1), .uninitialized⟩ certifiedRun).getLast? = some c ∧
      Certified (some 1) (OrderBook.run ⟨KrakenL3Policy.init (some 1), .uninitialized⟩ certifiedRun).policy
        (carriedMeta c) :=
  (ready_kraken_book_certified (some 1) certifiedRun).1 (by decide +kernel)

end CryptoTrader
