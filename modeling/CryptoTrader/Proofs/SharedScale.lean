import CryptoTrader.Sanity.Decimal
import CryptoTrader.Spec.BookWiring

/-! One scale for all symbols of a Kraken connection. The checksum's text counts decimals,
so the shared scale gives a symbol's own checksum only if it is the symbol's own scale. -/

namespace CryptoTrader

section Scale

theorem foldl_max_le_iff {l : List ℕ} {start bound : ℕ} :
    l.foldl max start ≤ bound ↔ start ≤ bound ∧ ∀ n ∈ l, n ≤ bound := by
  induction l generalizing start with
  | nil => simp
  | cons n l ih => rw [List.foldl_cons, ih, max_le_iff, List.forall_mem_cons, and_assoc]

/-- The finest of some decimals, starting from none. -/
def finest (decimals : List ℕ) : ℕ := decimals.foldl max 0

theorem finest_le_iff {decimals : List ℕ} {bound : ℕ} : finest decimals ≤ bound ↔ ∀ n ∈ decimals, n ≤ bound := by
  rw [finest, foldl_max_le_iff]
  simp

theorem finest_eq {decimals : List ℕ} {n : ℕ} (h : n ∈ decimals) (hall : ∀ m ∈ decimals, m = n) : finest decimals = n :=
  le_antisymm (finest_le_iff.2 fun m hm => (hall m hm).le) (finest_le_iff.1 le_rfl n h)

theorem le_finest {decimals : List ℕ} {n : ℕ} (h : n ∈ decimals) : n ≤ finest decimals := finest_le_iff.1 le_rfl n h

/-- Decimals that a scale can take. -/
structure AssetPair.Sane (pair : AssetPair) : Prop where
  price : 0 ≤ pair.priceDecimals ∧ pair.priceDecimals ≤ Config.kMaxDecimals
  qty : 0 ≤ pair.qtyDecimals ∧ pair.qtyDecimals ≤ Config.kMaxDecimals

theorem AssetPair.Sane.scale_eq_iff {pair pair' : AssetPair} (h : pair.Sane) (h' : pair'.Sane) :
    pair.scale = pair'.scale ↔
      pair.priceDecimals = pair'.priceDecimals ∧ pair.qtyDecimals = pair'.qtyDecimals := by
  obtain ⟨hprice, hqty⟩ := h
  obtain ⟨hprice', hqty'⟩ := h'
  rw [AssetPair.scale, AssetPair.scale, InstrumentScale.mk.injEq]
  omega

theorem AssetPair.Sane.scale_le {pair : AssetPair} (h : pair.Sane) :
    pair.scale.priceDecimals ≤ Config.kMaxDecimals ∧ pair.scale.quantityDecimals ≤ Config.kMaxDecimals := by
  obtain ⟨hprice, hqty⟩ := h
  simp only [AssetPair.scale]
  omega

variable {rest : RestClient} {symbols : List Bytes} {start scale : InstrumentScale}

/-- The loop over the symbols ends well if it finds a pair with sane decimals for each, and
then takes the finest. -/
theorem finestScale_ok (h : finestScale rest start symbols = .ok scale) :
    ∃ pairs : List AssetPair, symbols.map rest.findAssetPair = pairs.map some ∧
      (∀ pair ∈ pairs, pair.Sane) ∧
      scale = ⟨(pairs.map (·.scale.priceDecimals)).foldl max start.priceDecimals,
        (pairs.map (·.scale.quantityDecimals)).foldl max start.quantityDecimals⟩ := by
  induction symbols generalizing start with
  | nil =>
    cases h
    exact ⟨[], rfl, by simp, rfl⟩
  | cons symbol symbols ih =>
    rw [finestScale] at h
    cases hpair : rest.findAssetPair symbol with
    | none =>
      rw [hpair] at h
      cases h
    | some pair =>
      rw [hpair] at h
      simp only at h
      split_ifs at h with hrange
      obtain ⟨pairs, hpairs, hsane, hscale⟩ := ih h
      refine ⟨pair :: pairs, ?_, ?_, hscale⟩
      · rw [List.map_cons, hpair, hpairs, List.map_cons]
      · intro other hother
        rcases List.mem_cons.1 hother with rfl | hother
        · push Not at hrange
          exact ⟨⟨hrange.1, hrange.2.2.1⟩, hrange.2.1, hrange.2.2.2⟩
        · exact hsane other hother

/-- The settings of a Kraken connection. -/
theorem resolveBookSettings_kraken {entry : Config.Connection} {rest : Option RestClient} {settings : BookSettings}
    (hkraken : entry.exchange = .kraken) (h : resolveBookSettings entry rest = .ok settings) :
    ∃ client pairs, rest = some client ∧ entry.symbols.map client.findAssetPair = List.map some pairs ∧
      (∀ pair ∈ pairs, pair.Sane) ∧
      settings.scale = ⟨finest (pairs.map (·.scale.priceDecimals)), finest (pairs.map (·.scale.quantityDecimals))⟩ := by
  rw [resolveBookSettings, hkraken] at h
  cases rest with
  | none => cases h
  | some client =>
    cases hscale : finestScale client ⟨0, 0⟩ entry.symbols with
    | error reason =>
      simp only [resolveKraken, hscale] at h
      cases h
    | ok scale =>
      simp only [resolveKraken, hscale] at h
      cases h
      obtain ⟨pairs, hpairs, hsane, rfl⟩ := finestScale_ok hscale
      exact ⟨client, pairs, rfl, hpairs, hsane, rfl⟩

end Scale

section Checksum

/-- The same decimal price and quantity, as integers at two scales. -/
structure SameEntry (scale scale' : InstrumentScale) (entry entry' : BookEntry) : Prop where
  price : entry.price * 10 ^ scale'.priceDecimals = entry'.price * 10 ^ scale.priceDecimals
  quantity : entry.quantity * 10 ^ scale'.quantityDecimals = entry'.quantity * 10 ^ scale.quantityDecimals

/-- The same book at two scales. -/
structure SameBook (scale scale' : InstrumentScale) (view view' : BookView) : Prop where
  bids : List.Forall₂ (SameEntry scale scale') view.bids view'.bids
  asks : List.Forall₂ (SameEntry scale scale') view.asks view'.asks

variable {scale : InstrumentScale}

theorem SameEntry.eq {entry entry' : BookEntry} (h : SameEntry scale scale entry entry') : entry = entry' := by
  have hpow (decimals : ℕ) : (10 : Int) ^ decimals ≠ 0 := pow_ne_zero _ (by decide)
  cases entry
  cases entry'
  rw [BookEntry.mk.injEq]
  exact ⟨mul_right_cancel₀ (hpow _) h.price, mul_right_cancel₀ (hpow _) h.quantity⟩

theorem SameBook.eq {view view' : BookView} (h : SameBook scale scale view view') : view = view' := by
  have hside {l l' : List BookEntry} (h : List.Forall₂ (SameEntry scale scale) l l') : l = l' := by
    induction h with
    | nil => rfl
    | cons hentry _ ih => rw [hentry.eq, ih]
  cases view
  cases view'
  rw [BookView.mk.injEq]
  exact ⟨hside h.bids, hside h.asks⟩

/-- The registers of the checksum as a number. -/
def crcBitNat (crc : ℕ) : ℕ := if crc % 2 = 1 then (crc / 2) ^^^ 0xEDB88320 else crc / 2

def crcByteNat (crc : ℕ) (byte : UInt8) : ℕ := crcBitNat^[8] (crc ^^^ byte.toNat)

theorem toNat_crcBit (crc : BitVec 32) : (crcBit crc).toNat = crcBitNat crc.toNat := by
  have hodd : crc &&& 1#32 ≠ 0#32 ↔ crc.toNat % 2 = 1 := by
    rw [ne_eq, ← BitVec.toNat_inj, BitVec.toNat_and, BitVec.toNat_ofNat, BitVec.toNat_ofNat]
    change ¬crc.toNat &&& 1 = 0 ↔ crc.toNat % 2 = 1
    rw [Nat.and_one_is_mod]
    omega
  have hshift : (crc >>> 1).toNat = crc.toNat / 2 := by
    rw [BitVec.toNat_ushiftRight, Nat.shiftRight_eq_div_pow, pow_one]
  rw [crcBit, crcBitNat]
  by_cases h : crc.toNat % 2 = 1
  · rw [if_pos (hodd.2 h), if_pos h, BitVec.toNat_xor, hshift]
    rfl
  · rw [if_neg (mt hodd.1 h), if_neg h, hshift]

theorem toNat_crcByte (crc : BitVec 32) (byte : UInt8) : (crcByte crc byte).toNat = crcByteNat crc.toNat byte := by
  have hiterate : Function.Semiconj BitVec.toNat crcBit crcBitNat := toNat_crcBit
  have hbyte : (byte.toBitVec.setWidth 32).toNat = byte.toNat := BitVec.toNat_setWidth_of_le (by decide)
  rw [crcByte, (hiterate.iterate_right 8).eq, BitVec.toNat_xor, hbyte]
  rfl

theorem toNat_foldl_crcByte (data : Bytes) (crc : BitVec 32) :
    (data.foldl crcByte crc).toNat = data.foldl crcByteNat crc.toNat := by
  induction data generalizing crc with
  | nil => rfl
  | cons byte data ih => rw [List.foldl_cons, List.foldl_cons, ih, toNat_crcByte]

theorem registers_eq_of_crc32_eq {data data' : Bytes} (h : crc32 data = crc32 data') :
    data.foldl crcByteNat 0xFFFFFFFF = data'.foldl crcByteNat 0xFFFFFFFF := by
  have hregisters := congrArg BitVec.toNat (BitVec.not_inj.1 h)
  rwa [toNat_foldl_crcByte, toNat_foldl_crcByte] at hregisters

/-- The registers after up to some zeros. -/
def registersAfterZeros : ℕ → ℕ → List ℕ
  | 0, crc => [crc]
  | zeros + 1, crc => crc :: registersAfterZeros zeros (crcByteNat crc 48)

theorem foldl_zeros_mem {zeros most : ℕ} (h : zeros ≤ most) (crc : ℕ) :
    (List.replicate zeros 48).foldl crcByteNat crc ∈ registersAfterZeros most crc := by
  induction most generalizing zeros crc with
  | zero =>
    obtain rfl := Nat.le_zero.1 h
    exact List.mem_cons_self
  | succ most ih =>
    cases zeros with
    | zero => exact List.mem_cons_self
    | succ zeros => exact List.mem_cons_of_mem _ (ih (Nat.le_of_succ_le_succ h) _)

/-- A book with one order, of one unit of price and quantity, at finer scales. -/
def unitBook (priceZeros quantityZeros : ℕ) : BookView := ⟨[], [⟨10 ^ priceZeros, 10 ^ quantityZeros⟩]⟩

theorem checksumText_unitBook (priceZeros quantityZeros : ℕ) :
    checksumText (unitBook priceZeros quantityZeros) =
      49 :: (List.replicate priceZeros 48 ++ 49 :: List.replicate quantityZeros 48) := by
  have htext (zeros : ℕ) : intText (10 ^ zeros) = 49 :: List.replicate zeros 48 := by
    have hpow : ((10 : Int) ^ zeros).natAbs = 1 * 10 ^ zeros := by
      rw [Int.natAbs_pow, Nat.one_mul]
      rfl
    rw [intText, if_neg (not_lt.2 (Int.pow_nonneg (by decide))), hpow, Fix.natText_mul_pow (by decide)]
    rfl
  have hlevel : checksumText (unitBook priceZeros quantityZeros) =
      (intText (10 ^ priceZeros) ++ intText (10 ^ quantityZeros) ++ []) ++ [] := rfl
  rw [hlevel, htext, htext, List.append_nil, List.append_nil, List.cons_append]

/-- None of the finer texts of the one order has the checksum of its own. -/
theorem unitBook_checksum_ne {priceZeros quantityZeros : ℕ} (hprice : priceZeros ≤ 15) (hquantity : quantityZeros ≤ 15)
    (h : priceZeros ≠ 0 ∨ quantityZeros ≠ 0) :
    krakenL3Checksum (unitBook priceZeros quantityZeros) ≠ krakenL3Checksum (unitBook 0 0) := by
  -- the registers for all texts at once, with the first zero of one number split off
  have hfinerPrice : ∀ crc ∈ registersAfterZeros 14 (crcByteNat (crcByteNat 0xFFFFFFFF 49) 48),
      ∀ last ∈ registersAfterZeros 15 (crcByteNat crc 49), last ≠ crcByteNat (crcByteNat 0xFFFFFFFF 49) 49 := by
    decide +kernel
  have hfinerQuantity : ∀ last ∈ registersAfterZeros 14 (crcByteNat (crcByteNat (crcByteNat 0xFFFFFFFF 49) 49) 48),
      last ≠ crcByteNat (crcByteNat 0xFFFFFFFF 49) 49 := by
    decide +kernel
  intro heq
  have hregisters := registers_eq_of_crc32_eq heq
  rw [checksumText_unitBook, checksumText_unitBook, List.foldl_cons, List.foldl_append, List.foldl_cons] at hregisters
  cases priceZeros with
  | succ zeros =>
    rw [List.replicate_succ, List.foldl_cons] at hregisters
    exact hfinerPrice _ (foldl_zeros_mem (by omega) _) _ (foldl_zeros_mem hquantity _) hregisters
  | zero =>
    obtain ⟨zeros, rfl⟩ := Nat.exists_eq_succ_of_ne_zero (h.resolve_left (fun hne => hne rfl))
    rw [List.replicate_succ, List.foldl_cons] at hregisters
    exact hfinerQuantity _ (foldl_zeros_mem (by omega) _) hregisters

end Checksum

section Wiring

variable {symbols : List Bytes} {rest : RestClient} {pairs : List AssetPair}

theorem pair_mem_of_found (hpairs : symbols.map rest.findAssetPair = pairs.map some) {symbol : Bytes} {pair : AssetPair}
    (hsymbol : symbol ∈ symbols)
    (hfound : rest.findAssetPair symbol = some pair) : pair ∈ pairs := by
  have hmem : some pair ∈ pairs.map some := by
    rw [← hpairs, ← hfound]
    exact List.mem_map_of_mem hsymbol
  obtain ⟨other, hother, hsome⟩ := List.mem_map.1 hmem
  exact Option.some.inj hsome ▸ hother

theorem exists_found_of_pair (hpairs : symbols.map rest.findAssetPair = pairs.map some) {pair : AssetPair}
    (hpair : pair ∈ pairs) : ∃ symbol ∈ symbols, rest.findAssetPair symbol = some pair := by
  have hmem : some pair ∈ symbols.map rest.findAssetPair := by
    rw [hpairs]
    exact List.mem_map_of_mem hpair
  exact List.mem_map.1 hmem

/-- A book of one unit at a pair's own scale, at the finer scale too. -/
theorem sameBook_unitBook {scale scale' : InstrumentScale} (hprice : scale.priceDecimals ≤ scale'.priceDecimals)
    (hquantity : scale.quantityDecimals ≤ scale'.quantityDecimals) :
    SameBook scale scale' (unitBook 0 0) (unitBook (scale'.priceDecimals - scale.priceDecimals)
      (scale'.quantityDecimals - scale.quantityDecimals)) := by
  refine ⟨List.Forall₂.nil, List.Forall₂.cons ⟨?_, ?_⟩ List.Forall₂.nil⟩
  · rw [pow_zero, one_mul, ← pow_add, Nat.sub_add_cancel hprice]
  · rw [pow_zero, one_mul, ← pow_add, Nat.sub_add_cancel hquantity]

/-- The shared scale gives a book of one unit its own checksum only if it is the book's own. -/
theorem scale_eq_of_checksum {scale scale' : InstrumentScale} (hprice : scale.priceDecimals ≤ scale'.priceDecimals)
    (hquantity : scale.quantityDecimals ≤ scale'.quantityDecimals) (hmaxPrice : scale'.priceDecimals ≤ 15)
    (hmaxQuantity : scale'.quantityDecimals ≤ 15)
    (h : ∀ own shared, SameBook scale scale' own shared → krakenL3Checksum shared = krakenL3Checksum own) :
    scale = scale' := by
  by_contra hne
  have hdiffer : scale'.priceDecimals - scale.priceDecimals ≠ 0 ∨
      scale'.quantityDecimals - scale.quantityDecimals ≠ 0 := by
    by_contra hzero
    refine hne ?_
    cases scale
    cases scale'
    rw [InstrumentScale.mk.injEq]
    simp only at *
    omega
  exact unitBook_checksum_ne (by omega) (by omega) hdiffer (h _ _ (sameBook_unitBook hprice hquantity))

/-- The shared scale gives every symbol of a Kraken connection its own checksum exactly if
the symbols' pairs agree on their decimals. -/
theorem shared_scale_checksum_iff (entry : Config.Connection) (rest : RestClient) (settings : BookSettings)
    (hkraken : entry.exchange = .kraken) (hresolved : resolveBookSettings entry (some rest) = .ok settings) :
    (∀ symbol ∈ entry.symbols, ∀ pair, rest.findAssetPair symbol = some pair →
      ∀ own shared, SameBook pair.scale settings.scale own shared → krakenL3Checksum shared = krakenL3Checksum own) ↔
    (∀ symbol ∈ entry.symbols, ∀ symbol' ∈ entry.symbols, ∀ pair pair', rest.findAssetPair symbol = some pair →
      rest.findAssetPair symbol' = some pair' →
      pair.priceDecimals = pair'.priceDecimals ∧ pair.qtyDecimals = pair'.qtyDecimals) := by
  obtain ⟨_, pairs, ⟨rfl⟩, hpairs, hsane, hscale⟩ := resolveBookSettings_kraken hkraken hresolved
  constructor
  · intro hchecksums
    have hmaxPrice : settings.scale.priceDecimals ≤ 15 := by
      rw [hscale, finest_le_iff, List.forall_mem_map]
      exact fun pair hpair => (hsane pair hpair).scale_le.1
    have hmaxQuantity : settings.scale.quantityDecimals ≤ 15 := by
      rw [hscale, finest_le_iff, List.forall_mem_map]
      exact fun pair hpair => (hsane pair hpair).scale_le.2
    -- each pair's own scale has to be the shared one
    have hshared : ∀ symbol ∈ entry.symbols, ∀ pair, rest.findAssetPair symbol = some pair →
        pair.Sane ∧ pair.scale = settings.scale := by
      intro symbol hsymbol pair hfound
      have hpair := pair_mem_of_found hpairs hsymbol hfound
      have hprice : pair.scale.priceDecimals ≤ settings.scale.priceDecimals := by
        rw [hscale]
        exact le_finest (List.mem_map_of_mem hpair)
      have hquantity : pair.scale.quantityDecimals ≤ settings.scale.quantityDecimals := by
        rw [hscale]
        exact le_finest (List.mem_map_of_mem hpair)
      exact ⟨hsane pair hpair,
        scale_eq_of_checksum hprice hquantity hmaxPrice hmaxQuantity (hchecksums symbol hsymbol pair hfound)⟩
    intro symbol hsymbol symbol' hsymbol' pair pair' hfound hfound'
    obtain ⟨hsane, hpair⟩ := hshared symbol hsymbol pair hfound
    obtain ⟨hsane', hpair'⟩ := hshared symbol' hsymbol' pair' hfound'
    exact (hsane.scale_eq_iff hsane').1 (hpair.trans hpair'.symm)
  · intro hsame symbol hsymbol pair hfound own shared hbooks
    have hpair := pair_mem_of_found hpairs hsymbol hfound
    have hother : ∀ other ∈ pairs, other.scale = pair.scale := by
      intro other hother
      obtain ⟨symbol', hsymbol', hfound'⟩ := exists_found_of_pair hpairs hother
      exact ((hsane other hother).scale_eq_iff (hsane pair hpair)).2
        (hsame symbol' hsymbol' symbol hsymbol other pair hfound' hfound)
    have hprice : finest (pairs.map (·.scale.priceDecimals)) = pair.scale.priceDecimals :=
      finest_eq (List.mem_map_of_mem hpair) (List.forall_mem_map.2 fun other hmem => by rw [hother other hmem])
    have hquantity : finest (pairs.map (·.scale.quantityDecimals)) = pair.scale.quantityDecimals :=
      finest_eq (List.mem_map_of_mem hpair) (List.forall_mem_map.2 fun other hmem => by rw [hother other hmem])
    rw [hscale, hprice, hquantity] at hbooks
    rw [hbooks.eq]

/-- Bitcoin with one price decimal and ether with two, as Kraken lists them. -/
def listedPairs : RestClient :=
  .parseAssetPairs [⟨ascii "XXBTZUSD", some (ascii "XBTUSD"), some (ascii "XBT/USD"), some 1, some 8⟩,
    ⟨ascii "XETHZUSD", some (ascii "ETHUSD"), some (ascii "ETH/USD"), some 2, some 8⟩]

def krakenConnection (symbols : List Bytes) : Config.Connection where
  id := ascii "kraken-a"
  exchange := .kraken
  symbols := symbols

theorem single_symbol_checksum :
    resolveBookSettings (krakenConnection [ascii "BTC/USD"]) (some listedPairs) = .ok ⟨.krakenJson, ⟨1, 8⟩, 10⟩ ∧
    ∀ pair, listedPairs.findAssetPair (ascii "BTC/USD") = some pair → ∀ own shared,
      SameBook pair.scale ⟨1, 8⟩ own shared → krakenL3Checksum shared = krakenL3Checksum own := by
  have hresolved : resolveBookSettings (krakenConnection [ascii "BTC/USD"]) (some listedPairs) =
      .ok ⟨.krakenJson, ⟨1, 8⟩, 10⟩ := by decide +kernel
  refine ⟨hresolved, (shared_scale_checksum_iff _ listedPairs _ rfl hresolved).2 ?_ _ List.mem_cons_self⟩
  intro symbol hsymbol symbol' hsymbol' pair pair' hfound hfound'
  obtain rfl := List.mem_singleton.1 hsymbol
  obtain rfl := List.mem_singleton.1 hsymbol'
  rw [hfound, Option.some.injEq] at hfound'
  rw [hfound']
  exact ⟨rfl, rfl⟩

/-- With ether on the connection, a bitcoin book of one order of 1.0 at 60000.5 is summed as
the text of 6000050 and not of 600005. -/
theorem finer_symbol_breaks_checksum :
    ∃ settings pair own shared,
      resolveBookSettings (krakenConnection [ascii "BTC/USD", ascii "ETH/USD"]) (some listedPairs) = .ok settings ∧
      listedPairs.findAssetPair (ascii "BTC/USD") = some pair ∧ SameBook pair.scale settings.scale own shared ∧
      krakenL3Checksum shared ≠ krakenL3Checksum own := by
  refine ⟨⟨.krakenJson, ⟨2, 8⟩, 10⟩, ⟨ascii "XXBTZUSD", ascii "XBTUSD", ascii "XBT/USD", 1, 8⟩,
    ⟨[], [⟨600005, 100000000⟩]⟩, ⟨[], [⟨6000050, 100000000⟩]⟩, ?_, ?_, ?_, ?_⟩
  · decide +kernel
  · decide +kernel
  · exact ⟨List.Forall₂.nil, List.Forall₂.cons ⟨by decide, by decide⟩ List.Forall₂.nil⟩
  · decide +kernel

end Wiring

end CryptoTrader
