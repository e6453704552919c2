import CryptoTrader.Spec.KrakenFeed

/-! Doubles lose nothing of the prices and quantities of an exchange: below 2^51 units, what
the parsers make of a decimal is the number of units it states. So the parser of level3
messages returns the orders that a message states. -/

namespace CryptoTrader

open FloatRound

/-- A number that is no smaller than 10^-15 is not subnormal. -/
theorem double_near {x : ℚ} (hx : 1 / 10 ^ 15 ≤ |x|) : |double x - x| ≤ |x| * 2 ^ (-53 : ℤ) := by
  refine abs_round_sub_le_mul (le_trans ?_ hx)
  calc (2 : ℚ) ^ ((-1074 : ℤ) + (53 : ℕ) - 1) ≤ 2 ^ (-50 : ℤ) := zpow_le_zpow_right₀ (by norm_num) (by norm_num)
    _ ≤ 1 / 10 ^ 15 := by norm_num

theorem double_zero : double 0 = 0 := by
  have hzero : round 53 (-1074) ((0 : ℤ) : ℚ) = ((0 : ℤ) : ℚ) := round_intCast (by norm_num) (by norm_num)
  exact_mod_cast hzero

/-- Two roundings leave a number below 2^51 less than half a unit off. -/
theorem double_mul_near {m : ℤ} {factor value : ℚ} (hm : |m| < kExactUnits) (hfactor : 0 < factor)
    (hvalue : |value - m / factor| ≤ |(m : ℚ) / factor| * 2 ^ (-53 : ℤ)) : |double (value * factor) - m| < 1 / 2 := by
  rcases eq_or_ne m 0 with rfl | hne
  · have hzero : value = 0 := by
      rw [Int.cast_zero, zero_div, abs_zero, zero_mul, sub_zero] at hvalue
      exact abs_nonpos_iff.1 hvalue
    rw [hzero, zero_mul, double_zero, Int.cast_zero, sub_zero, abs_zero]
    norm_num
  · have hlarge : (1 : ℚ) ≤ |(m : ℚ)| := by exact_mod_cast Int.one_le_abs hne
    have hbound : |(m : ℚ)| ≤ 2 ^ 51 - 1 := by exact_mod_cast Int.le_sub_one_of_lt hm
    -- the first rounding, as an error of the product
    have hproduct : |value * factor - m| ≤ |(m : ℚ)| * 2 ^ (-53 : ℤ) := by
      calc |value * factor - m| = |(value - m / factor) * factor| := by rw [sub_mul, div_mul_cancel₀ _ hfactor.ne']
        _ = |value - m / factor| * factor := by rw [abs_mul, abs_of_pos hfactor]
        _ ≤ |(m : ℚ) / factor| * 2 ^ (-53 : ℤ) * factor := by gcongr
        _ = |(m : ℚ)| * 2 ^ (-53 : ℤ) := by
            rw [abs_div, abs_of_pos hfactor, mul_right_comm, div_mul_cancel₀ _ hfactor.ne']
    generalize value * factor = product at hproduct ⊢
    have hupper := abs_sub_abs_le_abs_sub product (m : ℚ)
    have hlower : 1 / 10 ^ 15 ≤ |product| := by
      have hsplit := abs_sub_abs_le_abs_sub (m : ℚ) product
      rw [abs_sub_comm] at hsplit
      norm_num at hproduct ⊢
      linarith
    have hround := double_near hlower
    have htotal := abs_sub_le (double product) product (m : ℚ)
    norm_num at hround hproduct ⊢
    linarith

namespace InstrumentScale

theorem pow10_eq {decimals : ℕ} (h : decimals ≤ 15) : pow10 decimals = 10 ^ decimals := by
  induction decimals with
  | zero => rfl
  | succ n ih =>
    have hsmall : |(10 ^ (n + 1) : ℤ)| < 2 ^ 53 := by
      rw [abs_of_pos (by positivity)]
      calc (10 : ℤ) ^ (n + 1) ≤ 10 ^ 15 := pow_le_pow_right₀ (by norm_num) h
        _ < 2 ^ 53 := by norm_num
    have hround : round 53 (-1074) ((10 ^ (n + 1) : ℤ) : ℚ) = ((10 ^ (n + 1) : ℤ) : ℚ) :=
      round_intCast hsmall (by norm_num)
    rw [pow10, ih (by omega), ← pow_succ]
    exact_mod_cast hround

/-- The exact value of a number of units, rounded once. -/
theorem double_units_near {m : ℤ} {decimals : ℕ} (h : decimals ≤ 15) :
    |double (m / 10 ^ decimals) - m / 10 ^ decimals| ≤ |(m : ℚ) / 10 ^ decimals| * 2 ^ (-53 : ℤ) := by
  rcases eq_or_ne m 0 with rfl | hne
  · rw [Int.cast_zero, zero_div, double_zero, sub_zero, abs_zero, zero_mul]
  · apply double_near
    have hlarge : (1 : ℚ) ≤ |(m : ℚ)| := by exact_mod_cast Int.one_le_abs hne
    have hpow : (10 : ℚ) ^ decimals ≤ 10 ^ 15 := pow_le_pow_right₀ (by norm_num) h
    rw [abs_div, abs_of_pos (by positivity : (0 : ℚ) < 10 ^ decimals)]
    gcongr

end InstrumentScale

/-- What the parsers make of a decimal is the number of units it states. -/
theorem scaled_exact {unspecified : ℚ → ℤ} {m : ℤ} {decimals : ℕ} (h : decimals ≤ 15) (hm : |m| < kExactUnits) :
    llround unspecified (double (double (m / 10 ^ decimals) * InstrumentScale.pow10 decimals)) = m := by
  have hnear := double_mul_near hm (by positivity) (InstrumentScale.double_units_near (m := m) h)
  rw [InstrumentScale.pow10_eq h]
  have hnearest := nearestAway_eq hnear
  have hunits : kExactUnits = 2 ^ 51 := rfl
  obtain ⟨hlow, hhigh⟩ := abs_lt.1 hm
  rw [llround, hnearest, if_pos ⟨by omega, by omega⟩]

section Messages

variable (libraries : WireLibraries) {scale : InstrumentScale}

theorem StatesUnits.double_scaled {entry : Json ℚ} {key : Bytes} {units : ℤ} {decimals : ℕ}
    (h : StatesUnits entry key units decimals) (hdecimals : decimals ≤ 15) :
    ∃ value, entry.member? key = some (.num value) ∧
      libraries.platform.scaled decimals (libraries.platform.toDouble value) = units :=
  ⟨_, h.member, scaled_exact hdecimals h.small⟩

variable {libraries}

theorem toEventKind_wireText (event : OrderEventKind) : toEventKind event.wireText = some event := by
  cases event <;> decide

theorem StatesOrder.krakenEntry {side : Side} {entry : Json ℚ} {u : KrakenL3Update}
    (h : StatesOrder libraries scale side entry u) (hprice : scale.priceDecimals ≤ 15)
    (hquantity : scale.quantityDecimals ≤ 15) : krakenEntry libraries.platform scale side entry = some u := by
  have hevent : entryEvent entry = some u.update.event := by
    unfold entryEvent
    rcases h.event with hevent | ⟨hnone, hadded⟩
    · rw [hevent]
      exact toEventKind_wireText _
    · rw [hnone, hadded]
  obtain ⟨raw, hraw, hid⟩ := h.orderId
  obtain ⟨price, hlimit, hp⟩ := h.limitPrice.double_scaled libraries hprice
  obtain ⟨quantity, hqty, hq⟩ := h.orderQty.double_scaled libraries hquantity
  simp only [CryptoTrader.krakenEntry, hevent, hraw, hlimit, hqty, h.timestamp, Json.string?, double?, Option.bind_eq_bind,
    Option.bind_some, Option.pure_def, hp, hq, ← h.side]
  have hhash : libraries.platform.hashOrderId raw = u.update.orderId := hid
  rw [hhash]

theorem mapM_of_forall₂ {α β : Type} {f : α → Option β} {inputs : List α} {outputs : List β}
    (h : List.Forall₂ (fun a b => f a = some b) inputs outputs) : inputs.mapM f = some outputs := by
  induction h with
  | nil => rfl
  | cons hhead _ ih => rw [List.mapM_cons, hhead, ih]; rfl

variable (hprice : scale.priceDecimals ≤ 15) (hquantity : scale.quantityDecimals ≤ 15)
include hprice hquantity

theorem appendSide_stated {side : Side} {data : Json ℚ} {key : Bytes} {entries : List (Json ℚ)}
    {updates : List KrakenL3Update} (hkey : data.member? key = some (.arr entries))
    (h : List.Forall₂ (StatesOrder libraries scale side) entries updates) :
    appendSide libraries.platform scale data side key = some updates := by
  have hall := h.imp fun _ _ hstates => hstates.krakenEntry hprice hquantity
  simp only [appendSide, hkey, Option.bind_eq_bind, Option.bind_some, Json.elements]
  exact mapM_of_forall₂ hall

theorem StatesData.krakenData {isSnapshot : Bool} {data : Json ℚ} {m : KrakenL3Message}
    (h : StatesData libraries scale isSnapshot data m) : krakenData libraries.platform scale isSnapshot data = some m := by
  obtain ⟨bids, asks, bidUpdates, askUpdates, hbids, hasks, horders, hstatesBids, hstatesAsks⟩ := h.orders
  have hchecksum : libraries.platform.toUint32 (m.msgMeta.checksum.toNat : ℚ) = m.msgMeta.checksum := by
    simp [WireLibraries.platform]
  simp only [CryptoTrader.krakenData, h.symbol, h.checksum, appendSide_stated hprice hquantity hbids hstatesBids,
    appendSide_stated hprice hquantity hasks hstatesAsks, Json.string?, uint32?, Option.bind_eq_bind, Option.bind_some,
    Option.pure_def, hchecksum, ← horders, ← h.kind]

theorem StatesMessage.parsed {isSnapshot : Bool} {message : Json ℚ} {messages : List KrakenL3Message}
    (h : StatesMessage libraries scale isSnapshot message messages) :
    parseKrakenL3Messages libraries.platform scale message = some messages := by
  obtain ⟨entries, hdata, hstates⟩ := h.data
  have hall := hstates.imp fun _ _ hdata => hdata.krakenData hprice hquantity
  have htype : ∀ b : Bool, ¬ ((if b then ascii "snapshot" else ascii "update") ≠ ascii "snapshot" ∧
      (if b then ascii "snapshot" else ascii "update") ≠ ascii "update") := by decide
  have hkind : ∀ b : Bool, decide ((if b then ascii "snapshot" else ascii "update") = ascii "snapshot") = b := by decide
  simp only [parseKrakenL3Messages, h.channel, h.type, hdata, Json.string?, Option.bind_eq_bind, Option.bind_some,
    Option.pure_def, ne_eq, not_true_eq_false, if_false, if_neg (htype isSnapshot), hkind, Json.elements]
  exact mapM_of_forall₂ hall

end Messages

/-- The parser returns exactly the orders that a level3 message states in decimals, and a
price or quantity that is written out as a double comes back as itself. -/
theorem kraken_orders_parse_exactly (libraries : WireLibraries) (scale : InstrumentScale)
    (hprice : scale.priceDecimals ≤ 15) (hquantity : scale.quantityDecimals ≤ 15) :
    (∀ isSnapshot message messages, StatesMessage libraries scale isSnapshot message messages →
      parseKrakenL3Messages libraries.platform scale message = some messages) ∧
    (∀ price : Price, |price| < kExactUnits → scale.toPrice libraries.unspecified (scale.fromPrice price) = price) ∧
    ∀ quantity : Quantity, |quantity| < kExactUnits →
      scale.toQuantity libraries.unspecified (scale.fromQuantity quantity) = quantity := by
  have hback : ∀ {units : ℤ} {decimals : ℕ}, decimals ≤ 15 → |units| < kExactUnits →
      llround libraries.unspecified (double (double (double units / InstrumentScale.pow10 decimals) *
        InstrumentScale.pow10 decimals)) = units := by
    intro units decimals hdecimals hsmall
    have hwhole : double units = units :=
      round_intCast (hsmall.trans (by norm_num [kExactUnits])) (by norm_num)
    rw [hwhole]
    nth_rewrite 1 [InstrumentScale.pow10_eq hdecimals]
    exact scaled_exact hdecimals hsmall
  refine ⟨fun isSnapshot message messages h => h.parsed hprice hquantity, fun price hsmall => ?_, fun quantity hsmall => ?_⟩
  · exact hback hprice hsmall
  · exact hback hquantity hsmall

section Witness

def plainLibraries : WireLibraries := ⟨fun _ => none, fun _ => none, fun raw => raw.length, fun _ => 0⟩

/-- A bid of 64123.5 for 0.00120001 is changed. -/
def changedBid : Json ℚ :=
  .obj [(ascii "event", .str (ascii "modify")), (ascii "order_id", .str (ascii "O1")),
    (ascii "limit_price", .num (((641235 : ℤ) : ℚ) / 10 ^ 1)), (ascii "order_qty", .num (((120001 : ℤ) : ℚ) / 10 ^ 8)),
    (ascii "timestamp", .str (ascii "T"))]

def changedMessage : Json ℚ :=
  .obj [(ascii "channel", .str (ascii "level3")), (ascii "type", .str (ascii "update")),
    (ascii "data", .arr [.obj [(ascii "symbol", .str (ascii "BTC/USD")), (ascii "checksum", .num (7 : ℕ)),
      (ascii "bids", .arr [changedBid]), (ascii "asks", .arr [])]])]

theorem changed_bid_parses_exactly :
    parseKrakenL3Messages plainLibraries.platform ⟨1, 8⟩ changedMessage =
        some [⟨false, ascii "BTC/USD", ⟨7⟩, [⟨⟨.modified, 2, .bid, 641235, 120001⟩, ascii "T"⟩]⟩] ∧
      (⟨1, 8⟩ : InstrumentScale).toPrice plainLibraries.unspecified
        ((⟨1, 8⟩ : InstrumentScale).fromPrice 641235) = 641235 := by
  obtain ⟨hparses, hprices, -⟩ := kraken_orders_parse_exactly plainLibraries ⟨1, 8⟩ (by decide) (by decide)
  refine ⟨hparses false _ _ ⟨rfl, rfl, _, rfl, .cons ⟨rfl, rfl, rfl, _, [], _, [], rfl, rfl, (List.append_nil _).symm, ?_, .nil⟩ .nil⟩,
    hprices _ (by decide)⟩
  exact .cons ⟨.inl rfl, ⟨ascii "O1", rfl, rfl⟩, rfl, ⟨rfl, by decide⟩, ⟨rfl, by decide⟩, rfl⟩ .nil

end Witness

end CryptoTrader
