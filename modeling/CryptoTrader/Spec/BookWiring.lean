import CryptoTrader.Spec.Adapter
import CryptoTrader.Spec.AssetPairs

/-! What the books of a connection are built with (`book_adapter/book_wiring.cpp`), from
its entry in the configuration and Kraken's reference data. The configuration accepts
depths and decimals that are not negative, so they are natural numbers. -/

namespace CryptoTrader

namespace Config

inductive Exchange where
  | kraken
  | deribit
  deriving DecidableEq, Repr

/-- The keys of an entry that the books read. -/
structure Connection where
  id : Bytes
  exchange : Exchange
  symbols : List Bytes
  depth : ℕ := 10
  priceDecimals : Option ℕ := none
  quantityDecimals : Option ℕ := none
  deriving DecidableEq, Repr

def kMaxDecimals : ℕ := 15

end Config

def resolveDeribit (entry : Config.Connection) : Except Bytes BookSettings :=
  match entry.priceDecimals, entry.quantityDecimals with
  | some priceDecimals, some quantityDecimals =>
    .ok ⟨.deribitFix, ⟨priceDecimals, quantityDecimals⟩, kDefaultKrakenDepth⟩
  | _, _ => .error (ascii ("deribit needs both price_decimals and quantity_decimals to build " ++
      "books: it has no instrument lookup to take the scale from"))

/-- The decimals of a pair as a scale. -/
def AssetPair.scale (pair : AssetPair) : InstrumentScale := ⟨pair.priceDecimals.toNat, pair.qtyDecimals.toNat⟩

/-- The loop over the symbols of an entry. One scale serves every symbol on the
connection. -/
def finestScale (rest : RestClient) : InstrumentScale → List Bytes → Except Bytes InstrumentScale
  | scale, [] => .ok scale
  | scale, symbol :: symbols =>
    match rest.findAssetPair symbol with
    | none =>
      .error (ascii "no AssetPairs entry for " ++ symbol ++ ascii " (the lookup failed, or the symbol is misspelled)")
    | some pair =>
      if pair.priceDecimals < 0 ∨ pair.qtyDecimals < 0 ∨ pair.priceDecimals > Config.kMaxDecimals ∨
          pair.qtyDecimals > Config.kMaxDecimals then
        .error (ascii "AssetPairs decimals for " ++ symbol ++ ascii " are out of range")
      else
        finestScale rest ⟨max scale.priceDecimals pair.scale.priceDecimals,
          max scale.quantityDecimals pair.scale.quantityDecimals⟩ symbols

def resolveKraken (entry : Config.Connection) (rest : Option RestClient) : Except Bytes BookSettings :=
  match rest with
  | none => .error (ascii "no Kraken instrument lookup is available")
  | some rest => (finestScale rest ⟨0, 0⟩ entry.symbols).map fun scale => ⟨.krakenJson, scale, entry.depth⟩

def resolveBookSettings (entry : Config.Connection) (rest : Option RestClient) : Except Bytes BookSettings :=
  match entry.exchange with
  | .kraken => resolveKraken entry rest
  | .deribit => resolveDeribit entry

end CryptoTrader
