import CryptoTrader.Spec.Types

/-! Kraken's instrument reference data (`feed_handler/kraken/kraken_rest_client.cpp`): the
AssetPairs table and the lookup of a pair by any of its names. An entry is what the JSON
library reads of one member of the response's `result`; the tick size is left out. -/

namespace CryptoTrader

structure AssetPair where
  restName : Bytes
  altname : Bytes
  wsName : Bytes
  priceDecimals : Int
  qtyDecimals : Int
  deriving DecidableEq, Repr

/-- One member of `result`, with the fields that were there. -/
structure AssetPairEntry where
  key : Bytes
  altname : Option Bytes
  wsname : Option Bytes
  pairDecimals : Option Int
  lotDecimals : Option Int
  deriving DecidableEq, Repr

/-- `static_cast<int>` of a 64-bit number. -/
def castInt (number : Int) : Int := number.bmod (2 ^ 32)

def AssetPairEntry.parsed (entry : AssetPairEntry) : AssetPair where
  restName := entry.key
  altname := entry.altname.getD []
  wsName := entry.wsname.getD []
  priceDecimals := (entry.pairDecimals.map castInt).getD 0
  qtyDecimals := (entry.lotDecimals.map castInt).getD 0

/-- `std::toupper` in the C locale. -/
def toUpper (byte : UInt8) : UInt8 := if 97 ≤ byte ∧ byte ≤ 122 then byte - 32 else byte

/-- Every "XBT" becomes "BTC", from the left. -/
def replaceXbt : Bytes → Bytes
  | 88 :: 66 :: 84 :: rest => 66 :: 84 :: 67 :: replaceXbt rest
  | byte :: rest => byte :: replaceXbt rest
  | [] => []

def normalizeSymbol (name : Bytes) : Bytes := replaceXbt (name.map toUpper)

/-- The two maps of the client's cache. -/
structure RestClient where
  pairs : List (Bytes × AssetPair) := []
  aliases : List (Bytes × Bytes) := []
  deriving DecidableEq, Repr

namespace RestClient

/-- `insert_or_assign`. -/
def insertAlias (client : RestClient) (name restName : Bytes) : RestClient :=
  { client with aliases := (name, restName) :: client.aliases.filter (·.1 ≠ name) }

def indexPair (client : RestClient) (restName name : Bytes) : RestClient :=
  if name = [] then client else (client.insertAlias name restName).insertAlias (normalizeSymbol name) restName

/-- `pairs_.emplace`: the first pair of a name stays. -/
def emplacePair (client : RestClient) (pair : AssetPair) : RestClient :=
  if (client.pairs.lookup pair.restName).isSome then client
  else { client with pairs := (pair.restName, pair) :: client.pairs }

/-- One round of the loop of `ParseAssetPairs`. -/
def addEntry (client : RestClient) (entry : AssetPairEntry) : RestClient :=
  let client := client.emplacePair entry.parsed
  let stored := (client.pairs.lookup entry.key).getD entry.parsed
  ((client.indexPair entry.key entry.key).indexPair entry.key stored.altname).indexPair entry.key stored.wsName

/-- `ParseAssetPairs` of a response with a `result`. -/
def parseAssetPairs (entries : List AssetPairEntry) : RestClient := entries.foldl addEntry {}

def findAssetPair (client : RestClient) (name : Bytes) : Option AssetPair :=
  match client.aliases.lookup name with
  | some restName => client.pairs.lookup restName
  | none => (client.aliases.lookup (normalizeSymbol name)).bind fun restName => client.pairs.lookup restName

end RestClient

end CryptoTrader
