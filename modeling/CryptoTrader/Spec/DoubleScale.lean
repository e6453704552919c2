import CryptoTrader.Lib.FloatRound
import CryptoTrader.Spec.Wire

/-! The numbers of the wire parsers as IEEE doubles (`order_book/instrument_scale.h`, and the
`get<double>` of `order_book/kraken_l3_wire.h`). A double is its value: what an operation
returns is the exact result, rounded. The parsers' JSON library keeps a number's exact value
until it is asked for a double, and reads no number that is out of range for one. -/

namespace CryptoTrader

/-- A number as the nearest binary64 value. -/
def double (x : ℚ) : ℚ := FloatRound.round 53 (-1074) x

/-- `std::llround`. Out of the range of 64 bits its result is not specified. -/
def llround (unspecified : ℚ → ℤ) (x : ℚ) : ℤ :=
  let nearest := FloatRound.nearestAway x
  if -2 ^ 63 ≤ nearest ∧ nearest < 2 ^ 63 then nearest else unspecified x

namespace InstrumentScale

/-- `Pow10`, one multiplication after the other. -/
def pow10 : ℕ → ℚ
  | 0 => 1
  | decimals + 1 => double (pow10 decimals * 10)

variable (scale : InstrumentScale) (unspecified : ℚ → ℤ)

def toPrice (value : ℚ) : Price := llround unspecified (double (value * pow10 scale.priceDecimals))

def toQuantity (value : ℚ) : Quantity := llround unspecified (double (value * pow10 scale.quantityDecimals))

def fromPrice (price : Price) : ℚ := double (double price / pow10 scale.priceDecimals)

def fromQuantity (quantity : Quantity) : ℚ := double (double quantity / pow10 scale.quantityDecimals)

end InstrumentScale

/-- The libraries that the parsers of a process are built with. -/
structure WireLibraries where
  parseJson : Bytes → Option (Json ℚ)
  /-- The number that `std::from_chars` reads in a text, before it is rounded. -/
  readDecimal : Bytes → Option ℚ
  hashOrderId : Bytes → OrderId
  unspecified : ℚ → ℤ

/-- The parsers over doubles. -/
def WireLibraries.platform (libraries : WireLibraries) : Platform ℚ ℚ where
  parseJson := libraries.parseJson
  toDouble := double
  toUint32 value := BitVec.ofInt 32 (value.num.tdiv value.den)
  parseDecimal text := (libraries.readDecimal text).map double
  zero := 0
  isNegative value := decide (value < 0)
  scaled decimals value := llround libraries.unspecified (double (value * InstrumentScale.pow10 decimals))
  hashOrderId := libraries.hashOrderId

end CryptoTrader
