import CryptoTrader.Spec.BookWiring

/-! The symbols of a connection in the configuration (`feed_handler/config/feed_handler_config.cpp`),
as they are checked before they are put into a request. A node of the TOML library is what
the code looks at of it. -/

namespace CryptoTrader.Config

def kMaxSymbolLength : ℕ := 64
def kMaxSymbolsPerConnection : ℕ := 200

/-- The traits of an exchange that the symbols are checked by. -/
structure ExchangeTraits where
  name : Bytes
  maxSymbolsPerConnection : ℕ
  deriving DecidableEq, Repr

/-- Deribit's limit is the largest `std::size_t`. -/
def traitsOf : Exchange → ExchangeTraits
  | .kraken => ⟨ascii "kraken", kMaxSymbolsPerConnection⟩
  | .deribit => ⟨ascii "deribit", 2 ^ 64 - 1⟩

def isAsciiAlnum (c : UInt8) : Bool :=
  (97 ≤ c && c ≤ 122) || (65 ≤ c && c ≤ 90) || (48 ≤ c && c ≤ 57)

/-- Letters, digits, `_`, `-`, `.` and `/`. -/
def isSymbolChar (c : UInt8) : Bool := isAsciiAlnum c || c == 95 || c == 45 || c == 46 || c == 47

def isValidSymbol (symbol : Bytes) : Bool :=
  if symbol = [] ∨ symbol.length > kMaxSymbolLength then false else symbol.all isSymbolChar

/-- The node of the key `symbols`: an array, of which each element is a string or not. -/
inductive SymbolsNode where
  | array (elements : List (Option Bytes))
  | other
  deriving DecidableEq, Repr

/-- The loop over the elements. What was seen is what was taken. -/
def takeSymbols (place : Bytes) : List Bytes → List (Option Bytes) → Except Bytes (List Bytes)
  | symbols, [] => .ok symbols
  | _, none :: _ => .error (place ++ ascii ": 'symbols' must contain only strings")
  | symbols, some text :: elements =>
    if isValidSymbol text = false then
      .error (place ++ ascii ": invalid symbol '" ++ text ++ ascii "' (letters, digits and _ - . / only, at most " ++
        natText kMaxSymbolLength ++ ascii " characters)")
    else if text ∈ symbols then .error (place ++ ascii ": duplicate symbol '" ++ text ++ ascii "'")
    else takeSymbols place (symbols ++ [text]) elements

def parseSymbols (node : Option SymbolsNode) (exchange : Exchange) (place : Bytes) : Except Bytes (List Bytes) :=
  match node with
  | none => .error (place ++ ascii ": missing required key 'symbols'")
  | some .other => .error (place ++ ascii ": 'symbols' must be an array of strings")
  | some (.array elements) =>
    if elements = [] then .error (place ++ ascii ": 'symbols' must not be empty")
    else if elements.length > (traitsOf exchange).maxSymbolsPerConnection then
      .error (place ++ ascii ": " ++ natText elements.length ++ ascii " symbols exceeds " ++ (traitsOf exchange).name ++
        ascii "'s limit of " ++ natText (traitsOf exchange).maxSymbolsPerConnection ++
        ascii " per connection; split them across several [[connections]]")
    else takeSymbols place [] elements

end CryptoTrader.Config
