import CryptoTrader.Spec.FeedConfig

/-! The configuration of the feed handler, once the TOML library has parsed its text
(`feed_handler/config/feed_handler_config.cpp`), and the connections a command line
selects from it (`feed_handler/selection.cpp`). The checks stand in the source's order
and fail with its messages. -/

namespace CryptoTrader.Config

section Names

def kMaxIdLength : ℕ := 48

def isLowerAlnum (c : UInt8) : Bool := (97 ≤ c && c ≤ 122) || (48 ≤ c && c ≤ 57)

/-- Lowercase letters, digits, `_` and `-`, starting with a letter or digit. -/
def isValidId (id : Bytes) : Bool :=
  if id = [] ∨ id.length > kMaxIdLength then false
  else id.head?.any isLowerAlnum && id.all fun c => isLowerAlnum c || c == 95 || c == 45

/-- A POSIX-portable environment variable name. -/
def isValidEnvName (name : Bytes) : Bool :=
  if name = [] ∨ name.head?.any Fix.isDigit then false else name.all fun c => isAsciiAlnum c || c == 95

/-- Where an error is: the entry, and its id once it is known. -/
def label (index : ℕ) (id : Bytes) : Bytes :=
  ascii "connections[" ++ natText index ++ ascii "]" ++
    if id = [] then [] else ascii " (" ++ id ++ ascii ")"

/-- Texts one after another, a separator before each that something stands in front of. -/
def joinTexts (separator : Bytes) (texts : List Bytes) : Bytes :=
  texts.foldl (fun joined text => joined ++ (if joined = [] then [] else separator) ++ text) []

end Names

section Traits

inductive Environment where
  | prod
  | testnet
  deriving DecidableEq, Repr

def Environment.toText : Environment → Bytes
  | .prod => ascii "prod"
  | .testnet => ascii "testnet"

inductive EndpointKind where
  | webSocketUrl
  | hostPort
  deriving DecidableEq, Repr

/-- The traits of an exchange that the other keys of an entry are checked by. An empty
default means that the entry has to say where to connect. -/
structure EntryTraits where
  feed : Bytes
  hasTestnet : Bool
  endpointKind : EndpointKind
  defaultProdEndpoint : Bytes
  defaultTestnetEndpoint : Bytes
  deriving DecidableEq, Repr

def entryTraitsOf : Exchange → EntryTraits
  | .kraken => ⟨ascii "level3", false, .webSocketUrl, ascii "wss://ws-l3.kraken.com/v2", []⟩
  | .deribit => ⟨ascii "book", true, .hostPort, [], ascii "fix-test.deribit.com:9881"⟩

def EntryTraits.defaultEndpoint (traits : EntryTraits) : Environment → Bytes
  | .prod => traits.defaultProdEndpoint
  | .testnet => traits.defaultTestnetEndpoint

def kSupportedDepths : List ℕ := [10, 100, 1000]
def kDefaultDepth : ℕ := 10

def kAllExchanges : List Exchange := [.kraken, .deribit]

def exchangeFromString (name : Bytes) : Option Exchange :=
  kAllExchanges.find? fun exchange => (traitsOf exchange).name = name

def exchangeNames (separator : Bytes) : Bytes :=
  joinTexts separator (kAllExchanges.map fun exchange => (traitsOf exchange).name)

end Traits

section Endpoints

structure HostPort where
  host : Bytes := []
  port : ℕ := 0
  deriving DecidableEq, Repr

def isValidWebSocketUrl (url : Bytes) : Bool :=
  ((ascii "wss://").isPrefixOf url || (ascii "ws://").isPrefixOf url) &&
    url.all (fun c => c ∉ ascii " \t\r\n\"\\") && url.length > (ascii "wss://").length

def kColon : UInt8 := 58

/-- `std::from_chars` of an unsigned 16-bit value, the whole text. -/
def toPort (text : Bytes) : Option ℕ :=
  if text ≠ [] ∧ text.all Fix.isDigit ∧ Fix.decimalValue text < 2 ^ 16 then some (Fix.decimalValue text) else none

/-- The endpoint is cut at its last colon. -/
def parseHostPort (endpoint : Bytes) : Except Bytes HostPort :=
  let portText := (endpoint.reverse.takeWhile (· ≠ kColon)).reverse
  let host := endpoint.take (endpoint.length - portText.length - 1)
  if kColon ∉ endpoint ∨ host = [] ∨ portText = [] then
    .error (ascii "expected host:port, got '" ++ endpoint ++ ascii "'")
  else if host.all (fun c => isAsciiAlnum c || c == 45 || c == 46) = false then
    .error (ascii "invalid host in '" ++ endpoint ++ ascii "'")
  else
    match toPort portText with
    | none | some 0 => .error (ascii "invalid port in '" ++ endpoint ++ ascii "'")
    | some port => .ok ⟨host, port⟩

end Endpoints

section Tables

/-- A node of a table. Of the elements of an array the code looks at one thing: whether a
symbol is a string, and whether a connection is a table. -/
inductive Node (ε : Type) where
  | string (text : Bytes)
  | integer (value : Int)
  | boolean (value : Bool)
  | array (elements : List ε)
  | other
  deriving DecidableEq, Repr

/-- The keys of a table, in the order in which the library goes through them. -/
abbrev Table (ε : Type) := List (Bytes × Node ε)

abbrev EntryTable := Table (Option Bytes)

abbrev RootTable := Table (Option EntryTable)

variable {ε : Type}

def Table.get (table : Table ε) (key : Bytes) : Option (Node ε) := (table.find? (·.1 = key)).map (·.2)

def rejectUnknownKeys (table : Table ε) (allowed : List Bytes) (place : Bytes) : Except Bytes Unit :=
  match table.find? fun entry => !allowed.contains entry.1 with
  | some (key, _) => .error (place ++ ascii ": unknown key '" ++ key ++ ascii "'")
  | none => .ok ()

def readString (table : Table ε) (key place : Bytes) : Except Bytes (Option Bytes) :=
  match table.get key with
  | none => .ok none
  | some (.string text) => .ok (some text)
  | some _ => .error (place ++ ascii ": '" ++ key ++ ascii "' must be a string")

def readInteger (table : Table ε) (key place : Bytes) : Except Bytes (Option Int) :=
  match table.get key with
  | none => .ok none
  | some (.integer value) => .ok (some value)
  | some _ => .error (place ++ ascii ": '" ++ key ++ ascii "' must be an integer")

def requireString (table : Table ε) (key place : Bytes) : Except Bytes Bytes := do
  match ← readString table key place with
  | some text => .ok text
  | none => .error (place ++ ascii ": missing required key '" ++ key ++ ascii "'")

end Tables

/-- One connection with every key of its entry. -/
structure ConnectionEntry extends Connection where
  env : Environment := .prod
  feed : Bytes
  endpoint : Bytes
  hostPort : HostPort := {}
  apiKeyEnv : Bytes
  apiSecretEnv : Bytes
  deriving DecidableEq, Repr

section Entries

variable (table : EntryTable) (place : Bytes)

def parseExchange : Except Bytes Exchange := do
  let text ← requireString table (ascii "exchange") place
  match exchangeFromString text with
  | some exchange => .ok exchange
  | none => .error (place ++ ascii ": unknown exchange '" ++ text ++ ascii "' (expected " ++
      exchangeNames (ascii " or ") ++ ascii ")")

def parseEnvironment : Except Bytes Environment := do
  let text ← requireString table (ascii "env") place
  if text = ascii "prod" then .ok .prod
  else if text = ascii "testnet" then .ok .testnet
  else .error (place ++ ascii ": unknown env '" ++ text ++ ascii "' (expected \"prod\" or \"testnet\")")

/-- The environment of an entry, if its exchange has it. -/
def supportedEnvironment (exchange : Exchange) : Except Bytes Environment := do
  let env ← parseEnvironment table place
  if env = .testnet ∧ (entryTraitsOf exchange).hasTestnet = false then
    .error (place ++ ascii ": " ++ (traitsOf exchange).name ++
      ascii " supports env = \"prod\" only (it has no testnet)")
  else .ok env

def parseFeed (exchange : Exchange) : Except Bytes Bytes := do
  let supported := (entryTraitsOf exchange).feed
  match ← readString table (ascii "feed") place with
  | none => .ok supported
  | some feed =>
    if feed = supported then .ok supported
    else .error (place ++ ascii ": unsupported feed '" ++ feed ++ ascii "' for " ++ (traitsOf exchange).name ++
      ascii " (only \"" ++ supported ++ ascii "\")")

/-- The node of `symbols` as its check sees it. -/
def Node.symbols : Node (Option Bytes) → SymbolsNode
  | .array elements => .array elements
  | _ => .other

/-- `depth`, a key of Kraken's. -/
def readDepth (exchange : Exchange) : Except Bytes ℕ := do
  match ← readInteger table (ascii "depth") place with
  | none => .ok kDefaultDepth
  | some depth =>
    if exchange ≠ .kraken then
      .error (place ++ ascii ": 'depth' is a kraken key; " ++ (traitsOf exchange).name ++
        ascii " has no subscribed depth")
    else
      match kSupportedDepths.find? fun supported : ℕ => (supported : Int) = depth with
      | some supported => .ok supported
      | none => .error (place ++ ascii ": 'depth' must be one of " ++
          joinTexts (ascii ", ") (kSupportedDepths.map natText) ++ ascii " (got " ++ intText depth ++ ascii ")")

/-- `price_decimals` and `quantity_decimals`, keys of Deribit's. -/
def readDecimals (exchange : Exchange) (key : Bytes) : Except Bytes (Option ℕ) := do
  match ← readInteger table key place with
  | none => .ok none
  | some value =>
    if exchange = .kraken then
      .error (place ++ ascii ": '" ++ key ++
        ascii "' is a deribit key; kraken's scale comes from the AssetPairs lookup")
    else if value < 0 ∨ value > kMaxDecimals then
      .error (place ++ ascii ": '" ++ key ++ ascii "' must be an integer from 0 to " ++ natText kMaxDecimals ++
        ascii " (got " ++ intText value ++ ascii ")")
    else .ok (some value.toNat)

/-- The endpoint of an entry or its exchange's default, and the host and port of one that
is not a URL. A default is checked as well. -/
def resolveEndpoint (exchange : Exchange) (env : Environment) : Except Bytes (Bytes × HostPort) := do
  let traits := entryTraitsOf exchange
  let given ← readString table (ascii "endpoint") place
  let endpoint := given.getD (traits.defaultEndpoint env)
  if given = none ∧ endpoint = [] then
    .error (place ++ ascii ": no default endpoint for " ++ (traitsOf exchange).name ++ ascii " " ++ env.toText ++
      ascii "; set 'endpoint'")
  else
    match traits.endpointKind with
    | .webSocketUrl =>
      if isValidWebSocketUrl endpoint then .ok (endpoint, {})
      else .error (place ++ ascii ": invalid endpoint '" ++ endpoint ++ ascii "' (expected a ws:// or wss:// URL)")
    | .hostPort =>
      match parseHostPort endpoint with
      | .ok hostPort => .ok (endpoint, hostPort)
      | .error _ => .error (place ++ ascii ": invalid endpoint '" ++ endpoint ++ ascii "' (expected host:port)")

def requireEnvName (key : Bytes) : Except Bytes Bytes := do
  let name ← requireString table key place
  if isValidEnvName name then .ok name
  else .error (place ++ ascii ": '" ++ key ++
    ascii "' must be the NAME of an environment variable, never the credential itself")

/-- `ParseConnection` once the entry has an id. -/
def parseEntry (id : Bytes) : Except Bytes ConnectionEntry := do
  let exchange ← parseExchange table place
  let env ← supportedEnvironment table place exchange
  let feed ← parseFeed table place exchange
  let symbols ← parseSymbols ((table.get (ascii "symbols")).map Node.symbols) exchange place
  let depth ← readDepth table place exchange
  let priceDecimals ← readDecimals table place exchange (ascii "price_decimals")
  let quantityDecimals ← readDecimals table place exchange (ascii "quantity_decimals")
  let (endpoint, hostPort) ← resolveEndpoint table place exchange env
  let apiKeyEnv ← requireEnvName table place (ascii "api_key_env")
  let apiSecretEnv ← requireEnvName table place (ascii "api_secret_env")
  if apiKeyEnv = apiSecretEnv then
    .error (place ++ ascii ": 'api_key_env' and 'api_secret_env' name the same variable")
  else
    .ok { id, exchange, symbols, depth, priceDecimals, quantityDecimals, env, feed, endpoint, hostPort, apiKeyEnv,
          apiSecretEnv }

end Entries

def kConnectionKeys : List Bytes :=
  ["id", "exchange", "env", "feed", "symbols", "endpoint", "api_key_env", "api_secret_env", "depth",
    "price_decimals", "quantity_decimals"].map ascii

def parseConnection (table : EntryTable) (index : ℕ) : Except Bytes ConnectionEntry := do
  rejectUnknownKeys table kConnectionKeys (label index [])
  let id ← requireString table (ascii "id") (label index [])
  if isValidId id = false then
    .error (label index id ++ ascii ": 'id' must be lowercase letters, digits, _ and - (at most " ++
      natText kMaxIdLength ++ ascii " characters); it names the journal files")
  else parseEntry table (label index id) id

/-- The loop over the entries. The index of an entry is the number of those taken before
it, and the ids seen are theirs. -/
def takeConnections : List ConnectionEntry → List EntryTable → Except Bytes (List ConnectionEntry)
  | taken, [] => .ok taken
  | taken, table :: tables => do
    let entry ← parseConnection table taken.length
    if (taken.map (·.id)).contains entry.id then
      .error (label taken.length entry.id ++ ascii ": duplicate connection id")
    else takeConnections (taken ++ [entry]) tables

structure FeedHandlerConfig where
  journalDir : Bytes := ascii "journal"
  stateDir : Bytes := ascii "state"
  orderBooks : Bool := false
  connections : List ConnectionEntry
  deriving DecidableEq, Repr

def kRootKeys : List Bytes := ["journal_dir", "state_dir", "order_books", "connections"].map ascii

section Root

variable (root : RootTable)

def readPath (key fallback : Bytes) : Except Bytes Bytes := do
  match ← readString root key (ascii "config") with
  | none => .ok fallback
  | some text =>
    if text = [] then .error (ascii "config" ++ ascii ": '" ++ key ++ ascii "' must not be empty") else .ok text

def readOrderBooks : Except Bytes Bool :=
  match root.get (ascii "order_books") with
  | none => .ok false
  | some (.boolean value) => .ok value
  | some _ => .error (ascii "config" ++ ascii ": 'order_books' must be a boolean")

/-- An empty array is reported before its elements are looked at. -/
def readConnections : Except Bytes (List EntryTable) :=
  match root.get (ascii "connections") with
  | none => .error (ascii "config" ++ ascii ": missing required [[connections]] table")
  | some (.array []) => .error (ascii "config" ++ ascii ": at least one [[connections]] entry is required")
  | some (.array elements) =>
    if elements.all (·.isSome) then .ok (elements.filterMap id)
    else .error (ascii "config" ++ ascii ": 'connections' must be an array of tables ([[connections]])")
  | some _ => .error (ascii "config" ++ ascii ": 'connections' must be an array of tables ([[connections]])")

def parseConfig : Except Bytes FeedHandlerConfig := do
  rejectUnknownKeys root kRootKeys (ascii "config")
  let journalDir ← readPath root (ascii "journal_dir") (ascii "journal")
  let stateDir ← readPath root (ascii "state_dir") (ascii "state")
  let orderBooks ← readOrderBooks root
  let tables ← readConnections root
  let connections ← takeConnections [] tables
  .ok { journalDir, stateDir, orderBooks, connections }

end Root

/-- The filters of a command line. -/
structure CommandLine where
  exchange : Option Exchange := none
  onlyIds : List Bytes := []
  deriving DecidableEq, Repr

namespace CommandLine

/-- The filters as an error tells them. -/
def describe (commandLine : CommandLine) : Bytes :=
  joinTexts (ascii ", ")
    ((commandLine.exchange.map fun exchange => ascii "--exchange " ++ (traitsOf exchange).name).toList ++
      commandLine.onlyIds.map fun id => ascii "--only " ++ id)

def admits (commandLine : CommandLine) (connection : ConnectionEntry) : Bool :=
  (commandLine.onlyIds.isEmpty || commandLine.onlyIds.contains connection.id) &&
    commandLine.exchange.all (connection.exchange = ·)

end CommandLine

def selectConnections (config : FeedHandlerConfig) (commandLine : CommandLine) : Except Bytes (List ConnectionEntry) :=
  match commandLine.onlyIds.find? fun id => !(config.connections.map (·.id)).contains id with
  | some id =>
    .error (ascii "--only names unknown connection id '" ++ id ++ ascii "' (configured: " ++
      joinTexts (ascii ", ") (config.connections.map (·.id)) ++ ascii ")")
  | none =>
    let selected := config.connections.filter commandLine.admits
    if selected = [] then
      .error (ascii "no configured connection matches " ++
        if commandLine.describe = [] then ascii "the selection" else ascii "(" ++ commandLine.describe ++ ascii ")")
    else .ok selected

end CryptoTrader.Config
