import CryptoTrader.Sanity.MarketData
import CryptoTrader.Spec.ConfigFile

/-! What an accepted configuration satisfies, and what the error of a refused one names. -/

namespace CryptoTrader.Config

/-- What an entry that was accepted satisfies. -/
structure ConnectionEntry.WellFormed (entry : ConnectionEntry) : Prop where
  id : isValidId entry.id = true
  env : entry.env = .testnet → (entryTraitsOf entry.exchange).hasTestnet = true
  feed : entry.feed = (entryTraitsOf entry.exchange).feed
  symbols : ∀ symbol ∈ entry.symbols, isValidSymbol symbol = true
  depth : entry.depth ∈ kSupportedDepths
  decimals : ∀ decimals, entry.priceDecimals = some decimals ∨ entry.quantityDecimals = some decimals →
    entry.exchange ≠ .kraken ∧ decimals ≤ kMaxDecimals
  webSocketUrl : (entryTraitsOf entry.exchange).endpointKind = .webSocketUrl →
    isValidWebSocketUrl entry.endpoint = true
  hostPort : (entryTraitsOf entry.exchange).endpointKind = .hostPort →
    parseHostPort entry.endpoint = .ok entry.hostPort
  apiKeyEnv : isValidEnvName entry.apiKeyEnv = true
  apiSecretEnv : isValidEnvName entry.apiSecretEnv = true
  credentials : entry.apiKeyEnv ≠ entry.apiSecretEnv

section Symbols

variable {place : Bytes} {symbols : List Bytes}

/-- What the loop takes, it has checked. -/
theorem takeSymbols_valid {taken : List Bytes} {elements : List (Option Bytes)}
    (h : takeSymbols place taken elements = .ok symbols) (htaken : ∀ symbol ∈ taken, isValidSymbol symbol = true) :
    ∀ symbol ∈ symbols, isValidSymbol symbol = true := by
  induction elements generalizing taken with
  | nil =>
    cases h
    exact htaken
  | cons element elements ih =>
    cases element with
    | none => cases h
    | some text =>
      rw [takeSymbols] at h
      split_ifs at h with hinvalid hseen
      refine ih h fun symbol hsymbol => ?_
      rcases List.mem_append.1 hsymbol with hold | hnew
      · exact htaken symbol hold
      · rw [List.mem_singleton.1 hnew]
        exact Bool.of_not_eq_false hinvalid

theorem parseSymbols_valid {node : Option SymbolsNode} {exchange : Exchange}
    (h : parseSymbols node exchange place = .ok symbols) : ∀ symbol ∈ symbols, isValidSymbol symbol = true := by
  unfold parseSymbols at h
  split at h
  · cases h
  · cases h
  · split_ifs at h
    exact takeSymbols_valid h (by simp)

end Symbols

section Keys

variable {table : EntryTable} {place : Bytes} {exchange : Exchange}

theorem supportedEnvironment_testnet {env : Environment} (h : supportedEnvironment table place exchange = .ok env) :
    env = .testnet → (entryTraitsOf exchange).hasTestnet = true := by
  simp only [supportedEnvironment, except_bind_eq_ok_iff] at h
  obtain ⟨read, -, h⟩ := h
  split_ifs at h with hunsupported
  cases h
  intro htestnet
  exact Bool.of_not_eq_false fun hnone => hunsupported ⟨htestnet, hnone⟩

theorem parseFeed_supported {feed : Bytes} (h : parseFeed table place exchange = .ok feed) :
    feed = (entryTraitsOf exchange).feed := by
  simp only [parseFeed, except_bind_eq_ok_iff] at h
  obtain ⟨read, -, h⟩ := h
  cases read with
  | none =>
    cases h
    rfl
  | some text =>
    simp only at h
    split_ifs at h
    cases h
    rfl

theorem readDepth_supported {depth : ℕ} (h : readDepth table place exchange = .ok depth) :
    depth ∈ kSupportedDepths := by
  simp only [readDepth, except_bind_eq_ok_iff] at h
  obtain ⟨read, -, h⟩ := h
  cases read with
  | none =>
    cases h
    decide
  | some value =>
    simp only at h
    split_ifs at h
    split at h
    · next supported hfind =>
      cases h
      exact List.mem_of_find?_eq_some hfind
    · cases h

theorem readDecimals_bounded {key : Bytes} {read : Option ℕ} (h : readDecimals table place exchange key = .ok read)
    {decimals : ℕ} (hread : read = some decimals) : exchange ≠ .kraken ∧ decimals ≤ kMaxDecimals := by
  simp only [readDecimals, except_bind_eq_ok_iff] at h
  obtain ⟨value, -, h⟩ := h
  cases value with
  | none =>
    cases h
    cases hread
  | some value =>
    simp only at h
    split_ifs at h with hkraken hrange
    cases h
    cases hread
    exact ⟨hkraken, by omega⟩

theorem resolveEndpoint_checked {env : Environment} {endpoint : Bytes} {hostPort : HostPort}
    (h : resolveEndpoint table place exchange env = .ok (endpoint, hostPort)) :
    ((entryTraitsOf exchange).endpointKind = .webSocketUrl → isValidWebSocketUrl endpoint = true) ∧
      ((entryTraitsOf exchange).endpointKind = .hostPort → parseHostPort endpoint = .ok hostPort) := by
  simp only [resolveEndpoint, except_bind_eq_ok_iff] at h
  obtain ⟨given, -, h⟩ := h
  cases hkind : (entryTraitsOf exchange).endpointKind with
  | webSocketUrl =>
    simp only [hkind] at h
    split_ifs at h with hmissing hvalid
    cases h
    exact ⟨fun _ => hvalid, by simp⟩
  | hostPort =>
    simp only [hkind] at h
    split_ifs at h with hmissing
    split at h
    · next parsed hparsed =>
      cases h
      exact ⟨by simp, fun _ => hparsed⟩
    · cases h

/-- Where an exchange has a default endpoint, it passes the check of one that is given. -/
theorem resolveEndpoint_default {env : Environment} (hkey : table.get (ascii "endpoint") = none)
    (hdefault : (entryTraitsOf exchange).defaultEndpoint env ≠ []) :
    ∃ hostPort, resolveEndpoint table place exchange env =
      .ok ((entryTraitsOf exchange).defaultEndpoint env, hostPort) := by
  have hread : readString table (ascii "endpoint") place = .ok none := by rw [readString, hkey]
  rw [resolveEndpoint, hread]
  cases exchange <;> cases env
  · exact ⟨{}, rfl⟩
  · exact absurd rfl hdefault
  · exact absurd rfl hdefault
  · exact ⟨⟨ascii "fix-test.deribit.com", 9881⟩, rfl⟩

theorem requireEnvName_valid {key name : Bytes} (h : requireEnvName table place key = .ok name) :
    isValidEnvName name = true := by
  simp only [requireEnvName, except_bind_eq_ok_iff] at h
  obtain ⟨read, -, h⟩ := h
  split_ifs at h with hvalid
  cases h
  exact hvalid

theorem parseEntry_wellFormed {id : Bytes} {entry : ConnectionEntry} (hid : isValidId id = true)
    (h : parseEntry table place id = .ok entry) : entry.WellFormed := by
  simp only [parseEntry, except_bind_eq_ok_iff] at h
  obtain ⟨exchange, -, env, henv, feed, hfeed, symbols, hsymbols, depth, hdepth, price, hprice, quantity, hquantity,
    ⟨endpoint, hostPort⟩, hendpoint, apiKeyEnv, hkey, apiSecretEnv, hsecret, h⟩ := h
  simp only at h
  split_ifs at h with hsame
  cases h
  obtain ⟨hurl, hhost⟩ := resolveEndpoint_checked hendpoint
  refine ⟨hid, supportedEnvironment_testnet henv, parseFeed_supported hfeed, parseSymbols_valid hsymbols,
    readDepth_supported hdepth, fun decimals hdecimals => ?_, hurl, hhost, requireEnvName_valid hkey,
    requireEnvName_valid hsecret, hsame⟩
  rcases hdecimals with hdecimals | hdecimals
  · exact readDecimals_bounded hprice hdecimals
  · exact readDecimals_bounded hquantity hdecimals

theorem parseConnection_wellFormed {index : ℕ} {entry : ConnectionEntry} (h : parseConnection table index = .ok entry) :
    entry.WellFormed := by
  simp only [parseConnection, except_bind_eq_ok_iff] at h
  obtain ⟨-, -, id, -, h⟩ := h
  split_ifs at h with hinvalid
  exact parseEntry_wellFormed (Bool.of_not_eq_false hinvalid) h

end Keys

section Connections

/-- The loop keeps what was taken well formed and its ids apart. -/
theorem takeConnections_accepted {taken connections : List ConnectionEntry} {tables : List EntryTable}
    (h : takeConnections taken tables = .ok connections) (hformed : ∀ entry ∈ taken, entry.WellFormed)
    (hids : (taken.map (·.id)).Nodup) :
    (∀ entry ∈ connections, entry.WellFormed) ∧ (connections.map (·.id)).Nodup := by
  induction tables generalizing taken with
  | nil =>
    cases h
    exact ⟨hformed, hids⟩
  | cons table tables ih =>
    simp only [takeConnections, except_bind_eq_ok_iff] at h
    obtain ⟨entry, hentry, h⟩ := h
    split_ifs at h with hseen
    refine ih h (fun other hother => ?_) ?_
    · rcases List.mem_append.1 hother with hold | hnew
      · exact hformed other hold
      · rw [List.mem_singleton.1 hnew]
        exact parseConnection_wellFormed hentry
    · rw [List.map_append, List.map_singleton]
      refine List.nodup_append.2 ⟨hids, List.nodup_singleton _, fun id hid last hlast heq => ?_⟩
      rw [List.mem_singleton.1 hlast] at heq
      exact hseen (List.contains_iff_mem.2 (heq ▸ hid))

theorem parseConfig_accepted {root : RootTable} {config : FeedHandlerConfig} (h : parseConfig root = .ok config) :
    (∀ entry ∈ config.connections, entry.WellFormed) ∧ (config.connections.map (·.id)).Nodup := by
  simp only [parseConfig, except_bind_eq_ok_iff] at h
  obtain ⟨-, -, journalDir, -, stateDir, -, orderBooks, -, tables, -, connections, hconnections, h⟩ := h
  cases h
  exact takeConnections_accepted hconnections (by simp) List.nodup_nil

/-- A command line selects from the configured connections, in their order. -/
theorem selectConnections_sublist {config : FeedHandlerConfig} {commandLine : CommandLine}
    {selected : List ConnectionEntry} (h : selectConnections config commandLine = .ok selected) :
    selected.Sublist config.connections := by
  unfold selectConnections at h
  split at h
  · cases h
  · simp only at h
    split_ifs at h
    cases h
    exact List.filter_sublist

end Connections

section Errors

variable {α β ε : Type} {place : Bytes}

/-- What is refused is refused with a text of some kind. -/
def Reports (about : Bytes → Prop) (result : Except Bytes α) : Prop := ∀ reason, result = .error reason → about reason

/-- A refusal starts with the place it is about. -/
abbrev Names (place : Bytes) (result : Except Bytes α) : Prop := Reports (place <+: ·) result

section Reports

variable {about about' : Bytes → Prop}

theorem Reports.ok (value : α) : Reports about (.ok value) := by
  intro reason h
  cases h

theorem Reports.error {reason : Bytes} (h : about reason) : Reports about (.error reason : Except Bytes α) := by
  intro other heq
  cases heq
  exact h

theorem Reports.bind {first : Except Bytes α} {next : α → Except Bytes β} (hfirst : Reports about first)
    (hnext : ∀ value, Reports about (next value)) : Reports about (first >>= next) := by
  cases first with
  | error reason => exact Reports.error (hfirst reason rfl)
  | ok value => exact hnext value

theorem Reports.mono {result : Except Bytes α} (h : Reports about result)
    (himp : ∀ reason, about reason → about' reason) : Reports about' result :=
  fun reason heq => himp reason (h reason heq)

end Reports

theorem rejectUnknownKeys_names (table : Table ε) (allowed : List Bytes) :
    Names place (rejectUnknownKeys table allowed place) := by
  unfold rejectUnknownKeys
  split
  · exact Reports.error (by simp [List.append_assoc])
  · exact Reports.ok _

theorem readString_names (table : Table ε) (key : Bytes) : Names place (readString table key place) := by
  unfold readString
  split
  · exact Reports.ok _
  · exact Reports.ok _
  · exact Reports.error (by simp [List.append_assoc])

theorem readInteger_names (table : Table ε) (key : Bytes) : Names place (readInteger table key place) := by
  unfold readInteger
  split
  · exact Reports.ok _
  · exact Reports.ok _
  · exact Reports.error (by simp [List.append_assoc])

theorem requireString_names (table : Table ε) (key : Bytes) : Names place (requireString table key place) := by
  refine (readString_names table key).bind fun value => ?_
  cases value with
  | some text => exact Reports.ok text
  | none => exact Reports.error (by simp [List.append_assoc])

variable (table : EntryTable) (exchange : Exchange)

theorem parseExchange_names : Names place (parseExchange table place) := by
  refine (requireString_names table _).bind fun text => ?_
  split
  · exact Reports.ok _
  · exact Reports.error (by simp [List.append_assoc])

theorem supportedEnvironment_names : Names place (supportedEnvironment table place exchange) := by
  refine Reports.bind ((requireString_names table _).bind fun text => ?_) fun env => ?_
  · split_ifs
    · exact Reports.ok _
    · exact Reports.ok _
    · exact Reports.error (by simp [List.append_assoc])
  · split_ifs
    · exact Reports.error (by simp [List.append_assoc])
    · exact Reports.ok _

theorem parseFeed_names : Names place (parseFeed table place exchange) := by
  refine (readString_names table _).bind fun given => ?_
  cases given with
  | none => exact Reports.ok _
  | some feed =>
    simp only
    split_ifs
    · exact Reports.ok _
    · exact Reports.error (by simp [List.append_assoc])

theorem takeSymbols_names (taken : List Bytes) (elements : List (Option Bytes)) :
    Names place (takeSymbols place taken elements) := by
  induction elements generalizing taken with
  | nil => exact Reports.ok _
  | cons element elements ih =>
    cases element with
    | none => exact Reports.error (by simp)
    | some text =>
      rw [takeSymbols]
      split_ifs
      · exact Reports.error (by simp [List.append_assoc])
      · exact Reports.error (by simp [List.append_assoc])
      · exact ih _

theorem parseSymbols_names (node : Option SymbolsNode) : Names place (parseSymbols node exchange place) := by
  unfold parseSymbols
  split
  · exact Reports.error (by simp)
  · exact Reports.error (by simp)
  · split_ifs
    · exact Reports.error (by simp)
    · exact Reports.error (by simp [List.append_assoc])
    · exact takeSymbols_names _ _

theorem readDepth_names : Names place (readDepth table place exchange) := by
  refine (readInteger_names table _).bind fun given => ?_
  cases given with
  | none => exact Reports.ok _
  | some depth =>
    simp only
    split_ifs
    · exact Reports.error (by simp [List.append_assoc])
    · split
      · exact Reports.ok _
      · exact Reports.error (by simp [List.append_assoc])

theorem readDecimals_names (key : Bytes) : Names place (readDecimals table place exchange key) := by
  refine (readInteger_names table _).bind fun given => ?_
  cases given with
  | none => exact Reports.ok _
  | some value =>
    simp only
    split_ifs
    · exact Reports.error (by simp [List.append_assoc])
    · exact Reports.error (by simp [List.append_assoc])
    · exact Reports.ok _

theorem resolveEndpoint_names (env : Environment) : Names place (resolveEndpoint table place exchange env) := by
  refine (readString_names table _).bind fun given => ?_
  by_cases hmissing : given = none ∧ given.getD ((entryTraitsOf exchange).defaultEndpoint env) = []
  · rw [if_pos hmissing]
    exact Reports.error (by simp [List.append_assoc])
  · rw [if_neg hmissing]
    split
    · split_ifs
      · exact Reports.ok _
      · exact Reports.error (by simp [List.append_assoc])
    · split
      · exact Reports.ok _
      · exact Reports.error (by simp [List.append_assoc])

theorem requireEnvName_names (key : Bytes) : Names place (requireEnvName table place key) := by
  refine (requireString_names table key).bind fun name => ?_
  split_ifs
  · exact Reports.ok _
  · exact Reports.error (by simp [List.append_assoc])

theorem parseEntry_names (id : Bytes) : Names place (parseEntry table place id) := by
  refine (parseExchange_names table).bind fun exchange => ?_
  refine (supportedEnvironment_names table exchange).bind fun env => ?_
  refine (parseFeed_names table exchange).bind fun feed => ?_
  refine (parseSymbols_names exchange _).bind fun symbols => ?_
  refine (readDepth_names table exchange).bind fun depth => ?_
  refine (readDecimals_names table exchange _).bind fun priceDecimals => ?_
  refine (readDecimals_names table exchange _).bind fun quantityDecimals => ?_
  refine (resolveEndpoint_names table exchange env).bind fun endpoint => ?_
  refine (requireEnvName_names table _).bind fun apiKeyEnv => ?_
  refine (requireEnvName_names table _).bind fun apiSecretEnv => ?_
  split_ifs
  · exact Reports.error (by simp)
  · exact Reports.ok _

/-- The label of an entry stays in front when its id is known. -/
theorem label_isPrefix (index : ℕ) (id : Bytes) : label index [] <+: label index id := by
  unfold label
  rw [if_pos rfl, List.append_nil]
  exact List.prefix_append _ _

theorem parseConnection_names (index : ℕ) : Names (label index []) (parseConnection table index) := by
  refine (rejectUnknownKeys_names table _).bind fun _ => ?_
  refine (requireString_names table _).bind fun id => ?_
  split_ifs
  · refine Reports.error ((label_isPrefix index id).trans ?_)
    simp [List.append_assoc]
  · intro reason h
    exact (label_isPrefix index id).trans (parseEntry_names table id reason h)

/-- The loop over the entries names the one it refuses. -/
theorem takeConnections_names (taken : List ConnectionEntry) (tables : List EntryTable) :
    Reports (fun reason => ∃ index < taken.length + tables.length, label index [] <+: reason)
      (takeConnections taken tables) := by
  induction tables generalizing taken with
  | nil => exact Reports.ok _
  | cons table tables ih =>
    have hlt : taken.length < taken.length + (table :: tables).length := by
      rw [List.length_cons]
      omega
    refine Reports.bind ((parseConnection_names table taken.length).mono fun reason hnames => ?_) fun entry => ?_
    · exact ⟨taken.length, hlt, hnames⟩
    · split_ifs
      · refine Reports.error ⟨taken.length, hlt, (label_isPrefix taken.length entry.id).trans ?_⟩
        simp
      · refine (ih _).mono fun reason hnames => ?_
        obtain ⟨index, hindex, hnames⟩ := hnames
        refine ⟨index, ?_, hnames⟩
        rw [List.length_append, List.length_singleton] at hindex
        rw [List.length_cons]
        omega

section Root

variable (root : RootTable)

theorem readPath_names (key fallback : Bytes) : Names (ascii "config") (readPath root key fallback) := by
  refine (readString_names root key).bind fun given => ?_
  cases given with
  | none => exact Reports.ok _
  | some text =>
    simp only
    split_ifs
    · exact Reports.error (by simp [List.append_assoc])
    · exact Reports.ok _

theorem readOrderBooks_names : Names (ascii "config") (readOrderBooks root) := by
  unfold readOrderBooks
  split
  · exact Reports.ok _
  · exact Reports.ok _
  · exact Reports.error (List.prefix_append _ _)

theorem readConnections_names : Names (ascii "config") (readConnections root) := by
  unfold readConnections
  split
  · exact Reports.error (List.prefix_append _ _)
  · exact Reports.error (List.prefix_append _ _)
  · split_ifs
    · exact Reports.ok _
    · exact Reports.error (List.prefix_append _ _)
  · exact Reports.error (List.prefix_append _ _)

/-- Whatever is refused, the error says where: in the file, or in which entry. -/
theorem parseConfig_names :
    Reports (fun reason => ascii "config" <+: reason ∨ ∃ index, label index [] <+: reason) (parseConfig root) := by
  have hfile : ∀ {α : Type} {result : Except Bytes α}, Names (ascii "config") result →
      Reports (fun reason => ascii "config" <+: reason ∨ ∃ index, label index [] <+: reason) result :=
    fun h => h.mono fun reason hnames => .inl hnames
  refine (hfile (rejectUnknownKeys_names root _)).bind fun _ => ?_
  refine (hfile (readPath_names root _ _)).bind fun journalDir => ?_
  refine (hfile (readPath_names root _ _)).bind fun stateDir => ?_
  refine (hfile (readOrderBooks_names root)).bind fun orderBooks => ?_
  refine (hfile (readConnections_names root)).bind fun tables => ?_
  refine Reports.bind ((takeConnections_names [] tables).mono fun reason hnames => ?_) fun connections => Reports.ok _
  obtain ⟨index, -, hnames⟩ := hnames
  exact .inr ⟨index, hnames⟩

end Root

end Errors

end CryptoTrader.Config
