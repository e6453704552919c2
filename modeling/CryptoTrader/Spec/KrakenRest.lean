import CryptoTrader.Lib.FormUrl
import CryptoTrader.Spec.KrakenSigning

/-! The signed calls of the REST client (`feed_handler/kraken/kraken_rest_client.cpp`). One
client is shared by the threads of every Kraken connection; `request_mutex_` is held over
the nonce, the signature and the request itself. The process can die at any moment, and
the next one starts from the nonce's state file. -/

namespace CryptoTrader.Kraken

structure Credentials where
  apiKey : Bytes
  apiSecretB64 : Bytes
  deriving DecidableEq, Repr

structure WebsocketsToken where
  token : Bytes
  expiresSeconds : Int := 0
  deriving DecidableEq, Repr

def kWebSocketsTokenPath : Bytes := ascii "/0/private/GetWebSocketsToken"

def kAssetPairsPath : Bytes := ascii "/0/public/AssetPairs"

/-- The base URL of a new client. -/
def trimBaseUrl (baseUrl : Bytes) : Bytes := baseUrl.rdropWhile (· = 47)

/-- The URL of `LoadAssetPairs`. -/
def assetPairsUrl (baseUrl pair : Bytes) : Bytes :=
  trimBaseUrl baseUrl ++ kAssetPairsPath ++ if pair = [] then [] else ascii "?pair=" ++ urlEncode pair

/-- A POST: its URL, the two headers that are not constant, and its body. -/
structure SignedRequest where
  url : Bytes
  apiKey : Bytes
  apiSign : Bytes
  postData : Bytes
  deriving DecidableEq, Repr

/-- What `FetchWebsocketsToken` sends for a nonce. -/
def tokenRequest (crypto : Crypto) (baseUrl : Bytes) (creds : Credentials) (nonce : ℕ) :
    Except Bytes SignedRequest := do
  let postData := encodePostData [(ascii "nonce", natText nonce)]
  let signature ← signPrivateRequest crypto kWebSocketsTokenPath (natText nonce) postData creds.apiSecretB64
  return { url := trimBaseUrl baseUrl ++ kWebSocketsTokenPath, apiKey := creds.apiKey, apiSign := signature, postData }

/-- What the JSON library reads of the answer to a token request: the texts in the `error`
array, and the token and the expiry in the `result` object. -/
structure TokenBody where
  errors : List Bytes := []
  result : Option (Option Bytes × Option Int) := none
  deriving DecidableEq, Repr

/-- A body that cannot be parsed has only a size. -/
structure HttpResponse where
  statusCode : Int
  errorMsg : Bytes
  bodySize : ℕ
  body : Option TokenBody
  deriving DecidableEq, Repr

def joinErrors (errors : List Bytes) : Bytes :=
  errors.foldl (fun joined text => (if joined = [] then [] else joined ++ ascii "; ") ++ text) []

def describeHttpFailure (what : Bytes) (response : HttpResponse) : Bytes :=
  what ++ ascii ": HTTP " ++ intText response.statusCode ++ ascii " (" ++ response.errorMsg ++ ascii ")"

/-- `FetchWebsocketsToken` once `post` has returned. -/
def readToken (response : Option HttpResponse) : Except Bytes WebsocketsToken :=
  match response with
  | none => .error (ascii "GetWebSocketsToken: no response")
  | some response =>
    if response.statusCode ≠ 200 then .error (describeHttpFailure (ascii "GetWebSocketsToken") response)
    else
      match response.body with
      | none =>
        .error (ascii "GetWebSocketsToken: unparseable response body (" ++ natText response.bodySize ++ ascii " bytes)")
      | some body =>
        if joinErrors body.errors ≠ [] then .error (ascii "GetWebSocketsToken: " ++ joinErrors body.errors)
        else
          match body.result with
          | none => .error (ascii "GetWebSocketsToken: response has no result object")
          | some (none, _) => .error (ascii "GetWebSocketsToken: response has no token field")
          | some (some token, expires) => .ok { token, expiresSeconds := expires.getD 0 }

/-- Where a thread is in a call of the client. -/
inductive RestThread where
  | idle
  /-- `FetchWebsocketsToken` waits for `request_mutex_`. -/
  | waiting (creds : Credentials)
  /-- It has the mutex and is about to call `nonce_.Next`. -/
  | numbering (creds : Credentials)
  /-- It is in `nonce_.Next`. -/
  | persisting (creds : Credentials)
  /-- It is in `http_->post`. -/
  | posting (request : SignedRequest)
  /-- `LoadAssetPairs` waits for the mutex, or has it and is in `http_->get`. -/
  | asking (url : Bytes)
  | loading (url : Bytes)
  deriving DecidableEq, Repr

def RestThread.holdsMutex : RestThread → Bool
  | .numbering _ | .persisting _ | .posting _ | .loading _ => true
  | _ => false

/-- The nonce's files and process, the threads of the process that runs, and over all of
them the requests that were sent and how each call ended. -/
structure RestSystem (ι : Type) where
  nonce : Nonce.System := {}
  threads : ι → RestThread := fun _ => .idle
  mutex : Option ι := none
  posted : List SignedRequest := []
  results : List (ι × Except Bytes WebsocketsToken) := []

inductive RestAction (ι : Type) where
  | start (readable : Bool)
  | crash
  /-- `FetchWebsocketsToken` and `LoadAssetPairs` are called. -/
  | fetch (i : ι) (creds : Credentials)
  | load (i : ι) (pair : Bytes)
  | lock (i : ι)
  | next (i : ι) (nowMicros : ℕ)
  /-- A step on the state file: `prepare`, `write`, `flush` or `rename`. -/
  | persist (action : Nonce.Action)
  /-- `Next` returns; the request is signed and `post` is called. -/
  | post (i : ι)
  | respond (i : ι) (response : Option HttpResponse)
  deriving DecidableEq, Repr

namespace RestSystem

variable {ι : Type} [DecidableEq ι] (crypto : Crypto) (baseUrl : Bytes) (s : RestSystem ι)

def setThread (i : ι) (thread : RestThread) : RestSystem ι :=
  { s with threads := fun j => if j = i then thread else s.threads j }

/-- The thread leaves the scope of the lock. -/
def unlock (i : ι) : RestSystem ι := { s.setThread i .idle with mutex := none }

def restarted (nonce : Nonce.System) : RestSystem ι := { s with nonce, threads := fun _ => .idle, mutex := none }

/-- What is told of before the lock: missing credentials. -/
def fetch (i : ι) (creds : Credentials) : Option (RestSystem ι) :=
  if s.nonce.process.isSome ∧ s.threads i = .idle then
    if creds.apiKey = [] ∨ creds.apiSecretB64 = [] then
      some { s with results := s.results ++ [(i, .error (ascii "kraken: API key/secret not set"))] }
    else some (s.setThread i (.waiting creds))
  else none

def load (i : ι) (pair : Bytes) : Option (RestSystem ι) :=
  if s.nonce.process.isSome ∧ s.threads i = .idle then
    some (s.setThread i (.asking (assetPairsUrl baseUrl pair)))
  else none

def lock (i : ι) : Option (RestSystem ι) :=
  if s.mutex = none then
    match s.threads i with
    | .waiting creds => some { s.setThread i (.numbering creds) with mutex := some i }
    | .asking url => some { s.setThread i (.loading url) with mutex := some i }
    | _ => none
  else none

/-- None if a call of `Next` is already under way. -/
def next (i : ι) (nowMicros : ℕ) : Option (RestSystem ι) :=
  match s.threads i with
  | .numbering creds => (s.nonce.step (.call nowMicros)).map fun nonce => { s.setThread i (.persisting creds) with nonce }
  | _ => none

def persist (action : Nonce.Action) : Option (RestSystem ι) :=
  match action with
  | .prepare _ _ | .write _ | .flush _ | .rename _ => (s.nonce.step action).map fun nonce => { s with nonce }
  | _ => none

def post (i : ι) : Option (RestSystem ι) :=
  match s.threads i with
  | .persisting creds => do
    let nonce ← s.nonce.step .finish
    let number ← nonce.returned.getLast?
    match tokenRequest crypto baseUrl creds number.value with
    | .error text => some { s.unlock i with nonce, results := s.results ++ [(i, .error text)] }
    | .ok request => some { s.setThread i (.posting request) with nonce, posted := s.posted ++ [request] }
  | _ => none

def respond (i : ι) (response : Option HttpResponse) : Option (RestSystem ι) :=
  match s.threads i with
  | .posting _ => some { s.unlock i with results := s.results ++ [(i, readToken response)] }
  | .loading _ => some (s.unlock i)
  | _ => none

def step (s : RestSystem ι) : RestAction ι → Option (RestSystem ι)
  | .start readable => (s.nonce.step (.start readable)).map s.restarted
  | .crash => (s.nonce.step .crash).map s.restarted
  | .fetch i creds => s.fetch i creds
  | .load i pair => s.load baseUrl i pair
  | .lock i => s.lock i
  | .next i nowMicros => s.next i nowMicros
  | .persist action => s.persist action
  | .post i => s.post crypto baseUrl i
  | .respond i response => s.respond i response

/-- The system after some actions, from a missing state file. -/
def run (actions : List (RestAction ι)) : Option (RestSystem ι) := Machine.run (step crypto baseUrl) {} actions

end RestSystem

/-- The actions on the nonce's files and process. -/
def RestAction.nonceAction {ι : Type} : RestAction ι → Option Nonce.Action
  | .start readable => some (.start readable)
  | .crash => some .crash
  | .next _ nowMicros => some (.call nowMicros)
  | .persist action => some action
  | .post _ => some .finish
  | _ => none

/-- The nonce as the body has it. -/
def SignedRequest.nonceText (request : SignedRequest) : Option Bytes :=
  (FormUrl.parse request.postData).bind (List.lookup (ascii "nonce"))

/-- The exchange's side: the secret of each key, and the largest nonce it has taken. -/
structure PrivateEndpoint where
  secrets : Bytes → Option Bytes
  lastNonce : Bytes → Option ℕ := fun _ => none

/-- A request is taken if its key is known, its signature is the one its own body has with
the key's secret, and its nonce is above the last one taken. -/
def PrivateEndpoint.take (crypto : Crypto) (endpoint : PrivateEndpoint) (request : SignedRequest) :
    Option PrivateEndpoint := do
  let secret ← endpoint.secrets request.apiKey
  let nonceText ← request.nonceText
  let nonce ← Fix.toSize nonceText
  if signature crypto kWebSocketsTokenPath nonceText request.postData secret = .ok request.apiSign ∧
      ∀ last ∈ endpoint.lastNonce request.apiKey, last < nonce then
    some { endpoint with
      lastNonce := fun key => if key = request.apiKey then some nonce else endpoint.lastNonce key }
  else none

/-- The key and the secret are the ones of the exchange, the secret as Base64 text with blanks
and line breaks anywhere. -/
def PrivateEndpoint.Issued (endpoint : PrivateEndpoint) (creds : Credentials) : Prop :=
  ∃ secret, secret ≠ [] ∧ endpoint.secrets creds.apiKey = some secret ∧
    creds.apiSecretB64.filter (fun character => !Nonce.isSpace character) = base64Encode secret

end CryptoTrader.Kraken
