import CryptoTrader.Proofs.NonceOrder
import CryptoTrader.Sanity.KrakenSigning
import CryptoTrader.Spec.KrakenRest

/-! What the exchange makes of the signed requests. The mutex keeps the calls of `Next`
apart, so the nonces of the requests are among the ones a single caller gets, in their
order; each request is signed as the exchange checks it. -/

namespace CryptoTrader.Kraken

open Nonce

namespace RestThread

/-- The credentials of a token call up to its signature. -/
def creds : RestThread → Option Credentials
  | .waiting creds | .numbering creds | .persisting creds => some creds
  | _ => none

end RestThread

namespace RestSystem

variable {ι : Type} [DecidableEq ι] {crypto : Crypto} {baseUrl : Bytes}

@[simp] theorem setThread_threads (s : RestSystem ι) (i : ι) (thread : RestThread) (j : ι) :
    (s.setThread i thread).threads j = if j = i then thread else s.threads j := rfl

@[simp] theorem unlock_threads (s : RestSystem ι) (i j : ι) :
    (s.unlock i).threads j = if j = i then .idle else s.threads j := rfl

/-- What one action does. -/
inductive Step (crypto : Crypto) (baseUrl : Bytes) (s : RestSystem ι) : RestAction ι → RestSystem ι → Prop where
  | start (readable : Bool) (hnone : s.nonce.process = none) :
      Step crypto baseUrl s (.start readable)
        (s.restarted { s.nonce with process := some ⟨restore s.nonce.stateFile readable, .idle⟩ })
  | crash (process : NonceProcess) (hprocess : s.nonce.process = some process) :
      Step crypto baseUrl s .crash (s.restarted { s.nonce with process := none })
  | unset (i : ι) (creds : Credentials) (results : List (ι × Except Bytes WebsocketsToken)) :
      Step crypto baseUrl s (.fetch i creds) { s with results }
  | called (action : RestAction ι) (i : ι) (thread : RestThread) (hrunning : s.nonce.process.isSome = true)
      (hidle : s.threads i = .idle) (hmutex : thread.holdsMutex = false) (haction : action.nonceAction = none)
      (hcreds : ∀ creds ∈ thread.creds, action = .fetch i creds ∧ creds.apiKey ≠ [] ∧ creds.apiSecretB64 ≠ []) :
      Step crypto baseUrl s action (s.setThread i thread)
  | locked (i : ι) (thread : RestThread) (hmutex : s.mutex = none) (hwaiting : (s.threads i).holdsMutex = false)
      (hholds : thread.holdsMutex = true) (hrunning : s.threads i ≠ .idle)
      (hpersisting : ∀ creds, thread ≠ .persisting creds) (hcreds : thread.creds = (s.threads i).creds) :
      Step crypto baseUrl s (.lock i) { s.setThread i thread with mutex := some i }
  | next (i : ι) (nowMicros : ℕ) (creds : Credentials) (nonce : Nonce.System) (hthread : s.threads i = .numbering creds)
      (hnonce : s.nonce.step (.call nowMicros) = some nonce) :
      Step crypto baseUrl s (.next i nowMicros) { s.setThread i (.persisting creds) with nonce }
  | persist (action : Nonce.Action) (nonce : Nonce.System) (generator : NonceGenerator) (phase : Phase)
      (hprocess : s.nonce.process = some ⟨generator, phase⟩) (hbusy : phase ≠ .idle)
      (hnonce : s.nonce.step action = some nonce) (hrunning : nonce.process.isSome = true) :
      Step crypto baseUrl s (.persist action) { s with nonce }
  | unsigned (i : ι) (creds : Credentials) (generator : NonceGenerator) (value : ℕ) (written : Bool)
      (results : List (ι × Except Bytes WebsocketsToken)) (hthread : s.threads i = .persisting creds)
      (hprocess : s.nonce.process = some ⟨generator, .returning value written⟩) :
      Step crypto baseUrl s (.post i)
        { s.unlock i with
          nonce := { s.nonce with process := some ⟨generator, .idle⟩, returned := s.nonce.returned ++ [⟨value, written⟩] }
          results }
  | post (i : ι) (creds : Credentials) (generator : NonceGenerator) (value : ℕ) (written : Bool)
      (request : SignedRequest) (hthread : s.threads i = .persisting creds)
      (hprocess : s.nonce.process = some ⟨generator, .returning value written⟩)
      (hrequest : tokenRequest crypto baseUrl creds value = .ok request) :
      Step crypto baseUrl s (.post i)
        { s.setThread i (.posting request) with
          nonce := { s.nonce with process := some ⟨generator, .idle⟩, returned := s.nonce.returned ++ [⟨value, written⟩] }
          posted := s.posted ++ [request] }
  | answered (i : ι) (response : Option HttpResponse) (results : List (ι × Except Bytes WebsocketsToken))
      (hthread : (s.threads i).holdsMutex = true) (hcreds : (s.threads i).creds = none) :
      Step crypto baseUrl s (.respond i response) { s.unlock i with results }

theorem finish_eq_some {s s' : Nonce.System} (h : s.step .finish = some s') :
    ∃ generator value written, s.process = some ⟨generator, .returning value written⟩ ∧
      s' = { s with process := some ⟨generator, .idle⟩, returned := s.returned ++ [⟨value, written⟩] } := by
  obtain ⟨⟨generator, phase⟩, hprocess, h⟩ := Option.bind_eq_some_iff.1 h
  cases phase <;> cases h
  exact ⟨generator, _, _, hprocess, rfl⟩

theorem isSome_process_of_step {s s' : Nonce.System} {action : Nonce.Action} (h : s.step action = some s')
    (hcrash : action ≠ .crash) : s'.process.isSome = true := by
  cases Nonce.System.step_inversion h with
  | write generator value count hprocess => exact Option.isSome_of_eq_some hprocess
  | crash => exact absurd rfl hcrash
  | _ => rfl

/-- What a step of the nonces gives out is added at the end. -/
theorem returned_prefix_of_step {s s' : Nonce.System} {action : Nonce.Action} (h : s.step action = some s') :
    s.returned <+: s'.returned := by
  cases Nonce.System.step_inversion h with
  | finish generator value written hprocess => exact List.prefix_append _ _
  | _ => exact List.prefix_rfl

variable {s s' : RestSystem ι} {action : RestAction ι}

omit [DecidableEq ι] in
/-- The state file is worked on only from inside a call of `Next`. -/
theorem busy_of_persist {action : Nonce.Action} (h : s.persist action = some s') :
    ∃ generator phase, s.nonce.process = some ⟨generator, phase⟩ ∧ phase ≠ .idle := by
  cases hprocess : s.nonce.process with
  | none => cases action <;> simp [persist, Nonce.System.step, hprocess] at h
  | some process =>
    refine ⟨process.generator, process.phase, rfl, fun hidle => ?_⟩
    cases action <;> simp [persist, Nonce.System.step, hprocess, Nonce.System.prepare, Nonce.System.write,
      Nonce.System.flush, Nonce.System.rename, hidle] at h

theorem step_inversion (h : s.step crypto baseUrl action = some s') : Step crypto baseUrl s action s' := by
  cases action with
  | start readable =>
    obtain ⟨nonce, hnonce, rfl⟩ := Option.map_eq_some_iff.1 h
    rw [Nonce.System.step] at hnonce
    split_ifs at hnonce with hnone
    cases hnonce
    exact .start readable hnone
  | crash =>
    obtain ⟨nonce, hnonce, rfl⟩ := Option.map_eq_some_iff.1 h
    obtain ⟨process, hprocess, rfl⟩ := Option.map_eq_some_iff.1 hnonce
    exact .crash process hprocess
  | fetch i creds =>
    rw [step, fetch] at h
    split_ifs at h with hidle hunset
    · cases h
      exact .unset i creds _
    · cases h
      exact .called _ i _ hidle.1 hidle.2 rfl rfl (by rintro _ ⟨⟩; exact ⟨rfl, not_or.1 hunset⟩)
  | load i pair =>
    rw [step, load] at h
    split_ifs at h with hidle
    cases h
    exact .called _ i _ hidle.1 hidle.2 rfl rfl (by rintro _ ⟨⟩)
  | lock i =>
    rw [step, lock] at h
    split_ifs at h with hmutex
    cases hthread : s.threads i <;> rw [hthread] at h <;> cases h
    · refine .locked i _ hmutex (by rw [hthread]; rfl) rfl (by rw [hthread]; simp) (by simp) (by rw [hthread]; rfl)
    · refine .locked i _ hmutex (by rw [hthread]; rfl) rfl (by rw [hthread]; simp) (by simp) (by rw [hthread]; rfl)
  | next i nowMicros =>
    rw [step, next] at h
    cases hthread : s.threads i with
    | numbering creds =>
      rw [hthread] at h
      obtain ⟨nonce, hnonce, rfl⟩ := Option.map_eq_some_iff.1 h
      exact .next i nowMicros creds nonce hthread hnonce
    | _ =>
      rw [hthread] at h
      cases h
  | persist action =>
    obtain ⟨generator, phase, hprocess, hbusy⟩ := busy_of_persist h
    rw [step] at h
    have hnonce : (s.nonce.step action).map (fun nonce => { s with nonce }) = some s' ∧ action ≠ .crash := by
      cases action <;> first | exact ⟨h, by simp⟩ | cases h
    obtain ⟨nonce, hstep, rfl⟩ := Option.map_eq_some_iff.1 hnonce.1
    exact .persist action nonce generator phase hprocess hbusy hstep (isSome_process_of_step hstep hnonce.2)
  | post i =>
    rw [step, post] at h
    cases hthread : s.threads i with
    | persisting creds =>
      rw [hthread] at h
      obtain ⟨nonce, hnonce, h⟩ := Option.bind_eq_some_iff.1 h
      obtain ⟨generator, value, written, hprocess, rfl⟩ := finish_eq_some hnonce
      rw [List.getLast?_concat] at h
      cases hrequest : tokenRequest crypto baseUrl creds value with
      | error text =>
        simp only [Option.bind_eq_bind, Option.bind_some, hrequest] at h
        cases h
        exact .unsigned i creds generator value written _ hthread hprocess
      | ok request =>
        simp only [Option.bind_eq_bind, Option.bind_some, hrequest] at h
        cases h
        exact .post i creds generator value written request hthread hprocess hrequest
    | _ =>
      rw [hthread] at h
      cases h
  | respond i response =>
    rw [step, respond] at h
    cases hthread : s.threads i <;> rw [hthread] at h <;> cases h
    · exact .answered i response _ (by rw [hthread]; rfl) (by rw [hthread]; rfl)
    · exact .answered i response s.results (by rw [hthread]; rfl) (by rw [hthread]; rfl)

/-- The nonces take the step of the action, if it has one. -/
theorem Step.nonce (h : Step crypto baseUrl s action s') :
    (action.nonceAction = none ∧ s'.nonce = s.nonce) ∨
      ∃ nonceAction, action.nonceAction = some nonceAction ∧ s.nonce.step nonceAction = some s'.nonce := by
  cases h with
  | start readable hnone => exact .inr ⟨_, rfl, if_pos hnone⟩
  | crash process hprocess => exact .inr ⟨_, rfl, by rw [Nonce.System.step, hprocess]; rfl⟩
  | unset i creds results => exact .inl ⟨rfl, rfl⟩
  | called action i thread hrunning hidle hmutex haction hcreds => exact .inl ⟨haction, rfl⟩
  | locked i thread hmutex hwaiting hholds hrunning hpersisting hcreds => exact .inl ⟨rfl, rfl⟩
  | next i nowMicros creds nonce hthread hnonce => exact .inr ⟨_, rfl, hnonce⟩
  | persist action nonce generator phase hprocess hbusy hnonce hrunning => exact .inr ⟨_, rfl, hnonce⟩
  | unsigned i creds generator value written results hthread hprocess =>
    exact .inr ⟨_, rfl, by rw [Nonce.System.step, hprocess]; rfl⟩
  | post i creds generator value written request hthread hprocess hrequest =>
    exact .inr ⟨_, rfl, by rw [Nonce.System.step, hprocess]; rfl⟩
  | answered i response results hthread hcreds => exact .inl ⟨rfl, rfl⟩

/-- The mutex is held by the one thread that is past it, and `Next` is entered only with the
mutex. -/
structure Locking (process : Option NonceProcess) (threads : ι → RestThread) (mutex : Option ι) : Prop where
  running : ∀ i, threads i ≠ .idle → process.isSome = true
  mutex : ∀ i, (threads i).holdsMutex = true ↔ mutex = some i
  resting : ∀ generator phase, process = some ⟨generator, phase⟩ → (∀ i creds, threads i ≠ .persisting creds) →
    phase = .idle

namespace Locking

variable {process process' : Option NonceProcess} {threads : ι → RestThread} {mutex mutex' : Option ι}

omit [DecidableEq ι] in
theorem idle (hidle : ∀ generator phase, process = some ⟨generator, phase⟩ → phase = .idle) :
    Locking process (fun _ : ι => .idle) none where
  running i h := absurd rfl h
  mutex i := by simp [RestThread.holdsMutex]
  resting generator phase hprocess _ := hidle generator phase hprocess

/-- One thread goes on: it keeps its hold of the mutex, takes it or gives it back, and it
enters `Next`, leaves it or lets it be. -/
theorem goOn (h : Locking process threads mutex) {i : ι} {thread : RestThread} (hrunning : process'.isSome = true)
    (hmutex : (thread.holdsMutex = (threads i).holdsMutex ∧ mutex' = mutex) ∨
      (thread.holdsMutex = true ∧ mutex = none ∧ mutex' = some i) ∨
      (thread.holdsMutex = false ∧ (threads i).holdsMutex = true ∧ mutex' = none))
    (hnext : (∃ creds, thread = .persisting creds) ∨ (∃ generator, process' = some ⟨generator, .idle⟩) ∨
      (process' = process ∧ ∀ creds, threads i ≠ .persisting creds)) :
    Locking process' (fun j => if j = i then thread else threads j) mutex' where
  running _ _ := hrunning
  mutex j := by
    have hheld := h.mutex j
    by_cases heq : j = i
    · subst heq
      rw [if_pos rfl]
      rcases hmutex with ⟨hsame, rfl⟩ | ⟨htakes, -, rfl⟩ | ⟨hgives, -, rfl⟩
      · rw [hsame, hheld]
      · simp [htakes]
      · simp [hgives]
    · rw [if_neg heq, hheld]
      rcases hmutex with ⟨-, rfl⟩ | ⟨-, rfl, rfl⟩ | ⟨-, hholds, rfl⟩
      · rfl
      · simp [Ne.symm heq]
      · simp [(h.mutex i).1 hholds, Ne.symm heq]
  resting generator phase hprocess hnone := by
    rcases hnext with ⟨creds, rfl⟩ | ⟨_, rfl⟩ | ⟨rfl, hthread⟩
    · exact absurd (if_pos rfl) (hnone i creds)
    · cases hprocess
      rfl
    · refine h.resting generator phase hprocess fun j creds hj => ?_
      have hother : j ≠ i := by
        rintro rfl
        exact hthread creds hj
      exact hnone j creds ((if_neg hother).trans hj)

end Locking

theorem Step.locking (hinv : Locking s.nonce.process s.threads s.mutex) (h : Step crypto baseUrl s action s') :
    Locking s'.nonce.process s'.threads s'.mutex := by
  cases h with
  | start readable hnone => exact .idle (by rintro _ _ ⟨⟩; rfl)
  | crash process hprocess => exact .idle (by rintro _ _ ⟨⟩)
  | unset i creds results => exact hinv
  | called action i thread hrunning hidle hmutex haction hcreds =>
    refine hinv.goOn hrunning (.inl ⟨?_, rfl⟩) (.inr (.inr ⟨rfl, ?_⟩))
    · rw [hmutex, hidle]
      rfl
    · simp [hidle]
  | locked i thread hmutex hwaiting hholds hrunning hpersisting hcreds =>
    refine hinv.goOn (hinv.running i hrunning) (.inr (.inl ⟨hholds, hmutex, rfl⟩)) (.inr (.inr ⟨rfl, fun creds hthread => ?_⟩))
    rw [hthread] at hwaiting
    cases hwaiting
  | next i nowMicros creds nonce hthread hnonce =>
    refine hinv.goOn (isSome_process_of_step hnonce (by simp)) (.inl ⟨?_, rfl⟩) (.inl ⟨creds, rfl⟩)
    rw [hthread]
    rfl
  | persist action nonce generator phase hprocess hbusy hnonce hrunning =>
    exact ⟨fun _ _ => hrunning, hinv.mutex, fun _ _ _ hnone => absurd (hinv.resting generator phase hprocess hnone) hbusy⟩
  | unsigned i creds generator value written results hthread hprocess =>
    exact hinv.goOn rfl (.inr (.inr ⟨rfl, by rw [hthread]; rfl, rfl⟩)) (.inr (.inl ⟨generator, rfl⟩))
  | post i creds generator value written request hthread hprocess hrequest =>
    exact hinv.goOn rfl (.inl ⟨by rw [hthread]; rfl, rfl⟩) (.inr (.inl ⟨generator, rfl⟩))
  | answered i response results hthread hcreds =>
    have hrunning : s.threads i ≠ .idle := fun hidle => by rw [hidle] at hthread; cases hthread
    refine hinv.goOn (hinv.running i hrunning) (.inr (.inr ⟨rfl, hthread, rfl⟩)) (.inr (.inr ⟨rfl, fun creds hpersisting => ?_⟩))
    rw [hpersisting] at hcreds
    cases hcreds

/-- The credentials are ones that a call was made with, and not missing. -/
def Called (actions : List (RestAction ι)) (creds : Credentials) : Prop :=
  (∃ i, .fetch i creds ∈ actions) ∧ creds.apiKey ≠ [] ∧ creds.apiSecretB64 ≠ []

omit [DecidableEq ι] in
theorem Called.snoc {actions : List (RestAction ι)} {creds : Credentials} (h : Called actions creds)
    (action : RestAction ι) : Called (actions ++ [action]) creds := by
  obtain ⟨⟨i, hmem⟩, hset⟩ := h
  exact ⟨⟨i, List.mem_append_left _ hmem⟩, hset⟩

/-- Each request sent is signed over one of the nonces given out, in their order. -/
structure Inv (crypto : Crypto) (baseUrl : Bytes) (actions : List (RestAction ι)) (s : RestSystem ι) : Prop where
  nonce : Nonce.System.run (actions.filterMap RestAction.nonceAction) = some s.nonce
  locking : Locking s.nonce.process s.threads s.mutex
  creds : ∀ i, ∀ creds ∈ (s.threads i).creds, Called actions creds
  signed : ∀ request ∈ s.posted, ∃ creds value, Called actions creds ∧
    tokenRequest crypto baseUrl creds value = .ok request
  order : List.Sublist (s.posted.map SignedRequest.nonceText)
    (s.nonce.returned.map fun number => some (natText number.value))

theorem signPrivateRequest_of_tokenRequest {creds : Credentials} {value : ℕ} {request : SignedRequest}
    (h : tokenRequest crypto baseUrl creds value = .ok request) :
    request.apiKey = creds.apiKey ∧ request.nonceText = some (natText value) ∧
      signPrivateRequest crypto kWebSocketsTokenPath (natText value) request.postData creds.apiSecretB64 =
        .ok request.apiSign := by
  rw [tokenRequest] at h
  cases hsign : signPrivateRequest crypto kWebSocketsTokenPath (natText value)
      (encodePostData [(ascii "nonce", natText value)]) creds.apiSecretB64 with
  | error text =>
    rw [hsign] at h
    cases h
  | ok sign =>
    rw [hsign] at h
    cases h
    refine ⟨rfl, ?_, hsign⟩
    rw [SignedRequest.nonceText, parse_encodePostData]
    simp

namespace Inv

variable {actions : List (RestAction ι)}

omit [DecidableEq ι] in
theorem init : Inv crypto baseUrl [] ({} : RestSystem ι) where
  nonce := rfl
  locking := .idle (by rintro _ _ ⟨⟩)
  creds := by rintro i creds ⟨⟩
  signed := by simp
  order := List.Sublist.refl _

theorem nonce_step (hinv : Inv crypto baseUrl actions s) (h : Step crypto baseUrl s action s') :
    Nonce.System.run ((actions ++ [action]).filterMap RestAction.nonceAction) = some s'.nonce := by
  rw [List.filterMap_append]
  rcases h.nonce with ⟨hnone, heq⟩ | ⟨nonceAction, haction, hstep⟩
  · simp [hnone, heq, hinv.nonce]
  · rw [List.filterMap_cons_some haction, List.filterMap_nil]
    exact (Machine.run_snoc_eq_some _).2 ⟨s.nonce, hinv.nonce, hstep⟩

theorem creds_step (hinv : Inv crypto baseUrl actions s) (h : Step crypto baseUrl s action s') :
    ∀ i, ∀ creds ∈ (s'.threads i).creds, Called (actions ++ [action]) creds := by
  have hold : ∀ i, ∀ creds ∈ (s.threads i).creds, Called (actions ++ [action]) creds :=
    fun i creds hcreds => (hinv.creds i creds hcreds).snoc action
  have hset : ∀ {i thread}, (∀ creds ∈ thread.creds, Called (actions ++ [action]) creds) →
      ∀ j, ∀ creds ∈ ((s.setThread i thread).threads j).creds, Called (actions ++ [action]) creds := by
    intro i thread hthread j creds hcreds
    rw [setThread_threads] at hcreds
    split_ifs at hcreds
    · exact hthread creds hcreds
    · exact hold j creds hcreds
  cases h with
  | start readable hnone => rintro i creds ⟨⟩
  | crash process hprocess => rintro i creds ⟨⟩
  | unset i creds results => exact hold
  | called action i thread hrunning hidle hmutex haction hcreds =>
    refine hset fun creds hmem => ⟨⟨i, ?_⟩, (hcreds creds hmem).2⟩
    rw [(hcreds creds hmem).1]
    exact List.mem_append_right _ List.mem_cons_self
  | locked i thread hmutex hwaiting hholds hrunning hpersisting hcreds =>
    exact hset fun creds hmem => hold i creds (hcreds ▸ hmem)
  | next i nowMicros creds nonce hthread hnonce =>
    exact hset fun creds hmem => hold i creds (by rw [hthread]; exact hmem)
  | persist action nonce generator phase hprocess hbusy hnonce hrunning => exact hold
  | unsigned i creds generator value written results hthread hprocess => exact hset (by rintro _ ⟨⟩)
  | post i creds generator value written request hthread hprocess hrequest => exact hset (by rintro _ ⟨⟩)
  | answered i response results hthread hcreds => exact hset (by rintro _ ⟨⟩)

theorem posted_step (hinv : Inv crypto baseUrl actions s) (h : Step crypto baseUrl s action s') :
    (∀ request ∈ s'.posted, ∃ creds value, Called (actions ++ [action]) creds ∧
      tokenRequest crypto baseUrl creds value = .ok request) ∧
    List.Sublist (s'.posted.map SignedRequest.nonceText)
      (s'.nonce.returned.map fun number => some (natText number.value)) := by
  have hsigned : ∀ request ∈ s.posted, ∃ creds value, Called (actions ++ [action]) creds ∧
      tokenRequest crypto baseUrl creds value = .ok request := by
    intro request hmem
    obtain ⟨creds, value, hcalled, hrequest⟩ := hinv.signed request hmem
    exact ⟨creds, value, hcalled.snoc action, hrequest⟩
  have horder : s'.posted = s.posted → List.Sublist (s'.posted.map SignedRequest.nonceText)
      (s'.nonce.returned.map fun number => some (natText number.value)) := by
    intro hsame
    rw [hsame]
    rcases h.nonce with ⟨-, heq⟩ | ⟨nonceAction, -, hstep⟩
    · rw [heq]
      exact hinv.order
    · exact hinv.order.trans ((returned_prefix_of_step hstep).sublist.map _)
  cases h with
  | post i creds generator value written request hthread hprocess hrequest =>
    refine ⟨fun other hmem => ?_, ?_⟩
    · rcases List.mem_append.1 hmem with hold | hnew
      · exact hsigned other hold
      · cases List.mem_singleton.1 hnew
        exact ⟨creds, value, (hinv.creds i creds (by rw [hthread]; rfl)).snoc _, hrequest⟩
    · rw [List.map_append, List.map_append]
      refine hinv.order.append ?_
      rw [List.map_singleton, (signPrivateRequest_of_tokenRequest hrequest).2.1]
      exact List.Sublist.refl _
  | _ => exact ⟨hsigned, horder rfl⟩

theorem step (hinv : Inv crypto baseUrl actions s) (h : Step crypto baseUrl s action s') :
    Inv crypto baseUrl (actions ++ [action]) s' :=
  ⟨hinv.nonce_step h, h.locking hinv.locking, hinv.creds_step h, (hinv.posted_step h).1, (hinv.posted_step h).2⟩

end Inv

theorem run_inv {actions : List (RestAction ι)} (hrun : run crypto baseUrl actions = some s) :
    Inv crypto baseUrl actions s :=
  Machine.run_invariant (I := Inv crypto baseUrl) Inv.init
    (fun _ _ _ _ _ hinv hstep => hinv.step (step_inversion hstep)) hrun

end RestSystem

namespace PrivateEndpoint

variable {crypto : Crypto} {baseUrl : Bytes} {endpoint : PrivateEndpoint}

/-- A request signed with credentials of the exchange is taken if its nonce is fresh. -/
theorem take_eq_some {creds : Credentials} {request : SignedRequest} {value nonce : ℕ} (hissued : endpoint.Issued creds)
    (hrequest : tokenRequest crypto baseUrl creds value = .ok request) (htext : request.nonceText = some (natText nonce))
    (hbound : nonce < 2 ^ 64) (hfresh : ∀ last ∈ endpoint.lastNonce request.apiKey, last < nonce) :
    endpoint.take crypto request = some { endpoint with
      lastNonce := fun key => if key = request.apiKey then some nonce else endpoint.lastNonce key } := by
  obtain ⟨secret, hne, hsecret, hfilter⟩ := hissued
  obtain ⟨hkey, hvalue, hsign⟩ := RestSystem.signPrivateRequest_of_tokenRequest hrequest
  have hnonce : natText value = natText nonce := Option.some.inj (hvalue.symm.trans htext)
  rw [signPrivateRequest, base64Decode_of_filter hne hfilter, hnonce] at hsign
  obtain ⟨hdigits, hall, hdecimal⟩ := Fix.natText_isDecimal nonce
  have hsize : Fix.toSize (natText nonce) = some nonce := by
    rw [Fix.toSize, if_pos ⟨hdigits, List.all_eq_true.2 hall, hdecimal.symm ▸ hbound⟩, hdecimal]
  rw [take, hkey, hsecret, htext]
  simp only [Option.bind_eq_bind, Option.bind_some, hsize]
  exact if_pos ⟨hsign, hkey ▸ hfresh⟩

/-- Requests with growing nonces are all taken. -/
theorem takes_all (baseUrl : Bytes) {received : List SignedRequest} (nonces : List ℕ)
    (htexts : received.map SignedRequest.nonceText = nonces.map fun nonce => some (natText nonce))
    (hgrow : nonces.Pairwise (· < ·)) (hbound : ∀ nonce ∈ nonces, nonce < 2 ^ 64)
    (hsigned : ∀ request ∈ received, ∃ creds value, endpoint.Issued creds ∧
      tokenRequest crypto baseUrl creds value = .ok request)
    (hfresh : ∀ key, ∀ last ∈ endpoint.lastNonce key, ∀ nonce ∈ nonces, last < nonce) :
    (Machine.run (take crypto) endpoint received).isSome = true := by
  induction received generalizing endpoint nonces with
  | nil => rfl
  | cons request received ih =>
    cases nonces with
    | nil => cases htexts
    | cons nonce nonces =>
      obtain ⟨htext, htexts⟩ := List.cons.inj htexts
      obtain ⟨hless, hgrow⟩ := List.pairwise_cons.1 hgrow
      obtain ⟨creds, value, hissued, hrequest⟩ := hsigned request List.mem_cons_self
      rw [Machine.run, take_eq_some hissued hrequest htext (hbound nonce List.mem_cons_self)
        fun last hlast => hfresh _ last hlast nonce List.mem_cons_self]
      refine ih _ htexts hgrow (fun nonce hmem => hbound nonce (List.mem_cons_of_mem _ hmem))
        (fun request hmem => hsigned request (List.mem_cons_of_mem _ hmem)) fun key last hlast nonce' hmem => ?_
      simp only at hlast
      split_ifs at hlast
      · cases hlast
        exact hless nonce' hmem
      · exact hfresh key last hlast nonce' (List.mem_cons_of_mem _ hmem)

end PrivateEndpoint

/-- Hashes that keep what they are given. -/
def plainCrypto : Crypto := ⟨.ok, fun key message => .ok (key ++ message)⟩

/-- The secret's text has a line break in it. -/
def sharedCreds : Credentials := ⟨ascii "key", ascii "c2Vj\ncmV0"⟩

def sharedEndpoint : PrivateEndpoint := { secrets := fun key => if key = ascii "key" then some (ascii "secret") else none }

/-- Two connections ask at once; the process dies in the second call, and the next one has a
clock that stepped back. -/
def sharedActions : List (RestAction Bool) :=
  [.start true, .fetch false sharedCreds, .fetch true sharedCreds,
    .lock true, .next true 17, .persist (.prepare true true), .persist (.flush true), .persist (.rename true), .post true,
    .respond true none,
    .lock false, .next false 40, .persist (.prepare true true), .persist (.write 1), .crash,
    .start true, .fetch false sharedCreds,
    .lock false, .next false 5, .persist (.prepare true true), .persist (.flush true), .persist (.rename true), .post false]

theorem sharedActions_run : (RestSystem.run plainCrypto (ascii "https://host/") sharedActions).isSome = true := by
  decide +kernel

end CryptoTrader.Kraken
