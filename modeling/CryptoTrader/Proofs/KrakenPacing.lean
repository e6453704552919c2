import CryptoTrader.Sanity.CaptureSession
import CryptoTrader.Spec.KrakenClient

/-! How often the Kraken client sets up connections. Every setup costs a signed REST call, so
a setup waits until the least time since the one before it has passed, and a setup that
failed is followed by a pause that doubles. Both are read off the log of the setups, whatever
the socket, the watchdog and the journal do in between. -/

namespace CryptoTrader.Kraken

/-- `min_reconnect_wait_ms` in nanoseconds. -/
def setupGapNs (config : WsClientConfig) : ℕ := config.minReconnectWaitMs * kNanosPerMilli

/-- When the setups of a log were stamped. -/
def setUpTimes (setups : List SetupEvent) : List ℕ :=
  setups.filterMap fun event => match event with
    | .setUp atNs => some atNs
    | _ => none

/-- The failures since the last connection that was set up. -/
def recentFailures (setups : List SetupEvent) : ℕ :=
  setups.foldl (fun failures event => match event with
    | .failed _ => failures + 1
    | .connected _ => 0
    | _ => failures) 0

/-- When the pause a log ends in is over. -/
def pauseEndNs (config : WsClientConfig) (setups : List SetupEvent) : ℕ :=
  match setups.getLast? with
  | some (.failed atNs) => atNs + backOffMs config (recentFailures setups % 2 ^ 32) * kNanosPerMilli
  | _ => 0

section Log

variable (config : WsClientConfig) (setups : List SetupEvent)

theorem setUpTimes_snoc (event : SetupEvent) : setUpTimes (setups ++ [event]) = setUpTimes setups ++ setUpTimes [event] :=
  List.filterMap_append

theorem recentFailures_failed (atNs : ℕ) : recentFailures (setups ++ [.failed atNs]) = recentFailures setups + 1 := by
  simp only [recentFailures, List.foldl_concat]

theorem recentFailures_connected (atNs : ℕ) : recentFailures (setups ++ [.connected atNs]) = 0 := by
  simp only [recentFailures, List.foldl_concat]

theorem recentFailures_setUp (atNs : ℕ) : recentFailures (setups ++ [.setUp atNs]) = recentFailures setups := by
  simp only [recentFailures, List.foldl_concat]

theorem recentFailures_fetch (atNs : ℕ) : recentFailures (setups ++ [.fetch atNs]) = recentFailures setups := by
  simp only [recentFailures, List.foldl_concat]

theorem pauseEndNs_failed (atNs : ℕ) : pauseEndNs config (setups ++ [.failed atNs]) =
    atNs + backOffMs config ((recentFailures setups + 1) % 2 ^ 32) * kNanosPerMilli := by
  simp only [pauseEndNs, List.getLast?_concat, recentFailures_failed]

end Log

/-- Every entry of a log stands in a relation to the log before it. -/
def EveryEntry {α : Type} (admits : List α → α → Prop) (log : List α) : Prop :=
  ∀ before entry after, log = before ++ entry :: after → admits before entry

theorem EveryEntry.nil {α : Type} {admits : List α → α → Prop} : EveryEntry admits [] := by
  intro before entry after h
  simp at h

theorem EveryEntry.snoc {α : Type} {admits : List α → α → Prop} {log : List α} {entry : α}
    (hlog : EveryEntry admits log) (hentry : admits log entry) : EveryEntry admits (log ++ [entry]) := by
  intro before e after h
  rcases List.eq_nil_or_concat after with rfl | ⟨after, last, rfl⟩
  · obtain ⟨rfl, hsame⟩ := List.append_inj' h rfl
    obtain rfl := List.singleton_inj.1 hsame
    exact hentry
  · have hsplit : log ++ [entry] = (before ++ e :: after) ++ [last] := by simpa using h
    exact hlog before e after (List.append_inj_left' hsplit rfl)

/-- Times that keep a gap leave at most `n` of them in a stretch of `n` gaps. -/
theorem length_filter_le_of_spaced {gap : ℕ} {times : List ℕ} (h : times.Pairwise fun a b => a + gap ≤ b) :
    ∀ start n, (times.filter fun t => start ≤ t ∧ t < start + n * gap).length ≤ n := by
  induction times with
  | nil => simp
  | cons t times ih =>
    intro start n
    rw [List.pairwise_cons] at h
    obtain ⟨hfirst, hrest⟩ := h
    rw [List.filter_cons]
    split_ifs with hin
    · simp only [decide_eq_true_eq] at hin
      cases n with
      | zero => omega
      | succ n =>
        have hlater : times.filter (fun t => start ≤ t ∧ t < start + (n + 1) * gap) =
            times.filter (fun t => start + gap ≤ t ∧ t < start + gap + n * gap) := by
          refine List.filter_congr fun t' ht' => ?_
          have hgap := hfirst t' ht'
          have hsum : start + (n + 1) * gap = start + gap + n * gap := by rw [Nat.succ_mul]; omega
          rw [hsum, decide_eq_decide]
          omega
        rw [List.length_cons, hlater]
        exact Nat.succ_le_succ (ih hrest (start + gap) n)
    · exact ih hrest start n

/-- What of the client has to do with its setups. -/
structure SetupView where
  config : WsClientConfig
  clockNs : ℕ
  stopping : Bool
  failures : ℕ
  lastSetupNs : ℕ
  socket : SocketThread
  setups : List SetupEvent

def WsClient.setupView (c : WsClient) : SetupView :=
  ⟨c.config, c.clockNs, c.stopping, c.consecutiveSetupFailures, c.lastSetupNs, c.socket, c.setups⟩

/-- The places of `HandleOpen` from the token on. -/
def SocketThread.working : SocketThread → Bool
  | .fetching | .sending _ | .connecting | .starting => true
  | _ => false

/-- In no callback, or in that of a closed socket. -/
def SocketThread.resting : SocketThread → Bool
  | .idle | .closing => true
  | _ => false

/-- What a step can do about the setups. -/
inductive SetupStep (v : SetupView) : SetupView → Prop where
  | elsewhere (clockNs : ℕ) (stopping : Bool) (hclock : v.clockNs ≤ clockNs)
      (hstop : v.stopping = true → stopping = true) : SetupStep v { v with clockNs, stopping }
  | rest (socket : SocketThread) (hfrom : v.socket.resting = true) (hto : socket.resting = true) :
      SetupStep v { v with socket }
  | throttle (untilNs : ℕ) (hfrom : v.socket.resting = true)
      (hwait : v.lastSetupNs ≤ v.clockNs → v.lastSetupNs + setupGapNs v.config ≤ untilNs) :
      SetupStep v { v with socket := .throttling untilNs }
  | skip (hfrom : v.socket.resting = true)
      (hlong : v.lastSetupNs ≠ 0 → v.lastSetupNs ≤ v.clockNs → v.lastSetupNs + setupGapNs v.config ≤ v.clockNs) :
      SetupStep v { v with socket := .passing }
  | giveUp (untilNs : ℕ) (hfrom : v.socket = .throttling untilNs) : SetupStep v { v with socket := .idle }
  | waited (untilNs : ℕ) (hfrom : v.socket = .throttling untilNs) (hdue : untilNs ≤ v.clockNs) :
      SetupStep v { v with socket := .passing }
  | setUp (hfrom : v.socket = .passing) :
      SetupStep v
        { v with lastSetupNs := v.clockNs, socket := .noting, setups := v.setups ++ [.setUp v.clockNs] }
  | fetch (hfrom : v.socket = .noting) :
      SetupStep v { v with socket := .fetching, setups := v.setups ++ [.fetch v.clockNs] }
  | work (socket : SocketThread) (hfrom : v.socket.working = true) (hto : socket.working = true) :
      SetupStep v { v with socket }
  | fail (hfrom : v.socket.working = true) :
      SetupStep v
        { v with
          failures := (v.failures + 1) % 2 ^ 32
          socket := .backingOff (v.clockNs + backOffMs v.config ((v.failures + 1) % 2 ^ 32) * kNanosPerMilli)
          setups := v.setups ++ [.failed v.clockNs] }
  | backedOff (untilNs : ℕ) (hfrom : v.socket = .backingOff untilNs) (hdue : v.stopping = true ∨ untilNs ≤ v.clockNs) :
      SetupStep v { v with socket := .idle }
  | connected (hfrom : v.socket.working = true) :
      SetupStep v { v with failures := 0, socket := .idle, setups := v.setups ++ [.connected v.clockNs] }
  | fatal (hfrom : v.socket.working = true) : SetupStep v { v with stopping := true, socket := .idle }

theorem SetupStep.config_eq {v v' : SetupView} (h : SetupStep v v') : v'.config = v.config := by
  cases h <;> rfl

section Steps

variable {J : JournalPlatform} {c c' : WsClient}

theorem WsClient.calledBack_eq_some {socketOpen : Bool} {next : Option WsClient}
    (h : c.calledBack socketOpen next = some c') : c.socket = .idle ∧ c.socketOpen = socketOpen ∧ next = some c' := by
  unfold calledBack at h
  split_ifs at h with hcall
  exact ⟨hcall.1, hcall.2, h⟩

theorem WsClient.throttle_step (hidle : c.socket = .idle) : SetupStep c.setupView c.throttle.setupView := by
  have hrest : c.setupView.socket.resting = true := by
    change c.socket.resting = true
    rw [hidle]
    rfl
  have hms : ∀ ns, ns / kNanosPerMilli * kNanosPerMilli ≤ ns := fun ns => Nat.div_mul_le_self ns _
  unfold throttle
  simp only
  split_ifs with hfirst hearly hearly
  · omega
  · exact .skip hrest fun hsome _ => absurd hfirst hsome
  · refine .throttle _ hrest fun hle => ?_
    change c.lastSetupNs + setupGapNs c.config ≤ _
    rw [setupGapNs, Nat.sub_mul]
    have hpast : c.lastSetupNs ≤ c.clockNs := hle
    have := hms (c.clockNs - c.lastSetupNs)
    have := Nat.mul_le_mul_right kNanosPerMilli (Nat.le_of_lt hearly)
    omega
  · refine .skip hrest fun _ hle => ?_
    change c.lastSetupNs + setupGapNs c.config ≤ c.clockNs
    have hpast : c.lastSetupNs ≤ c.clockNs := hle
    have := hms (c.clockNs - c.lastSetupNs)
    have := Nat.mul_le_mul_right kNanosPerMilli (Nat.le_of_not_lt hearly)
    rw [setupGapNs]
    omega

theorem WsClient.elsewhere (hclock : c.clockNs ≤ c'.clockNs) (hstop : c.stopping = true → c'.stopping = true)
    (hconfig : c'.config = c.config) (hfailures : c'.consecutiveSetupFailures = c.consecutiveSetupFailures)
    (hlast : c'.lastSetupNs = c.lastSetupNs) (hsocket : c'.socket = c.socket)
    (hsetups : c'.setups = c.setups) :
    SetupStep c.setupView c'.setupView := by
  have hview : c'.setupView = { c.setupView with clockNs := c'.clockNs, stopping := c'.stopping } := by
    simp only [setupView, hconfig, hfailures, hlast, hsocket, hsetups]
  rw [hview]
  exact .elsewhere _ _ hclock hstop

theorem WsClient.connectReturned_step (hworking : c.socket.working = true) :
    SetupStep c.setupView c.connectReturned.setupView := by
  unfold connectReturned
  split
  · exact .connected hworking
  · have hview : ({ c with socket := .idle, fatal := true } : WsClient).setupView =
        { c.setupView with stopping := true, socket := .idle } := by
      simp only [setupView, stopping, Bool.or_true]
    rw [hview]
    exact .fatal hworking

theorem WsClient.advance_step (h : c.advance = some c') : SetupStep c.setupView c'.setupView := by
  unfold advance at h
  split at h
  · next untilNs hplace =>
    split_ifs at h with hstop hdue
    · cases h
      exact .giveUp untilNs hplace
    · cases h
      exact .waited untilNs hplace hdue
  · next hplace =>
    cases h
    exact .setUp hplace
  · next hplace =>
    cases h
    exact .fetch hplace
  · next untilNs hplace =>
    split_ifs at h with hdue
    cases h
    exact .backedOff untilNs hplace hdue
  · cases h

theorem WsClient.watch_step (h : c.watch = some c') : SetupStep c.setupView c'.setupView := by
  unfold watch at h
  split at h
  · split_ifs at h
    · cases h
      exact .elsewhere _ _ (Nat.le_refl _) id
    · cases h
      exact .elsewhere _ _ (Nat.le_refl _) id
  · split_ifs at h
    · cases h
      exact .elsewhere _ _ (Nat.le_refl _) id
    · cases h
      exact .elsewhere _ _ (Nat.le_refl _) id
  · cases h
    exact .elsewhere _ _ (Nat.le_refl _) id
  · cases h
    exact .elsewhere _ _ (Nat.le_refl _) id
  · cases h

theorem WsClient.step_setup {action : WsAction} (h : c.step J action = some c') :
    SetupStep c.setupView c'.setupView := by
  have hsame : c.clockNs ≤ c.clockNs := Nat.le_refl _
  cases action with
  | tick ns =>
    cases h
    exact .elsewhere _ _ (Nat.le_add_right _ _) id
  | opened =>
    obtain ⟨hidle, -, hnext⟩ := calledBack_eq_some h
    cases hnext
    exact WsClient.throttle_step (c := { c with socketOpen := true, streams := c.streams ++ [[]] }) hidle
  | message call =>
    obtain ⟨-, -, hnext⟩ := calledBack_eq_some h
    obtain ⟨session, -, rfl⟩ := Option.map_eq_some_iff.1 hnext
    exact .elsewhere _ _ hsame id
  | closed flushed =>
    obtain ⟨hidle, -, hnext⟩ := calledBack_eq_some h
    obtain ⟨session, -, rfl⟩ := Option.map_eq_some_iff.1 hnext
    have hrest : c.socket.resting = true := by
      rw [hidle]
      rfl
    unfold called
    simp only
    split_ifs
    · exact .rest .closing hrest rfl
    · exact .rest .idle hrest rfl
  | error =>
    obtain ⟨-, -, hnext⟩ := calledBack_eq_some h
    cases hnext
    exact .elsewhere _ _ hsame id
  | alive =>
    obtain ⟨-, -, hnext⟩ := calledBack_eq_some h
    cases hnext
    exact .elsewhere _ _ hsame id
  | advance => exact advance_step h
  | fetched token =>
    simp only [step] at h
    split_ifs at h with hplace
    have hworking : c.socket.working = true := by
      rw [hplace]
      rfl
    cases token with
    | some token =>
      cases h
      exact .work (.sending token) hworking rfl
    | none =>
      cases h
      exact .fail hworking
  | sent success =>
    simp only [step] at h
    split at h
    · next token hplace =>
      have hworking : c.socket.working = true := by
        rw [hplace]
        rfl
      cases success with
      | true =>
        cases h
        exact .work .connecting hworking rfl
      | false =>
        cases h
        exact .fail hworking
    · cases h
  | connect call =>
    simp only [step] at h
    split_ifs at h with hplace
    have hworking : c.socket.working = true := by
      rw [hplace]
      rfl
    obtain ⟨session, -, rfl⟩ := Option.map_eq_some_iff.1 h
    unfold called
    simp only
    split_ifs
    · exact .work .starting hworking rfl
    · exact WsClient.connectReturned_step (c := { c with session := session }) hworking
  | resume =>
    simp only [step, resume] at h
    split at h
    · next hplace =>
      have hworking : c.socket.working = true := by
        rw [hplace]
        rfl
      obtain ⟨session, -, rfl⟩ := Option.map_eq_some_iff.1 h
      exact WsClient.connectReturned_step (c := { c with session := session }) hworking
    · next hplace =>
      have hrest : c.socket.resting = true := by
        rw [hplace]
        rfl
      obtain ⟨session, -, rfl⟩ := Option.map_eq_some_iff.1 h
      exact .rest .idle hrest rfl
    · cases h
  | journal written =>
    obtain ⟨session, -, rfl⟩ := Option.map_eq_some_iff.1 h
    exact .elsewhere _ _ hsame id
  | report =>
    simp only [step] at h
    split_ifs at h
    cases h
    refine elsewhere hsame (fun _ => ?_) rfl rfl rfl rfl rfl
    simp only [stopping, Bool.or_true]
  | watchdog => exact watch_step h
  | requestStop =>
    cases h
    unfold requestStop
    split_ifs
    · exact .elsewhere _ _ hsame id
    · refine elsewhere hsame (fun _ => ?_) rfl rfl rfl rfl rfl
      simp only [stopping, Bool.true_or]

end Steps

/-- Where a setup is tells what the log ends in and what has been waited for. -/
def SetupPlace (v : SetupView) : SocketThread → Prop
  | .idle | .closing => v.stopping = false → pauseEndNs v.config v.setups ≤ v.clockNs
  | .throttling untilNs =>
    (v.stopping = false → pauseEndNs v.config v.setups ≤ v.clockNs) ∧ v.lastSetupNs + setupGapNs v.config ≤ untilNs
  | .passing =>
    (v.stopping = false → pauseEndNs v.config v.setups ≤ v.clockNs) ∧
      (v.lastSetupNs ≠ 0 → v.lastSetupNs + setupGapNs v.config ≤ v.clockNs)
  | .noting => ∃ atNs, v.setups.getLast? = some (.setUp atNs) ∧ atNs ≤ v.clockNs
  | .fetching | .sending _ | .connecting | .starting => ∃ atNs, v.setups.getLast? = some (.fetch atNs)
  | .backingOff untilNs => pauseEndNs v.config v.setups ≤ untilNs

/-- The log of the setups so far keeps the gap and the pauses. -/
structure Paced (v : SetupView) : Prop where
  clock : 0 < v.clockNs
  stamped : v.lastSetupNs = (setUpTimes v.setups).getLast?.getD 0
  past : ∀ t ∈ setUpTimes v.setups, 0 < t ∧ t ≤ v.clockNs
  spaced : (setUpTimes v.setups).Pairwise fun a b => a + setupGapNs v.config ≤ b
  counted : v.failures = recentFailures v.setups % 2 ^ 32
  place : SetupPlace v v.socket
  fetches : EveryEntry (fun before entry => ∀ atNs, entry = .fetch atNs →
    ∃ setUpNs, before.getLast? = some (.setUp setUpNs) ∧ setUpNs ≤ atNs) v.setups
  pauses : v.stopping = false → EveryEntry (fun before entry => ∀ atNs, entry = .setUp atNs →
    pauseEndNs v.config before ≤ atNs) v.setups

namespace Paced

variable {v v' : SetupView}

theorem last_le (h : Paced v) : v.lastSetupNs ≤ v.clockNs := by
  rw [h.stamped]
  cases hlast : (setUpTimes v.setups).getLast? with
  | none => exact Nat.zero_le _
  | some t => exact (h.past t (List.mem_of_getLast? hlast)).2

/-- All stamps are a gap away from a time that is a gap away from the last one. -/
theorem gap_of_last (h : Paced v) (hlast : v.lastSetupNs ≠ 0 → v.lastSetupNs + setupGapNs v.config ≤ v.clockNs) :
    ∀ t ∈ setUpTimes v.setups, t + setupGapNs v.config ≤ v.clockNs := by
  intro t ht
  rcases List.eq_nil_or_concat (setUpTimes v.setups) with hnil | ⟨times, last, htimes⟩
  · rw [hnil] at ht
    cases ht
  · rw [List.concat_eq_append] at htimes
    have hstamp : v.lastSetupNs = last := by rw [h.stamped, htimes, List.getLast?_concat, Option.getD_some]
    have hpos := (h.past last (by rw [htimes]; simp)).1
    have hgap := hlast (by omega)
    have hspaced := h.spaced
    rw [htimes, List.pairwise_append] at hspaced
    rw [htimes] at ht
    rcases List.mem_append.1 ht with ht | ht
    · have := hspaced.2.2 t ht last (List.mem_singleton_self last)
      omega
    · obtain rfl := List.mem_singleton.1 ht
      omega

theorem rested (h : Paced v) (hrest : v.socket.resting = true) :
    v.stopping = false → pauseEndNs v.config v.setups ≤ v.clockNs := by
  have hplace := h.place
  cases hsocket : v.socket <;> rw [hsocket] at hplace hrest <;> first | exact hplace | cases hrest

theorem worked (h : Paced v) (hwork : v.socket.working = true) : ∃ atNs, v.setups.getLast? = some (.fetch atNs) := by
  have hplace := h.place
  cases hsocket : v.socket <;> rw [hsocket] at hplace hwork <;> first | exact hplace | cases hwork

theorem setupPlace_resting {socket : SocketThread} (hrest : socket.resting = true)
    (hpause : v.stopping = false → pauseEndNs v.config v.setups ≤ v.clockNs) : SetupPlace v socket := by
  cases socket <;> first | exact hpause | cases hrest

theorem setupPlace_working {socket : SocketThread} (hwork : socket.working = true)
    (hlast : ∃ atNs, v.setups.getLast? = some (.fetch atNs)) : SetupPlace v socket := by
  cases socket <;> first | exact hlast | cases hwork

theorem pauseEndNs_of_fetch {atNs : ℕ} (hlast : v.setups.getLast? = some (.fetch atNs)) :
    pauseEndNs v.config v.setups = 0 := by
  rw [pauseEndNs, hlast]

theorem move (h : Paced v) {socket : SocketThread} (hplace : SetupPlace v socket) : Paced { v with socket } where
  clock := h.clock
  stamped := h.stamped
  past := h.past
  spaced := h.spaced
  counted := h.counted
  place := by cases socket <;> exact hplace
  fetches := h.fetches
  pauses := h.pauses

theorem setupPlace_elsewhere {clockNs : ℕ} {stopping : Bool} (hclock : v.clockNs ≤ clockNs)
    (hstop : v.stopping = true → stopping = true) {socket : SocketThread} (h : SetupPlace v socket) :
    SetupPlace { v with clockNs, stopping } socket := by
  have hgoing : stopping = false → v.stopping = false := by
    intro hno
    rw [Bool.eq_false_iff]
    intro hyes
    rw [hstop hyes] at hno
    cases hno
  have hpause : (v.stopping = false → pauseEndNs v.config v.setups ≤ v.clockNs) →
      stopping = false → pauseEndNs v.config v.setups ≤ clockNs :=
    fun hold hno => Nat.le_trans (hold (hgoing hno)) hclock
  cases socket with
  | idle => exact hpause h
  | closing => exact hpause h
  | throttling untilNs => exact ⟨hpause h.1, h.2⟩
  | passing => exact ⟨hpause h.1, fun hsome => Nat.le_trans (h.2 hsome) hclock⟩
  | noting =>
    obtain ⟨atNs, hlast, hle⟩ := h
    exact ⟨atNs, hlast, Nat.le_trans hle hclock⟩
  | fetching => exact h
  | sending token => exact h
  | connecting => exact h
  | starting => exact h
  | backingOff untilNs => exact h

theorem elsewhere (h : Paced v) {clockNs : ℕ} {stopping : Bool} (hclock : v.clockNs ≤ clockNs)
    (hstop : v.stopping = true → stopping = true) : Paced { v with clockNs, stopping } where
  clock := Nat.lt_of_lt_of_le h.clock hclock
  stamped := h.stamped
  past := fun t ht => ⟨(h.past t ht).1, Nat.le_trans (h.past t ht).2 hclock⟩
  spaced := h.spaced
  counted := h.counted
  place := setupPlace_elsewhere hclock hstop h.place
  fetches := h.fetches
  pauses := fun hno => h.pauses (by
    cases hyes : v.stopping with
    | false => rfl
    | true =>
      change stopping = false at hno
      rw [hstop hyes] at hno
      cases hno)

theorem setUp (h : Paced v) (hfrom : v.socket = .passing) :
    Paced { v with lastSetupNs := v.clockNs, socket := .noting, setups := v.setups ++ [.setUp v.clockNs] } := by
  have hplace := h.place
  rw [hfrom] at hplace
  obtain ⟨hpause, hlast⟩ := hplace
  have hgap := h.gap_of_last hlast
  have htimes : setUpTimes (v.setups ++ [.setUp v.clockNs]) = setUpTimes v.setups ++ [v.clockNs] := setUpTimes_snoc _ _
  refine ⟨h.clock, ?_, fun t ht => ?_, ?_, ?_, ?_, ?_, fun hno => ?_⟩
  · simp only [htimes, List.getLast?_concat, Option.getD_some]
  · simp only [htimes, List.mem_append, List.mem_singleton] at ht
    rcases ht with ht | rfl
    · exact h.past t ht
    · exact ⟨h.clock, Nat.le_refl _⟩
  · simp only [htimes, List.pairwise_append]
    refine ⟨h.spaced, List.pairwise_singleton _ _, fun a ha b hb => ?_⟩
    obtain rfl := List.mem_singleton.1 hb
    exact hgap a ha
  · simp only [recentFailures_setUp]
    exact h.counted
  · exact ⟨v.clockNs, List.getLast?_concat, Nat.le_refl _⟩
  · exact h.fetches.snoc fun atNs hentry => by cases hentry
  · refine (h.pauses hno).snoc fun atNs hentry => ?_
    cases hentry
    exact hpause hno

/-- An entry that is not a setup leaves the stamps as they are. -/
theorem append (h : Paced v) {entry : SetupEvent} (hentry : setUpTimes [entry] = []) {failures : ℕ}
    (hcounted : failures = recentFailures (v.setups ++ [entry]) % 2 ^ 32) {socket : SocketThread}
    (hplace : SetupPlace { v with failures, setups := v.setups ++ [entry] } socket)
    (hfetch : ∀ atNs, entry = .fetch atNs → ∃ setUpNs, v.setups.getLast? = some (.setUp setUpNs) ∧ setUpNs ≤ atNs) :
    Paced { v with failures, socket, setups := v.setups ++ [entry] } := by
  have htimes : setUpTimes (v.setups ++ [entry]) = setUpTimes v.setups := by
    rw [setUpTimes_snoc, hentry, List.append_nil]
  refine ⟨h.clock, ?_, ?_, ?_, hcounted, ?_, h.fetches.snoc hfetch, fun hno => ?_⟩
  · simp only [htimes]
    exact h.stamped
  · simp only [htimes]
    exact h.past
  · simp only [htimes]
    exact h.spaced
  · cases socket <;> exact hplace
  · refine (h.pauses hno).snoc fun atNs hsetUp => ?_
    rw [hsetUp] at hentry
    cases hentry

theorem step (h : Paced v) (hstep : SetupStep v v') : Paced v' := by
  cases hstep with
  | elsewhere clockNs stopping hclock hstop => exact h.elsewhere hclock hstop
  | rest socket hfrom hto => exact h.move (setupPlace_resting hto (h.rested hfrom))
  | throttle untilNs hfrom hwait => exact h.move ⟨h.rested hfrom, hwait h.last_le⟩
  | skip hfrom hlong => exact h.move ⟨h.rested hfrom, fun hsome => hlong hsome h.last_le⟩
  | giveUp untilNs hfrom =>
    have hplace := h.place
    rw [hfrom] at hplace
    exact h.move hplace.1
  | waited untilNs hfrom hdue =>
    have hplace := h.place
    rw [hfrom] at hplace
    exact h.move ⟨hplace.1, fun _ => Nat.le_trans hplace.2 hdue⟩
  | setUp hfrom => exact h.setUp hfrom
  | fetch hfrom =>
    have hplace := h.place
    rw [hfrom] at hplace
    refine h.append rfl ?_ ⟨v.clockNs, List.getLast?_concat⟩ fun atNs hentry => ?_
    · rw [recentFailures_fetch]
      exact h.counted
    · cases hentry
      exact hplace
  | work socket hfrom hto => exact h.move (setupPlace_working hto (h.worked hfrom))
  | fail hfrom =>
    have hcounted : (v.failures + 1) % 2 ^ 32 = (recentFailures v.setups + 1) % 2 ^ 32 := by
      rw [h.counted, Nat.mod_add_mod]
    refine h.append rfl ?_ ?_ fun atNs hentry => by cases hentry
    · rw [recentFailures_failed]
      exact hcounted
    · change pauseEndNs v.config (v.setups ++ [.failed v.clockNs]) ≤ _
      rw [pauseEndNs_failed, hcounted]
  | backedOff untilNs hfrom hdue =>
    have hplace := h.place
    rw [hfrom] at hplace
    refine h.move fun hno => ?_
    rcases hdue with hstop | hdue
    · rw [hno] at hstop
      cases hstop
    · exact Nat.le_trans hplace hdue
  | connected hfrom =>
    refine h.append rfl ?_ (fun _ => ?_) fun atNs hentry => by cases hentry
    · rw [recentFailures_connected, Nat.zero_mod]
    · change pauseEndNs v.config (v.setups ++ [.connected v.clockNs]) ≤ _
      rw [pauseEndNs, List.getLast?_concat]
      exact Nat.zero_le _
  | fatal hfrom => exact (h.elsewhere (Nat.le_refl _) fun _ => rfl).move (fun hno => by cases hno)

end Paced

section Runs

variable {J : JournalPlatform} {session : SessionConfig} {config : WsClientConfig} {startNs : ℕ}
  {actions : List WsAction} {c : WsClient}

theorem WsClient.run_paced (hclock : 0 < startNs)
    (hrun : (WsClient.start session config startNs).run J actions = some c) : Paced c.setupView ∧ c.config = config := by
  refine Machine.run_invariant (I := fun _ c => Paced c.setupView ∧ c.config = config) ⟨?_, rfl⟩
    (fun _ c action c' _ hinv hstep => ?_) hrun
  · refine ⟨hclock, rfl, ?_, List.Pairwise.nil, rfl, fun _ => Nat.zero_le _, EveryEntry.nil, fun _ => EveryEntry.nil⟩
    intro t ht
    cases ht
  · have hsetup := step_setup hstep
    refine ⟨hinv.1.step hsetup, ?_⟩
    exact hsetup.config_eq.trans hinv.2

/-- However the sockets, the exchange's answers, the watchdog, the journal and stop requests
interleave: a stretch of `n` times the least wait has at most `n` setups in it; every signed
REST call is made right after a setup of its own; and unless the client is stopping, a setup
that follows a failed one waits out the pause for that many failures in a row. -/
theorem kraken_setups_paced (hclock : 0 < startNs)
    (hrun : (WsClient.start session config startNs).run J actions = some c) :
    (∀ fromNs n, ((setUpTimes c.setups).filter fun t =>
      fromNs ≤ t ∧ t < fromNs + n * (config.minReconnectWaitMs * kNanosPerMilli)).length ≤ n) ∧
    (∀ before atNs after, c.setups = before ++ .fetch atNs :: after →
      ∃ setUpNs, before.getLast? = some (.setUp setUpNs) ∧ setUpNs ≤ atNs) ∧
    (c.stopping = false → ∀ before failedNs atNs after,
      c.setups = before ++ .failed failedNs :: .setUp atNs :: after →
      failedNs + backOffMs config ((recentFailures before + 1) % 2 ^ 32) * kNanosPerMilli ≤ atNs) := by
  obtain ⟨hpaced, hconfig⟩ := WsClient.run_paced hclock hrun
  have hspaced := hpaced.spaced
  have hpauses := hpaced.pauses
  simp only [WsClient.setupView, hconfig] at hspaced hpauses
  refine ⟨length_filter_le_of_spaced hspaced, fun before atNs after hlog => ?_,
    fun hno before failedNs atNs after hlog => ?_⟩
  · exact hpaced.fetches before _ after hlog atNs rfl
  · have hsplit : c.setups = (before ++ [.failed failedNs]) ++ .setUp atNs :: after := by
      rw [hlog, List.append_assoc]
      rfl
    have hpause := hpauses hno _ _ after hsplit atNs rfl
    rwa [pauseEndNs_failed] at hpause

end Runs

/-- A token is refused, the client pauses and sets the next connection up. -/
def refusedToken : List WsAction :=
  [.opened, .advance, .advance, .fetched none, .tick 1000000000, .advance, .closed true, .opened, .advance]

theorem refusedToken_runs : ((WsClient.start {} {} 1).run blankJournal refusedToken).isSome = true := by decide

theorem refused_token_paced :
    (((WsClient.start {} {} 1).run blankJournal refusedToken).get refusedToken_runs).setups =
      [.setUp 1, .fetch 1, .failed 1, .setUp 1000000001] ∧
    1 + backOffMs {} 1 * kNanosPerMilli ≤ 1000000001 :=
  have hpaced := kraken_setups_paced (by decide) (Option.some_get refusedToken_runs).symm
  ⟨by decide, hpaced.2.2 (by decide) [.setUp 1, .fetch 1] 1 1000000001 [] (by decide)⟩

end CryptoTrader.Kraken
