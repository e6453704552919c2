import CryptoTrader.Sanity.Decimal
import CryptoTrader.Spec.Nonce

/-! Nonces only grow, over every restart and every crash. The state file holds the last
mark that was renamed into place, and a nonce is returned only after its mark was. -/

namespace CryptoTrader.Nonce

theorem isSpace_of_isDigit {byte : UInt8} (h : Fix.isDigit byte = true) : isSpace byte = false := by
  rw [Fix.isDigit_iff] at h
  rw [isSpace, Bool.or_eq_false_iff, Bool.and_eq_false_iff, decide_eq_false_iff_not, decide_eq_false_iff_not,
    decide_eq_false_iff_not, UInt8.le_iff_toNat_le, UInt8.le_iff_toNat_le, ← UInt8.toNat_inj]
  have hbytes : (32 : UInt8).toNat = 32 ∧ (9 : UInt8).toNat = 9 ∧ (13 : UInt8).toNat = 13 := by decide
  omega

/-- A mark is read back as it was written. -/
theorem readHighWaterMark_markText {value : ℕ} (h : value < 2 ^ 64) :
    readHighWaterMark (some (markText value)) true = .ok value := by
  obtain ⟨hne, hdigits, hvalue⟩ := Fix.natText_isDecimal value
  have htrim : (markText value).rdropWhile isSpace = natText value := by
    rw [markText, List.rdropWhile_concat_pos _ _ _ (by decide), List.rdropWhile_eq_self_iff]
    intro hne
    rw [isSpace_of_isDigit (hdigits _ (List.getLast_mem hne))]
    decide
  have hsize : Fix.toSize (natText value) = some value := by
    rw [Fix.toSize, if_pos ⟨hne, List.all_eq_true.2 hdigits, hvalue.symm ▸ h⟩, hvalue]
  rw [readHighWaterMark]
  simp [htrim, hsize]

namespace System

/-- What one action does. -/
inductive Step (s : System) : Action → System → Prop where
  | start (readable : Bool) (hnone : s.process = none) :
      Step s (.start readable) { s with process := some ⟨restore s.stateFile readable, .idle⟩ }
  | call (generator : NonceGenerator) (nowMicros : ℕ) (hprocess : s.process = some ⟨generator, .idle⟩) :
      Step s (.call nowMicros)
        { s with process := some ⟨generator.nextFrom nowMicros, .preparing (generator.nextFrom nowMicros).last⟩ }
  | opened (generator : NonceGenerator) (value : ℕ) (directory opened : Bool)
      (hprocess : s.process = some ⟨generator, .preparing value⟩) :
      Step s (.prepare directory opened) { s with process := some ⟨generator, .writing value⟩, temporary := some [] }
  | write (generator : NonceGenerator) (value count : ℕ) (hprocess : s.process = some ⟨generator, .writing value⟩) :
      Step s (.write count) { s with temporary := some ((markText value).take count) }
  | flushed (generator : NonceGenerator) (value : ℕ) (hprocess : s.process = some ⟨generator, .writing value⟩) :
      Step s (.flush true)
        { s with process := some ⟨generator, .renaming value⟩, temporary := some (markText value) }
  | renamed (generator : NonceGenerator) (value : ℕ) (hprocess : s.process = some ⟨generator, .renaming value⟩) :
      Step s (.rename true)
        { s with
          process := some ⟨generator, .returning value true⟩, stateFile := s.temporary, temporary := none
          renamed := s.renamed ++ [value] }
  | failed (action : Action) (generator : NonceGenerator) (phase : Phase) (value : ℕ) (temporary : Option Bytes)
      (hprocess : s.process = some ⟨generator, phase⟩) :
      Step s action { s with process := some ⟨generator, .returning value false⟩, temporary }
  | finish (generator : NonceGenerator) (value : ℕ) (written : Bool)
      (hprocess : s.process = some ⟨generator, .returning value written⟩) :
      Step s .finish
        { s with process := some ⟨generator, .idle⟩, returned := s.returned ++ [⟨value, written⟩] }
  | crash : Step s .crash { s with process := none }

variable {s s' : System} {action : Action}

theorem step_inversion (h : s.step action = some s') : Step s action s' := by
  cases action with
  | start readable =>
    rw [step] at h
    split_ifs at h with hnone
    cases h
    exact .start readable hnone
  | crash =>
    obtain ⟨process, -, rfl⟩ := Option.map_eq_some_iff.1 h
    exact .crash
  | call nowMicros =>
    obtain ⟨⟨generator, phase⟩, hprocess, h⟩ := Option.bind_eq_some_iff.1 h
    cases phase <;> cases h
    exact .call generator nowMicros hprocess
  | prepare directory opened =>
    obtain ⟨⟨generator, phase⟩, hprocess, h⟩ := Option.bind_eq_some_iff.1 h
    cases phase <;> simp only [prepare, reduceCtorEq] at h
    split_ifs at h <;> cases h
    · exact .opened generator _ directory opened hprocess
    · exact .failed _ generator _ _ _ hprocess
  | write count =>
    obtain ⟨⟨generator, phase⟩, hprocess, h⟩ := Option.bind_eq_some_iff.1 h
    cases phase <;> cases h
    exact .write generator _ count hprocess
  | flush written =>
    obtain ⟨⟨generator, phase⟩, hprocess, h⟩ := Option.bind_eq_some_iff.1 h
    cases phase <;> simp only [flush, reduceCtorEq] at h
    split_ifs at h with hwritten <;> cases h
    · cases hwritten
      exact .flushed generator _ hprocess
    · exact .failed _ generator _ _ _ hprocess
  | rename renamed =>
    obtain ⟨⟨generator, phase⟩, hprocess, h⟩ := Option.bind_eq_some_iff.1 h
    cases phase <;> simp only [rename, reduceCtorEq] at h
    split_ifs at h with hrenamed <;> cases h
    · cases hrenamed
      exact .renamed generator _ hprocess
    · exact .failed _ generator _ _ _ hprocess
  | finish =>
    obtain ⟨⟨generator, phase⟩, hprocess, h⟩ := Option.bind_eq_some_iff.1 h
    cases phase <;> cases h
    exact .finish generator _ _ hprocess

/-- The last mark that was renamed into place. -/
def lastMark (s : System) : ℕ := s.renamed.getLast?.getD 0

/-- Every nonce returned so far had its mark written. -/
def AllWritten (s : System) : Prop := ∀ nonce ∈ s.returned, nonce.written = true

/-- What is known of a call under way. -/
def PhaseInv (s : System) (process : NonceProcess) : Prop :=
  match process.phase with
  | .idle => True
  | .preparing value => value = process.generator.last ∧ s.lastMark < value
  | .writing value => value = process.generator.last ∧ s.lastMark < value
  | .renaming value => value = process.generator.last ∧ s.lastMark < value ∧ s.temporary = some (markText value)
  | .returning value written =>
    written = true → value = s.lastMark ∧ (s.AllWritten → ∀ nonce ∈ s.returned, nonce.value < value)

/-- The file holds the last mark, the process is never behind it, and neither is a nonce
beyond it. -/
structure Inv (bound : ℕ) (s : System) : Prop where
  file : s.stateFile = s.renamed.getLast?.map markText
  mark_lt : s.lastMark < bound
  process : ∀ process, s.process = some process →
    s.lastMark ≤ process.generator.last ∧ process.generator.last < bound ∧ s.PhaseInv process
  returned : s.AllWritten →
    (s.returned.map (·.value)).Pairwise (· < ·) ∧ ∀ nonce ∈ s.returned, nonce.value ≤ s.lastMark

namespace Inv

variable {bound bound' : ℕ}

theorem init : Inv (2 ^ 55) {} := by
  refine ⟨rfl, by decide, fun process h => ?_, fun _ => ⟨List.Pairwise.nil, fun nonce h => ?_⟩⟩
  · cases h
  · cases h

theorem mono (hinv : Inv bound s) (h : bound ≤ bound') : Inv bound' s := by
  refine ⟨hinv.file, hinv.mark_lt.trans_le h, fun process hprocess => ?_, hinv.returned⟩
  obtain ⟨hmark, hlast, hphase⟩ := hinv.process process hprocess
  exact ⟨hmark, hlast.trans_le h, hphase⟩

/-- A process that is given to a system whose files and history stay as they are. -/
theorem withProcess (hinv : Inv bound s) {generator : NonceGenerator} {phase : Phase} {temporary : Option Bytes}
    (hmark : s.lastMark ≤ generator.last) (hlast : generator.last < bound)
    (hphase : PhaseInv { s with process := some ⟨generator, phase⟩, temporary } ⟨generator, phase⟩) :
    Inv bound { s with process := some ⟨generator, phase⟩, temporary } := by
  refine ⟨hinv.file, hinv.mark_lt, fun other hother => ?_, hinv.returned⟩
  cases hother
  exact ⟨hmark, hlast, hphase⟩

theorem restored (hinv : Inv bound s) (hbound : bound ≤ 2 ^ 64) : (restore s.stateFile true).last = s.lastMark := by
  have hmark := hinv.mark_lt
  rw [restore, hinv.file]
  rw [lastMark] at hmark ⊢
  cases hlast : s.renamed.getLast? with
  | none => rfl
  | some mark =>
    rw [hlast, Option.getD_some] at hmark
    rw [Option.map_some, readHighWaterMark_markText (hmark.trans_le hbound)]
    exact Nat.zero_max mark

theorem nextFrom_lt {generator : NonceGenerator} {nowMicros : ℕ} (hlast : generator.last < bound) (hclock : nowMicros ≤ bound)
    (hbound : bound < 2 ^ 64) :
    generator.last < (generator.nextFrom nowMicros).last ∧ (generator.nextFrom nowMicros).last < bound + 1 := by
  have hnext : (generator.nextFrom nowMicros).last = max nowMicros (generator.last + 1) := by
    rw [NonceGenerator.nextFrom, Nat.mod_eq_of_lt (by omega)]
  omega

/-- A mark goes into place. -/
theorem renamed (hinv : Inv bound s) {generator : NonceGenerator} {value : ℕ}
    (hprocess : s.process = some ⟨generator, .renaming value⟩) :
    Inv bound { s with
      process := some ⟨generator, .returning value true⟩, stateFile := s.temporary, temporary := none
      renamed := s.renamed ++ [value] } := by
  obtain ⟨-, hlast, hvalue, hmark, htemporary⟩ := hinv.process _ hprocess
  obtain rfl : value = generator.last := hvalue
  have hnew : (s.renamed ++ [generator.last]).getLast? = some generator.last := List.getLast?_concat
  have hnewMark : ((s.renamed ++ [generator.last]).getLast?).getD 0 = generator.last := by rw [hnew, Option.getD_some]
  refine ⟨?_, hnewMark.trans_lt hlast, fun other hother => ?_, fun hwritten => ?_⟩
  · change s.temporary = _
    rw [htemporary, hnew, Option.map_some]
  · cases hother
    refine ⟨hnewMark.le, hlast, fun _ => ⟨hnewMark.symm, fun hwritten nonce hnonce => ?_⟩⟩
    exact ((hinv.returned hwritten).2 nonce hnonce).trans_lt hmark
  · obtain ⟨hpairwise, hle⟩ := hinv.returned hwritten
    refine ⟨hpairwise, fun nonce hnonce => ((hle nonce hnonce).trans hmark.le).trans hnewMark.ge⟩

/-- A call returns its nonce. -/
theorem finish (hinv : Inv bound s) {generator : NonceGenerator} {value : ℕ} {written : Bool}
    (hprocess : s.process = some ⟨generator, .returning value written⟩) :
    Inv bound { s with process := some ⟨generator, .idle⟩, returned := s.returned ++ [⟨value, written⟩] } := by
  obtain ⟨hmark, hlast, hphase⟩ := hinv.process _ hprocess
  refine ⟨hinv.file, hinv.mark_lt, fun other hother => ?_, fun hwritten => ?_⟩
  · cases hother
    exact ⟨hmark, hlast, trivial⟩
  · have hbefore : s.AllWritten := fun nonce hnonce => hwritten nonce (List.mem_append_left _ hnonce)
    have hnow : written = true := hwritten ⟨value, written⟩ (List.mem_append_right _ List.mem_cons_self)
    obtain ⟨hvalue, hless⟩ := hphase hnow
    obtain ⟨hpairwise, hle⟩ := hinv.returned hbefore
    refine ⟨?_, fun nonce hnonce => ?_⟩
    · rw [List.map_append, List.pairwise_append]
      refine ⟨hpairwise, List.pairwise_singleton _ _, fun first hfirst second hsecond => ?_⟩
      obtain ⟨nonce, hnonce, rfl⟩ := List.mem_map.1 hfirst
      rw [List.map_singleton, List.mem_singleton] at hsecond
      rw [hsecond]
      exact hless hbefore nonce hnonce
    · rcases List.mem_append.1 hnonce with hold | hnew
      · exact hle nonce hold
      · rw [List.mem_singleton.1 hnew]
        exact hvalue.le

/-- Every action keeps the invariant; a call may raise the bound by one. -/
theorem step (hinv : Inv bound s) (hbound : bound < 2 ^ 64) (hreadable : action ≠ .start false)
    (hclock : ∀ nowMicros, action = .call nowMicros → nowMicros ≤ bound ∧ bound + 1 = bound')
    (hgrows : bound ≤ bound') (h : Step s action s') : Inv bound' s' := by
  cases h with
  | call generator nowMicros hprocess =>
    obtain ⟨hnow, rfl⟩ := hclock nowMicros rfl
    obtain ⟨hmark, hlast, -⟩ := hinv.process _ hprocess
    obtain ⟨hless, hnext⟩ := nextFrom_lt hlast hnow hbound
    have hbehind := Nat.lt_of_le_of_lt hmark hless
    exact (hinv.mono (Nat.le_succ bound)).withProcess hbehind.le hnext ⟨rfl, hbehind⟩
  | start readable hnone =>
    obtain rfl : readable = true := by
      cases readable with
      | true => rfl
      | false => exact absurd rfl hreadable
    have hlast := hinv.restored hbound.le
    refine mono ?_ hgrows
    exact hinv.withProcess hlast.ge (hlast.trans_lt hinv.mark_lt) trivial
  | opened generator value directory opened hprocess =>
    obtain ⟨hmark, hlast, hphase⟩ := hinv.process _ hprocess
    refine mono ?_ hgrows
    exact hinv.withProcess hmark hlast hphase
  | write generator value count hprocess =>
    refine mono ⟨hinv.file, hinv.mark_lt, fun other hother => ?_, hinv.returned⟩ hgrows
    obtain rfl := Option.some.inj (hprocess.symm.trans hother)
    exact hinv.process _ hprocess
  | flushed generator value hprocess =>
    obtain ⟨hmark, hlast, hvalue, hless⟩ := hinv.process _ hprocess
    refine mono ?_ hgrows
    exact hinv.withProcess hmark hlast ⟨hvalue, hless, rfl⟩
  | renamed generator value hprocess => exact (hinv.renamed hprocess).mono hgrows
  | failed action generator phase value temporary hprocess =>
    obtain ⟨hmark, hlast, -⟩ := hinv.process _ hprocess
    refine mono ?_ hgrows
    exact hinv.withProcess hmark hlast fun h => absurd h (by decide)
  | finish generator value written hprocess => exact (hinv.finish hprocess).mono hgrows
  | crash =>
    refine ⟨hinv.file, hinv.mark_lt.trans_le hgrows, fun process h => ?_, hinv.returned⟩
    cases h

end Inv

end System

def Action.isCall : Action → Bool
  | .call _ => true
  | _ => false

/-- The runs that are considered: clocks before the year 3100, not more calls than any
program makes, and a state file that can be read when it is there. -/
structure Usual (actions : List Action) : Prop where
  clock : ∀ nowMicros, .call nowMicros ∈ actions → nowMicros < 2 ^ 55
  calls : actions.countP Action.isCall < 2 ^ 60
  readable : .start false ∉ actions

theorem Usual.of_snoc {actions : List Action} {action : Action} (h : Usual (actions ++ [action])) : Usual actions := by
  refine ⟨fun nowMicros hmem => h.clock nowMicros (List.mem_append_left _ hmem), ?_,
    fun hmem => h.readable (List.mem_append_left _ hmem)⟩
  have hcalls := h.calls
  rw [List.countP_append] at hcalls
  omega

/-- The invariant holds in every state a run reaches. -/
theorem run_inv {actions : List Action} {s : System} (husual : Usual actions) (hrun : System.run actions = some s) :
    System.Inv (2 ^ 55 + actions.countP Action.isCall) s := by
  refine Machine.run_invariant (I := fun actions s => Usual actions → System.Inv (2 ^ 55 + actions.countP Action.isCall) s)
    (fun _ => System.Inv.init) (fun actions mid action next _ hinv hstep husual => ?_) hrun husual
  have hcalls := husual.of_snoc.calls
  have hlast : action ∈ actions ++ [action] := List.mem_append_right _ List.mem_cons_self
  refine (hinv husual.of_snoc).step (by omega) (fun heq => husual.readable (heq ▸ hlast)) (fun nowMicros heq => ?_) ?_
    (System.step_inversion hstep)
  · have hnow := husual.clock nowMicros (heq ▸ hlast)
    refine ⟨by omega, ?_⟩
    rw [heq, List.countP_append]
    rfl
  · rw [List.countP_append]
    omega

/-- Over every sequence of calls, restarts and crashes, the nonces returned are strictly
increasing if each had its mark written. The state file is missing or is the text of the
last mark renamed into place, and that mark is what is read from it. -/
theorem nonces_strictly_increase {actions : List Action} {s : System} (husual : Usual actions)
    (hrun : System.run actions = some s) :
    ((∀ nonce ∈ s.returned, nonce.written = true) → (s.returned.map (·.value)).Pairwise (· < ·)) ∧
      s.stateFile = s.renamed.getLast?.map markText ∧
      ∀ mark ∈ s.renamed.getLast?, readHighWaterMark s.stateFile true = .ok mark := by
  have hinv := run_inv husual hrun
  refine ⟨fun hwritten => (hinv.returned hwritten).1, hinv.file, fun mark hmark => ?_⟩
  have hbound := hinv.mark_lt
  have hcalls := husual.calls
  rw [System.lastMark, Option.mem_def.1 hmark, Option.getD_some] at hbound
  rw [hinv.file, Option.mem_def.1 hmark]
  exact readHighWaterMark_markText (by omega)

/-- A call, a call that dies before its rename, and a call of the next process at a clock
that stepped back. -/
def crashingRun : List Action :=
  [.start true, .call 17, .prepare true true, .write 1, .flush true, .rename true, .finish,
    .call 40, .prepare true true, .write 2, .crash,
    .start true, .call 5, .prepare true true, .flush true, .rename true, .finish]

def crashingEnd : System :=
  { stateFile := some (ascii "18\n"), process := some ⟨⟨18⟩, .idle⟩, returned := [⟨17, true⟩, ⟨18, true⟩], renamed := [17, 18] }

theorem nonces_increase_over_crash :
    System.run crashingRun = some crashingEnd ∧ (crashingEnd.returned.map (·.value)).Pairwise (· < ·) ∧
      readHighWaterMark crashingEnd.stateFile true = .ok 18 := by
  have husual : Usual crashingRun := by
    refine ⟨fun nowMicros hmem => ?_, by decide, by decide⟩
    simp only [crashingRun, List.mem_cons, List.not_mem_nil, or_false, reduceCtorEq, false_or, Action.call.injEq] at hmem
    omega
  have hrun : System.run crashingRun = some crashingEnd := by decide
  obtain ⟨hincreasing, -, hread⟩ := nonces_strictly_increase husual hrun
  exact ⟨hrun, hincreasing (by decide), hread 18 rfl⟩

end CryptoTrader.Nonce
