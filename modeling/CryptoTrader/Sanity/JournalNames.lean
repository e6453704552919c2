import Mathlib.Data.List.TakeWhile
import CryptoTrader.Sanity.RecorderFiles

/-! The names of a session's journal files. A name carries the number of its connect, so
no connect of a session overwrites the file of another. -/

namespace CryptoTrader

open Journal CaptureSession

section Names

/-- The number a text of digits stands for. -/
def digitsValue (text : Bytes) : ℕ := Nat.ofDigitChars 10 (text.map fun byte => Char.ofNat byte.toNat) 0

theorem digit_roundTrip {c : Char} (hc : c.isDigit = true) : Char.ofNat (c.toNat.toUInt8).toNat = c := by
  have hle : c.toNat ≤ 57 := by
    simp only [Char.isDigit, Bool.and_eq_true, decide_eq_true_eq] at hc
    exact hc.2
  have hbyte : c.toNat.toUInt8.toNat = c.toNat := by
    rw [Nat.toUInt8, UInt8.toNat_ofNat']
    omega
  rw [hbyte, Char.ofNat_toNat]

theorem digit_ne_dash {c : Char} (hc : c.isDigit = true) : c.toNat.toUInt8 ≠ '-'.toNat.toUInt8 := by
  intro heq
  have hround := digit_roundTrip hc
  rw [heq] at hround
  rw [← hround] at hc
  revert hc
  decide

theorem ordinalText_eq (connectId : ℕ) : ordinalText connectId =
    (List.replicate (6 - (natText connectId).length) '0' ++ Nat.toDigits 10 connectId).map fun c => c.toNat.toUInt8 := by
  rw [List.map_append, List.map_replicate]
  rfl

theorem ordinalText_digits {connectId : ℕ} {c : Char}
    (hc : c ∈ List.replicate (6 - (natText connectId).length) '0' ++ Nat.toDigits 10 connectId) : c.isDigit = true := by
  rcases List.mem_append.1 hc with hc | hc
  · rw [List.eq_of_mem_replicate hc]
    rfl
  · exact Nat.isDigit_of_mem_toDigits (by decide) (by decide) hc

theorem ofDigitChars_zeros (count : ℕ) (digits : List Char) :
    Nat.ofDigitChars 10 (List.replicate count '0' ++ digits) 0 = Nat.ofDigitChars 10 digits 0 := by
  induction count with
  | zero => rfl
  | succ count ih => exact ih

theorem digitsValue_ordinalText (connectId : ℕ) : digitsValue (ordinalText connectId) = connectId := by
  have hround : (ordinalText connectId).map (fun byte => Char.ofNat byte.toNat) =
      List.replicate (6 - (natText connectId).length) '0' ++ Nat.toDigits 10 connectId := by
    rw [ordinalText_eq, List.map_map]
    refine (List.map_congr_left fun c hc => ?_).trans (List.map_id _)
    exact digit_roundTrip (ordinalText_digits hc)
  rw [digitsValue, hround, ofDigitChars_zeros, Nat.ofDigitChars_toDigits (by decide) (by decide)]

/-- What separates the parts of a name. -/
def kDash : UInt8 := '-'.toNat.toUInt8

theorem dash_not_mem_ordinalText (connectId : ℕ) : kDash ∉ ordinalText connectId := by
  rw [ordinalText_eq]
  intro hdash
  obtain ⟨c, hc, heq⟩ := List.mem_map.1 hdash
  exact digit_ne_dash (ordinalText_digits hc) heq

/-- The parts of a name around the dash before its number, and around the one before its
time. -/
theorem journalFileName_eq (J : JournalPlatform) (filePrefix : Bytes) (connectId realtimeNs : ℕ) :
    journalFileName J filePrefix connectId realtimeNs =
      filePrefix ++ kDash :: (ordinalText connectId ++ kDash :: (J.utcText (realtimeNs / 1000000000) ++
        ascii ".journal")) := by
  simp only [journalFileName, List.append_assoc]
  rfl

theorem journalFileName_id {J : JournalPlatform} {filePrefix : Bytes} {id id' ns ns' : ℕ}
    (h : journalFileName J filePrefix id ns = journalFileName J filePrefix id' ns') : id = id' := by
  rw [journalFileName_eq, journalFileName_eq, List.append_cancel_left_eq, List.cons_inj_right] at h
  have hcut : ∀ (n : ℕ) (rest : Bytes), (ordinalText n ++ kDash :: rest).takeWhile (· ≠ kDash) = ordinalText n := by
    intro n rest
    have hall : ∀ byte ∈ ordinalText n, decide (byte ≠ kDash) = true := by
      intro byte hbyte
      exact decide_eq_true fun heq => dash_not_mem_ordinalText n (heq ▸ hbyte)
    rw [List.takeWhile_append_of_pos hall]
    exact List.append_nil _
  have htexts := congrArg (List.takeWhile fun byte => decide (byte ≠ kDash)) h
  rw [hcut, hcut] at htexts
  rw [← digitsValue_ordinalText id, htexts, digitsValue_ordinalText]

theorem journalFileName_absolute (J : JournalPlatform) (filePrefix : Bytes) (connectId realtimeNs : ℕ) :
    isAbsolutePath (journalFileName J filePrefix connectId realtimeNs) = isAbsolutePath filePrefix := by
  rw [journalFileName_eq]
  cases filePrefix with
  | nil => rfl
  | cons byte filePrefix => rfl

/-- In one directory, names that are both absolute or both relative make different paths. -/
theorem joinPath_injective {directory name name' : Bytes} (hroot : isAbsolutePath name = isAbsolutePath name')
    (h : joinPath directory name = joinPath directory name') : name = name' := by
  unfold joinPath at h
  rw [hroot] at h
  split_ifs at h
  · exact h
  · exact List.append_cancel_left h
  · exact List.append_cancel_left h

/-- A path of the session's tells the number of its connect. -/
theorem journalPath_injective {J : JournalPlatform} {config : SessionConfig} {id id' ns ns' : ℕ}
    (h : config.journalPath J id ns = config.journalPath J id' ns') : id = id' := by
  refine journalFileName_id (joinPath_injective ?_ h)
  rw [journalFileName_absolute, journalFileName_absolute]

end Names

def SessionCall.isConnect : SessionCall → Bool
  | .beginConnect _ => true
  | _ => false

namespace Recorder

variable {J : JournalPlatform} {r r' : Recorder} {calls : List SessionCall} {call : SessionCall}

theorem recorderCall_isConnect (config : SessionConfig) (call : SessionCall) :
    (config.recorderCall call).isConnect = call.isConnect := by
  unfold SessionConfig.recorderCall
  cases config.journalMode <;> cases call <;> rfl

/-- Every file has a name of its connect's, and the connects are numbered in order. -/
structure Named (J : JournalPlatform) (calls : List SessionCall) (r : Recorder) : Prop where
  count : r.connectId = calls.countP (·.isConnect)
  path : ∀ file ∈ r.shelf, ∃ ns, file.path = r.config.journalPath J file.header.connectId ns
  bound : ∀ file ∈ r.shelf, file.header.connectId ≤ r.connectId
  ordered : (r.shelf.map (·.header.connectId)).Pairwise (· < ·)

/-- While there are ids left, the next connect has the next one. -/
theorem Named.next_id (h : r.Named J calls) {connect : ConnectCall}
    (hids : (calls ++ [SessionCall.beginConnect connect]).countP (·.isConnect) < kIdModulus) :
    r.numbered.connectId = r.connectId + 1 := by
  rw [List.countP_append, ← h.count] at hids
  exact Nat.mod_eq_of_lt hids

theorem Named.count_after (h : r.Named J calls) (hdoes : Does J r call r')
    (hids : (calls ++ [call]).countP (·.isConnect) < kIdModulus) :
    r'.connectId = (calls ++ [call]).countP (·.isConnect) := by
  cases hdoes with
  | failed connect error hcause =>
    rw [List.countP_append, ← h.count]
    exact h.next_id hids
  | connected connect hcause =>
    rw [List.countP_append, ← h.count]
    exact h.next_id hids
  | _ =>
    rw [List.countP_append, ← h.count]
    rfl

/-- Only a connect that gets a file adds one, and its id is above those of all others. -/
theorem Named.ordered_after (h : r.Named J calls) (hdoes : Does J r call r')
    (hids : (calls ++ [call]).countP (·.isConnect) < kIdModulus) :
    (r'.shelf.map (·.header.connectId)).Pairwise (· < ·) := by
  cases hdoes with
  | notOpen call hcurrent => exact h.ordered
  | refused call file hcurrent hrefused => exact h.ordered
  | closed flushed =>
    change (r.endConnect.shelf.map _).Pairwise _
    rw [endConnect_shelf]
    exact h.ordered
  | failed call error hcause =>
    change (r.endConnect.shelf.map _).Pairwise _
    rw [endConnect_shelf]
    exact h.ordered
  | taken call file hcurrent herror hroom =>
    have hordered := h.ordered
    rw [shelf_current hcurrent, List.map_append] at hordered
    rw [shelf_current rfl, List.map_append]
    exact hordered
  | connected call hcause =>
    rw [shelf_current rfl, List.map_append, List.pairwise_append]
    refine ⟨h.ordered, List.pairwise_singleton _ _, fun id hid last hlast => ?_⟩
    obtain ⟨file, hfile, rfl⟩ := List.mem_map.1 hid
    rw [List.map_singleton, List.mem_singleton] at hlast
    have hlt : r.connectId < r.numbered.connectId := by
      rw [h.next_id hids]
      exact Nat.lt_succ_self _
    rw [hlast]
    exact Nat.lt_of_le_of_lt (h.bound file hfile) hlt

theorem Named.after_call (h : r.Named J calls) (hdoes : Does J r call r')
    (hids : (calls ++ [call]).countP (·.isConnect) < kIdModulus) : r'.Named J (calls ++ [call]) := by
  have hcount := h.count_after hdoes hids
  have hgrows : r.connectId ≤ r'.connectId := by
    rw [hcount, List.countP_append, ← h.count]
    exact Nat.le_add_right _ _
  refine ⟨hcount, fun file hfile => ?_, fun file hfile => ?_, h.ordered_after hdoes hids⟩
  · rw [hdoes.config]
    rcases shelf_cases hdoes hfile with hold | ⟨wire, old, -, hcurrent, -, rfl⟩ | ⟨connect, -, -, rfl⟩
    · exact h.path file hold
    · exact h.path old (current_mem_shelf hcurrent)
    · exact ⟨_, rfl⟩
  · rcases shelf_cases hdoes hfile with hold | ⟨wire, old, -, hcurrent, -, rfl⟩ | ⟨connect, rfl, hcause, rfl⟩
    · exact (h.bound file hold).trans hgrows
    · exact (h.bound old (current_mem_shelf hcurrent)).trans hgrows
    · cases hdoes with
      | failed call error hfailed => exact Nat.le_refl _
      | connected call hcause => exact Nat.le_refl _

theorem run_named (config : SessionConfig) (calls : List SessionCall)
    (hids : calls.countP (·.isConnect) < kIdModulus) : ((Recorder.start config).run J calls).Named J calls := by
  revert hids
  refine calls_induction (I := fun calls r => calls.countP (·.isConnect) < kIdModulus → r.Named J calls) ?_ ?_ calls
  · intro _
    exact ⟨rfl, by rintro file ⟨⟩, by rintro file ⟨⟩, List.Pairwise.nil⟩
  · intro calls r call r' _ h hdoes hids
    have hbefore : calls.countP (·.isConnect) < kIdModulus := by
      rw [List.countP_append] at hids
      omega
    exact (h hbefore).after_call hdoes hids

/-- No two files of a recorder have the same path. -/
theorem Named.paths_nodup (h : r.Named J calls) : (r.shelf.map (·.path)).Nodup := by
  have hordered := List.pairwise_map.1 h.ordered
  refine List.pairwise_map.2 (hordered.imp_of_mem fun {file other} hfile hother hlt heq => ?_)
  obtain ⟨ns, hpath⟩ := h.path file hfile
  obtain ⟨ns', hpath'⟩ := h.path other hother
  rw [hpath, hpath'] at heq
  exact Nat.ne_of_lt hlt (journalPath_injective heq)

end Recorder

end CryptoTrader
