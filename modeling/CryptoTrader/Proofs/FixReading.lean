import CryptoTrader.Proofs.FixGrammar
import CryptoTrader.Sanity.FixGroup

/-! What a parsed message answers. A group is the run of member fields behind its count,
cut at each field with the tag that opens the run; the message type is the value the scan
saw last, which is the header's as long as no later MsgType differs from it. -/

namespace CryptoTrader.Fix

/-- The members right behind the first field that counts them. -/
def memberRun (fields : List FieldView) (countTag : ℕ) (members : List ℕ) : List FieldView :=
  (fields.drop (fields.findIdx (·.tag = countTag) + 1)).takeWhile (·.tag ∈ members)

/-- The tag that opens a run. -/
def runDelimiter (run : List FieldView) : ℕ := (run.head?.map (·.tag)).getD 0

/-- How often a run is opened. -/
def openings (run : List FieldView) : ℕ := run.countP (·.tag = runDelimiter run)

/-- A group of `n` declared entries is `run`, split where its delimiter is. -/
structure GroupSplit (n : ℕ) (run : List FieldView) (group : RepeatingGroup) : Prop where
  declared : group.declaredCount = n
  length : group.entries.length = min n (openings run)
  whole : openings run ≤ n → entryFields group.entries = run
  /-- One field further is the opening after the `n`-th. -/
  cut : n < openings run → ∃ next rest, run = entryFields group.entries ++ next :: rest ∧
    next.tag = runDelimiter run ∧ (entryFields group.entries).countP (·.tag = runDelimiter run) = n
  opened : ∀ entry ∈ group.entries, entry.fields.head?.map (·.tag) = some (runDelimiter run) ∧
    entry.fields.countP (·.tag = runDelimiter run) = 1
  truncated : group.truncated = true ↔ openings run < n
  lookup : ∀ entry ∈ group.entries, ∀ tag, entry.get tag = firstValue entry.fields tag ∧
    entry.getInt tag = (firstValue entry.fields tag).bind toInt

section Entries

variable {members : List ℕ} {delimiter : ℕ}

theorem IsEntry.head {entry : GroupEntry} (h : IsEntry members delimiter entry) :
    entry.fields.head?.map (·.tag) = some delimiter := by
  obtain ⟨first, rest, hfields, hfirst, -⟩ := h
  rw [hfields]
  exact congrArg some hfirst

theorem IsEntry.countP_eq {entry : GroupEntry} (h : IsEntry members delimiter entry) :
    entry.fields.countP (·.tag = delimiter) = 1 := by
  obtain ⟨first, rest, hfields, hfirst, hrest⟩ := h
  have hnone : rest.countP (·.tag = delimiter) = 0 :=
    List.countP_eq_zero.2 fun one hone => by simpa using (hrest one hone).2
  rw [hfields, List.countP_cons_of_pos (by simpa using hfirst), hnone]

theorem IsEntry.tag_mem {entry : GroupEntry} (h : IsEntry members delimiter entry) (hdelimiter : delimiter ∈ members) :
    ∀ one ∈ entry.fields, one.tag ∈ members := by
  obtain ⟨first, rest, hfields, hfirst, hrest⟩ := h
  rw [hfields]
  intro one hone
  rcases List.mem_cons.1 hone with rfl | hone
  · rwa [hfirst]
  · exact (hrest one hone).1

theorem countP_entryFields {entries : List GroupEntry} (h : ∀ entry ∈ entries, IsEntry members delimiter entry) :
    (entryFields entries).countP (·.tag = delimiter) = entries.length := by
  induction entries with
  | nil => rfl
  | cons entry entries ih =>
    rw [entryFields, List.flatMap_cons, List.countP_append, (h entry List.mem_cons_self).countP_eq, List.length_cons,
      Nat.add_comm]
    exact congrArg (· + 1) (ih fun later hlater => h later (List.mem_cons_of_mem _ hlater))

/-- A group that is over ends the run of members, or is full and followed by one more
opening. -/
theorem StopsAt.takeWhile_members {full : Prop} {rest : List FieldView} (h : StopsAt members delimiter full rest) :
    rest.takeWhile (·.tag ∈ members) = [] ∨
      full ∧ ∃ next tail, rest.takeWhile (·.tag ∈ members) = next :: tail ∧ next.tag = delimiter := by
  cases rest with
  | nil => exact .inl rfl
  | cons next rest =>
    by_cases hmember : next.tag ∈ members
    · obtain ⟨hdelimiter, hfull⟩ := h next rfl hmember
      refine .inr ⟨hfull, next, rest.takeWhile (·.tag ∈ members), ?_, hdelimiter⟩
      rw [List.takeWhile_cons_of_pos (by simpa using hmember)]
    · refine .inl ?_
      rw [List.takeWhile_cons_of_neg (by simpa using hmember)]

end Entries

section Split

variable {countTag declared : ℕ} {members : List ℕ} {entries : List GroupEntry} {fields : List FieldView}

/-- The run behind the count is the entries and the members that no longer fit. -/
theorem GroupBody.memberRun_eq (h : GroupBody countTag members declared entries fields) :
    ∃ delimiter after, (∀ entry ∈ entries, delimiter ∈ members ∧ IsEntry members delimiter entry) ∧
      StopsAt members delimiter (entries.length = declared) after ∧
      memberRun fields countTag members = entryFields entries ++ after.takeWhile (·.tag ∈ members) := by
  obtain ⟨before, count, after, hbody, hbefore, hcount, -, delimiter, hentries, hstop⟩ := h.split
  obtain ⟨hat, -, hdrop⟩ := located hbody hbefore hcount
  refine ⟨delimiter, after, hentries, hstop, ?_⟩
  have hall : ∀ one ∈ entryFields entries, decide (one.tag ∈ members) = true := by
    intro one hone
    obtain ⟨entry, hentry, hone⟩ := List.mem_flatMap.1 hone
    exact decide_eq_true ((hentries entry hentry).2.tag_mem (hentries entry hentry).1 one hone)
  rw [memberRun, hat, hdrop, List.takeWhile_append_of_pos hall]

/-- The group of a body is its run, split. -/
theorem GroupBody.groupSplit (h : GroupBody countTag members declared entries fields) (hdeclared : 0 < declared) :
    GroupSplit declared (memberRun fields countTag members) ⟨declared, entries⟩ := by
  obtain ⟨delimiter, after, hentries, hstop, hrun⟩ := h.memberRun_eq
  have hle := h.le
  rcases entries with _ | ⟨entry, entries⟩
  · -- no entry although some are declared: no member follows the count
    rcases hstop.takeWhile_members with hnil | ⟨hfull, -⟩
    · have hempty : memberRun fields countTag members = [] := hrun.trans hnil
      rw [hempty]
      exact ⟨rfl, (Nat.min_zero _).symm, fun _ => rfl, fun hlt => absurd hlt (Nat.not_lt_zero _), by simp,
        by simp [RepeatingGroup.truncated, openings], by simp⟩
    · exact absurd hfull hdeclared.ne
  · set all := entry :: entries with hall
    set rest := after.takeWhile (·.tag ∈ members) with hrest
    have hentry : ∀ one ∈ all, IsEntry members delimiter one := fun one hone => (hentries one hone).2
    have hdelimiter : runDelimiter (memberRun fields countTag members) = delimiter := by
      obtain ⟨first, tail, hfields, hfirst, -⟩ := hentry entry List.mem_cons_self
      rw [hrun, hall, entryFields, List.flatMap_cons, hfields]
      exact hfirst
    have hcount : openings (memberRun fields countTag members) = all.length + rest.countP (·.tag = delimiter) := by
      rw [openings, hdelimiter, hrun, List.countP_append, countP_entryFields hentry]
    have hopened : ∀ one ∈ all, one.fields.head?.map (·.tag) = some delimiter ∧
        one.fields.countP (·.tag = delimiter) = 1 := fun one hone => ⟨(hentry one hone).head, (hentry one hone).countP_eq⟩
    rcases hstop.takeWhile_members with hnil | ⟨hfull, next, tail, hcons, hnext⟩
    · rw [← hrest] at hnil
      rw [hnil, List.append_nil] at hrun
      rw [hnil, List.countP_nil, Nat.add_zero] at hcount
      refine ⟨rfl, ?_, fun _ => hrun.symm, fun hlt => ?_, hdelimiter.symm ▸ hopened, ?_, fun _ _ _ => ⟨rfl, rfl⟩⟩
      · rw [hcount, Nat.min_eq_right hle]
      · omega
      · rw [RepeatingGroup.truncated, decide_eq_true_eq, hcount]
    · rw [← hrest] at hcons
      rw [hcons] at hrun
      rw [hcons, List.countP_cons_of_pos (by simpa using hnext)] at hcount
      refine ⟨rfl, ?_, fun hfits => ?_, fun _ => ⟨next, tail, hrun, ?_, ?_⟩, hdelimiter.symm ▸ hopened, ?_,
        fun _ _ _ => ⟨rfl, rfl⟩⟩
      · rw [hcount, Nat.min_eq_left (by omega)]
        exact hfull
      · omega
      · rw [hdelimiter, hnext]
      · rw [hdelimiter, countP_entryFields hentry, hfull]
      · rw [RepeatingGroup.truncated, decide_eq_true_eq, hcount]
        change all.length < declared ↔ _
        omega

end Split

/-- `ReadGroup` splits the run behind the count at its delimiter, up to the declared
number; a count of zero is an empty group and any other count an error. -/
theorem readGroup_splits_run (message : ParsedMessage) (countTag : ℕ) (members : List ℕ) :
    (∀ n : ℕ, 0 < n → (firstValue message.bodyFields countTag).bind toInt = some (n : Int) →
      ∃ group, readGroup message countTag members = .ok group ∧
        GroupSplit n (memberRun message.bodyFields countTag members) group) ∧
    ((firstValue message.bodyFields countTag).bind toInt = some 0 →
      readGroup message countTag members = .ok ⟨0, []⟩) ∧
    ((∀ n : ℕ, (firstValue message.bodyFields countTag).bind toInt ≠ some (n : Int)) →
      ∃ reason, readGroup message countTag members = .error reason) := by
  refine ⟨fun n hn hcount => ?_, fun hcount => ?_, readGroup_eq_error⟩
  · obtain ⟨entries, hbody⟩ := exists_groupBody hcount members
    exact ⟨⟨n, entries⟩, readGroup_of_body hbody, hbody.groupSplit hn⟩
  · have hzero : (firstValue message.bodyFields countTag).bind toInt = some ((0 : ℕ) : Int) := hcount
    obtain ⟨entries, hbody⟩ := exists_groupBody hzero members
    obtain rfl := List.eq_nil_of_length_eq_zero (Nat.le_zero.1 hbody.le)
    exact readGroup_of_body hbody

namespace MessageText

variable (message : MessageText)

theorem fields_eq :
    message.fields = message.beginString.view :: message.bodyLength.view ::
      (message.msgType.view :: message.body.map FieldText.view ++ [message.checkSum.view]) := by
  rw [fields, texts, List.map_append]
  rfl

theorem bodyFields_head (msgType : Bytes) :
    (ParsedMessage.mk message.fields msgType).bodyFields.head? = some message.msgType.view := by
  have hlength : message.fields.length = message.body.length + 1 + 3 := by
    rw [fields_eq]
    simp
  change (if message.fields.length ≤ 3 then [] else (message.fields.drop 2).take (message.fields.length - 3)).head? = _
  rw [hlength, if_neg (by omega), Nat.add_sub_cancel, fields_eq]
  rfl

/-- The first MsgType is the header's. -/
theorem get_msgType (msgType : Bytes) :
    (ParsedMessage.mk message.fields msgType).get Tag.kMsgType = some message.msgType.value := by
  have hbegin : message.beginString.view.tag ≠ Tag.kMsgType := by
    rw [message.beginString_view]
    decide
  have hlength : message.bodyLength.view.tag ≠ Tag.kMsgType := by
    change message.bodyLength.tag ≠ Tag.kMsgType
    rw [message.bodyLength_tag]
    decide
  have hheader : message.msgType.view.tag = Tag.kMsgType := message.msgType_tag
  rw [ParsedMessage.get, firstValue, fields_eq, List.find?_cons_of_neg (by simpa using hbegin),
    List.find?_cons_of_neg (by simpa using hlength), List.cons_append, List.find?_cons_of_pos (by simpa using hheader)]
  rfl

/-- The last MsgType is the header's unless another one follows. -/
theorem lastMsgType_eq :
    message.lastMsgType = ((message.body.filter (·.tag = Tag.kMsgType)).getLast?.getD message.msgType).value := by
  rw [lastMsgType, List.filter_cons_of_pos (by simpa using message.msgType_tag), List.getLast?_cons]
  rfl

theorem lastMsgType_eq_header_iff :
    message.lastMsgType = message.msgType.value ↔
      ∀ text ∈ (message.body.filter (·.tag = Tag.kMsgType)).getLast?, text.value = message.msgType.value := by
  rw [lastMsgType_eq]
  cases (message.body.filter (·.tag = Tag.kMsgType)).getLast? with
  | none => simp
  | some text => simp

end MessageText

/-- The type of an accepted message is the one in its header position exactly if the last
MsgType behind the header, where there is one, repeats the header's. -/
theorem msgType_eq_header_iff (raw : Bytes) (hsize : raw.length < 2 ^ 64) (parsed : ParsedMessage)
    (h : parseMessage raw = .ok parsed) :
    (∃ message : MessageText, message.bytes = raw) ∧
    ∀ message : MessageText, message.bytes = raw →
      (parsed.bodyFields.head?.map (·.value) = some parsed.msgType ∧ parsed.get Tag.kMsgType = some parsed.msgType ↔
        ∀ text ∈ (message.body.filter (·.tag = Tag.kMsgType)).getLast?, text.value = message.msgType.value) := by
  refine ⟨?_, fun message hbytes => ?_⟩
  · obtain ⟨message, hbytes, -⟩ := messageText_of_parse h
    exact ⟨message, hbytes⟩
  · subst hbytes
    rw [message.parseMessage_bytes hsize, Except.ok.injEq] at h
    subst h
    rw [message.bodyFields_head, message.get_msgType, ← message.lastMsgType_eq_header_iff]
    change some message.msgType.value = some message.lastMsgType ∧ some message.msgType.value = some message.lastMsgType ↔ _
    rw [and_self, Option.some.injEq, eq_comm]

theorem heartbeat_msgType_eq_header :
    ∃ message : MessageText, message.bytes = heartbeatText ∧
      ∀ text ∈ (message.body.filter (·.tag = Tag.kMsgType)).getLast?, text.value = message.msgType.value := by
  obtain ⟨⟨message, hbytes⟩, hiff⟩ := msgType_eq_header_iff heartbeatText (by decide)
    ⟨[⟨8, ascii "FIX.4.4"⟩, ⟨9, ascii "5"⟩, ⟨35, ascii "0"⟩, ⟨10, ascii "163"⟩], ascii "0"⟩ (by rfl)
  exact ⟨message, hbytes, (hiff message hbytes).1 ⟨rfl, rfl⟩⟩

/-- A Heartbeat with a second MsgType in its body. -/
def twoTypesText : Bytes := ascii "8=FIX.4.4\x019=10\x0135=0\x0135=W\x0110=204\x01"

theorem msgType_of_two_types :
    ¬ ∀ (raw : Bytes) (parsed : ParsedMessage), raw.length < 2 ^ 64 → parseMessage raw = .ok parsed →
      parsed.bodyFields.head?.map (·.value) = some parsed.msgType ∧ parsed.get Tag.kMsgType = some parsed.msgType := by
  intro h
  have htypes := h twoTypesText ⟨[⟨8, ascii "FIX.4.4"⟩, ⟨9, ascii "10"⟩, ⟨35, ascii "0"⟩, ⟨35, ascii "W"⟩,
    ⟨10, ascii "204"⟩], ascii "W"⟩ (by decide) (by rfl)
  exact absurd htypes.1 (by decide)

end CryptoTrader.Fix
