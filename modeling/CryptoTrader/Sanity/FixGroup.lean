import CryptoTrader.Spec.FixMessage
import Mathlib.Data.List.TakeWhile
import Mathlib.Tactic.Common

/-! What `ReadGroup` makes of a body. A group is a run of entries, each opened by the
delimiter, right after the field that counts them; the reader returns those entries, up to
the declared count. -/

namespace CryptoTrader.Fix

variable {members : List ℕ} {delimiter : ℕ}

/-- A repetition: the delimiter, then other members. -/
def IsEntry (members : List ℕ) (delimiter : ℕ) (entry : GroupEntry) : Prop :=
  ∃ first rest, entry.fields = first :: rest ∧ first.tag = delimiter ∧
    ∀ one ∈ rest, one.tag ∈ members ∧ one.tag ≠ delimiter

/-- A group ends before these fields: at its end, at a tag that is no member, or at another
repetition if it is full. -/
def StopsAt (members : List ℕ) (delimiter : ℕ) (full : Prop) (rest : List FieldView) : Prop :=
  ∀ one ∈ rest.head?, one.tag ∈ members → one.tag = delimiter ∧ full

/-- The fields of the entries, in wire order. -/
def entryFields (entries : List GroupEntry) : List FieldView := entries.flatMap (·.fields)

/-- Where the entries start. -/
def startsOf : ℕ → List GroupEntry → List ℕ
  | _, [] => []
  | offset, entry :: entries => offset :: startsOf (offset + entry.fields.length) entries

section Starts

variable {declared : ℕ}

/-- Members other than the delimiter belong to the open entry. -/
theorem entryStarts_members {tail : List FieldView} (htail : ∀ one ∈ tail, one.tag ∈ members ∧ one.tag ≠ delimiter)
    (offset : ℕ) (starts : List ℕ) (rest : List FieldView) :
    entryStarts members delimiter declared offset starts (tail ++ rest) =
      entryStarts members delimiter declared (offset + tail.length) starts rest := by
  induction tail generalizing offset with
  | nil => rfl
  | cons one tail ih =>
    obtain ⟨hmember, hother⟩ := htail one List.mem_cons_self
    rw [List.cons_append, entryStarts, if_neg (not_not.2 hmember), if_neg hother,
      ih (fun later h => htail later (List.mem_cons_of_mem _ h)), List.length_cons, Nat.add_assoc, Nat.add_comm 1]

theorem entryStarts_stop {starts : List ℕ} {rest : List FieldView}
    (hstop : StopsAt members delimiter (starts.length = declared) rest) (offset : ℕ) :
    entryStarts members delimiter declared offset starts rest = (starts, offset) := by
  cases rest with
  | nil => rfl
  | cons one rest =>
    rw [entryStarts]
    by_cases hmember : one.tag ∈ members
    · obtain ⟨hdelimiter, hfull⟩ := hstop one rfl hmember
      rw [if_neg (not_not.2 hmember), if_pos hdelimiter, if_pos hfull]
    · rw [if_pos hmember]

/-- The loop over a run of entries finds where each starts, and stops where they end. -/
theorem entryStarts_entries (hdelimiter : delimiter ∈ members) {entries : List GroupEntry}
    (hentries : ∀ entry ∈ entries, IsEntry members delimiter entry) (starts : List ℕ)
    (hle : starts.length + entries.length ≤ declared) {rest : List FieldView}
    (hstop : StopsAt members delimiter (starts.length + entries.length = declared) rest) (offset : ℕ) :
    entryStarts members delimiter declared offset starts (entryFields entries ++ rest) =
      (starts ++ startsOf offset entries, offset + (entryFields entries).length) := by
  induction entries generalizing starts offset with
  | nil =>
    rw [startsOf, List.append_nil]
    exact entryStarts_stop hstop offset
  | cons entry entries ih =>
    obtain ⟨first, tail, hfields, hfirst, htail⟩ := hentries entry List.mem_cons_self
    rw [List.length_cons] at hle hstop
    have hlength : (starts ++ [offset]).length + entries.length = starts.length + (entries.length + 1) := by
      rw [List.length_append, List.length_singleton]
      omega
    have hrest := ih (fun later h => hentries later (List.mem_cons_of_mem _ h)) (starts ++ [offset])
      (hlength.trans_le hle) (by rwa [hlength]) (offset + entry.fields.length)
    have hflat : entryFields (entry :: entries) ++ rest = first :: (tail ++ (entryFields entries ++ rest)) := by
      rw [entryFields, List.flatMap_cons, hfields, List.append_assoc]
      rfl
    have hsize : (entryFields (entry :: entries)).length = entry.fields.length + (entryFields entries).length := by
      rw [entryFields, List.flatMap_cons, List.length_append]
      rfl
    rw [hflat, entryStarts, if_neg (by rw [hfirst]; exact not_not.2 hdelimiter), if_pos hfirst,
      if_neg (by omega), entryStarts_members htail]
    have hnext : offset + entry.fields.length = offset + 1 + tail.length := by
      rw [hfields, List.length_cons]
      omega
    rw [startsOf, hsize, ← Nat.add_assoc, ← hnext, hrest, ← List.append_cons]

end Starts

/-- The spans between the starts are the entries. -/
theorem entrySpans_entries {fields : List FieldView} {entries : List GroupEntry} {rest : List FieldView} {offset : ℕ}
    (hfields : fields.drop offset = entryFields entries ++ rest) :
    entrySpans fields (startsOf offset entries) (offset + (entryFields entries).length) = entries := by
  induction entries generalizing offset with
  | nil => rfl
  | cons entry entries ih =>
    have hflat : entryFields (entry :: entries) = entry.fields ++ entryFields entries := List.flatMap_cons
    rw [hflat, List.append_assoc] at hfields
    have hnext : fields.drop (offset + entry.fields.length) = entryFields entries ++ rest := by
      rw [← List.drop_drop, hfields, List.drop_left]
    have hhere : (⟨(fields.drop offset).take (offset + entry.fields.length - offset)⟩ : GroupEntry) = entry := by
      rw [hfields, Nat.add_sub_cancel_left, List.take_left]
    have htail := ih hnext
    rw [hflat, List.length_append, ← Nat.add_assoc]
    cases entries with
    | nil =>
      rw [entryFields, List.flatMap_nil, List.length_nil, Nat.add_zero]
      exact congrArg (· :: []) hhere
    | cons second entries => exact congrArg₂ List.cons hhere htail

/-- Any body splits into a run of entries and a rest where the run stops. -/
theorem exists_entries (n : ℕ) {fields : List FieldView}
    (hfields : ∀ one ∈ fields.head?, one.tag ∈ members → one.tag = delimiter) :
    ∃ entries rest, fields = entryFields entries ++ rest ∧
      (∀ entry ∈ entries, delimiter ∈ members ∧ IsEntry members delimiter entry) ∧ entries.length ≤ n ∧
      StopsAt members delimiter (entries.length = n) rest := by
  induction n generalizing fields with
  | zero => exact ⟨[], fields, rfl, by simp, Nat.le_refl 0, fun one hone hmember => ⟨hfields one hone hmember, rfl⟩⟩
  | succ n ih =>
    cases fields with
    | nil => exact ⟨[], [], rfl, by simp, Nat.zero_le _, by simp [StopsAt]⟩
    | cons first fields =>
      by_cases hmember : first.tag ∈ members
      · set inside : FieldView → Bool := fun one => one.tag ∈ members ∧ one.tag ≠ delimiter with hinside
        have hhead : ∀ one ∈ (fields.dropWhile inside).head?, one.tag ∈ members → one.tag = delimiter := by
          intro one hone hin
          by_contra hother
          have hnot := List.head?_dropWhile_not inside fields
          rw [Option.mem_def.1 hone] at hnot
          simp [hinside, hin, hother] at hnot
        obtain ⟨entries, rest, hsplit, hentries, hle, hstop⟩ := ih hhead
        refine ⟨⟨first :: fields.takeWhile inside⟩ :: entries, rest, ?_, ?_, Nat.succ_le_succ hle, ?_⟩
        · rw [entryFields, List.flatMap_cons, List.append_assoc]
          change first :: fields = first :: (fields.takeWhile inside ++ (entryFields entries ++ rest))
          rw [← hsplit, List.takeWhile_append_dropWhile]
        · intro entry hentry
          rcases List.mem_cons.1 hentry with rfl | hentry
          · have hfirst := hfields first rfl hmember
            refine ⟨hfirst ▸ hmember, first, _, rfl, hfirst, fun one hone => ?_⟩
            simpa [hinside] using List.mem_takeWhile_imp hone
          · exact hentries entry hentry
        · intro one hone hin
          obtain ⟨hdelimiter, hfull⟩ := hstop one hone hin
          exact ⟨hdelimiter, congrArg (· + 1) hfull⟩
      · refine ⟨[], first :: fields, rfl, by simp, Nat.zero_le _, ?_⟩
        rintro one ⟨⟩ hin
        exact absurd hin hmember

/-- A body with a group in it. -/
structure GroupBody (countTag : ℕ) (members : List ℕ) (declared : ℕ) (entries : List GroupEntry)
    (body : List FieldView) : Prop where
  /-- The count, the entries right after it, and the rest. -/
  split : ∃ before count after, body = before ++ count :: (entryFields entries ++ after) ∧
    (∀ one ∈ before, one.tag ≠ countTag) ∧ count.tag = countTag ∧ toInt count.value = some (declared : Int) ∧
    ∃ delimiter, (∀ entry ∈ entries, delimiter ∈ members ∧ IsEntry members delimiter entry) ∧
      StopsAt members delimiter (entries.length = declared) after
  le : entries.length ≤ declared

section Read

variable {countTag declared : ℕ} {entries : List GroupEntry} {message : ParsedMessage}

/-- Where a group is in its body. -/
theorem located {body before rest : List FieldView} {count : FieldView} (hbody : body = before ++ count :: rest)
    (hbefore : ∀ one ∈ before, one.tag ≠ countTag) (hcount : count.tag = countTag) :
    body.findIdx (·.tag = countTag) = before.length ∧ body[before.length]? = some count ∧
      body.drop (before.length + 1) = rest := by
  refine ⟨?_, ?_, ?_⟩
  · rw [hbody, List.findIdx_append, List.findIdx_eq_length.2 fun one hone => by simpa using hbefore one hone,
      if_neg (Nat.lt_irrefl _), List.findIdx_cons]
    simp [hcount]
  · rw [hbody, List.getElem?_append_right (Nat.le_refl _), Nat.sub_self]
    rfl
  · rw [hbody, ← List.drop_drop, List.drop_left]
    rfl

/-- The reader returns the entries of the group that is there. -/
theorem readGroup_of_body (h : GroupBody countTag members declared entries message.bodyFields) :
    readGroup message countTag members = .ok ⟨declared, entries⟩ := by
  obtain ⟨⟨before, count, after, hbody, hbefore, hcount, hdeclared, delimiter, hentries, hstop⟩, hle⟩ := h
  obtain ⟨hat, hget, hdrop⟩ := located hbody hbefore hcount
  have hnext : message.bodyFields[before.length + 1]? = (entryFields entries ++ after).head? := by
    rw [← hdrop, List.head?_drop]
  rw [readGroup]
  simp only [hat, hget]
  rw [show toInt count.value = some (Int.ofNat declared) from hdeclared]
  cases declared with
  | zero =>
    obtain rfl := List.eq_nil_of_length_eq_zero (Nat.le_zero.1 hle)
    rfl
  | succ n =>
    rw [hnext]
    cases entries with
    | nil =>
      cases after with
      | nil => rfl
      | cons first after =>
        have hout : first.tag ∉ members := fun hin => Nat.succ_ne_zero n (hstop first rfl hin).2.symm
        change (if first.tag ∉ members then _ else _) = _
        rw [if_pos hout]
    | cons entry entries =>
      obtain ⟨hmember, first, tail, hfields, hfirst, -⟩ := hentries entry List.mem_cons_self
      have hopen : (entryFields (entry :: entries) ++ after).head? = some first := by
        rw [entryFields, List.flatMap_cons, hfields]
        rfl
      rw [hopen]
      change (if first.tag ∉ members then _ else _) = _
      rw [if_neg (by rw [hfirst]; exact not_not.2 hmember), hfirst, hdrop,
        entryStarts_entries hmember (fun one hone => (hentries one hone).2) [] (by simpa using hle)
          (by simpa using hstop), List.nil_append, entrySpans_entries hdrop]

/-- The first field of a tag, and what is before it. -/
theorem split_of_find? {body : List FieldView} {count : FieldView}
    (h : body.find? (·.tag = countTag) = some count) :
    ∃ before rest, body = before ++ count :: rest ∧ (∀ one ∈ before, one.tag ≠ countTag) ∧ count.tag = countTag := by
  obtain ⟨htag, before, rest, hbody, hbefore⟩ := List.find?_eq_some_iff_append.1 h
  exact ⟨before, rest, hbody, fun one hone => by simpa using hbefore one hone, by simpa using htag⟩

/-- A body that counts some entries has a group. -/
theorem exists_groupBody {body : List FieldView}
    (h : (firstValue body countTag).bind toInt = some (declared : Int)) (members : List ℕ) :
    ∃ entries, GroupBody countTag members declared entries body := by
  obtain ⟨value, hvalue, hdeclared⟩ := Option.bind_eq_some_iff.1 h
  obtain ⟨count, hfind, rfl⟩ := Option.map_eq_some_iff.1 hvalue
  obtain ⟨before, rest, hbody, hbefore, hcount⟩ := split_of_find? hfind
  obtain ⟨entries, after, hsplit, hentries, hle, hstop⟩ := @exists_entries members
    ((rest.head?.map (·.tag)).getD 0) declared rest (fun one hone _ => by rw [Option.mem_def.1 hone]; rfl)
  exact ⟨entries, ⟨before, count, after, by rw [← hsplit, hbody], hbefore, hcount, hdeclared, _, hentries, hstop⟩, hle⟩

/-- Without a count there is no group. -/
theorem readGroup_eq_error
    (h : ∀ n : ℕ, (firstValue message.bodyFields countTag).bind toInt ≠ some (n : Int)) :
    ∃ reason, readGroup message countTag members = .error reason := by
  rw [readGroup]
  cases hfind : message.bodyFields.find? (·.tag = countTag) with
  | none =>
    have hnone : message.bodyFields.findIdx (·.tag = countTag) = message.bodyFields.length :=
      List.findIdx_eq_length.2 fun one hone => by simpa using List.find?_eq_none.1 hfind one hone
    simp only [hnone, List.getElem?_length]
    exact ⟨_, rfl⟩
  | some count =>
    obtain ⟨before, rest, hbody, hbefore, hcount⟩ := split_of_find? hfind
    obtain ⟨hat, hget, -⟩ := located hbody hbefore hcount
    have hfirst : (firstValue message.bodyFields countTag).bind toInt = toInt count.value := by
      rw [firstValue, hfind]
      rfl
    rw [hfirst] at h
    simp only [hat, hget]
    rcases hvalue : toInt count.value with _ | number | negative
    · exact ⟨_, rfl⟩
    · exact absurd hvalue (h number)
    · exact ⟨_, rfl⟩

/-- And only such: what the reader returns is in the body. -/
theorem body_of_readGroup {group : RepeatingGroup} (h : readGroup message countTag members = .ok group) :
    GroupBody countTag members group.declaredCount group.entries message.bodyFields := by
  by_cases hcount : ∃ n : ℕ, (firstValue message.bodyFields countTag).bind toInt = some (n : Int)
  · obtain ⟨n, hn⟩ := hcount
    obtain ⟨entries, hbody⟩ := exists_groupBody hn members
    rw [readGroup_of_body hbody, Except.ok.injEq] at h
    subst h
    exact hbody
  · have herror : ∃ reason, readGroup message countTag members = .error reason :=
      readGroup_eq_error fun n hn => hcount ⟨n, hn⟩
    obtain ⟨reason, herror⟩ := herror
    rw [herror] at h
    cases h

/-- The count is the first of its tag. -/
theorem GroupBody.firstValue_eq {body : List FieldView} (h : GroupBody countTag members declared entries body) :
    (firstValue body countTag).bind toInt = some (declared : Int) := by
  obtain ⟨before, count, after, rfl, hbefore, hcount, hdeclared, -⟩ := h.split
  have hnone : before.find? (·.tag = countTag) = none := by simpa using hbefore
  rw [firstValue, List.find?_append, hnone, Option.none_or, List.find?_cons_of_pos (by simpa using hcount)]
  exact hdeclared

end Read

theorem firstValue_eq_none_iff {fields : List FieldView} {tag : ℕ} :
    firstValue fields tag = none ↔ fields.countP (·.tag = tag) = 0 := by
  rw [firstValue, Option.map_eq_none_iff, List.find?_eq_none, List.countP_eq_zero]

end CryptoTrader.Fix
