import CryptoTrader.Proofs.SinkBlocks
import CryptoTrader.Sanity.ConfigFile
import CryptoTrader.Sanity.JournalNames
import CryptoTrader.Spec.CaptureProcess

/-! The files of a process. The parts of a file name are found back from its end, so two
names differ when their prefixes, their numbers or their seconds do; and the sessions of a
process never open one path twice, however their threads interleave. -/

namespace CryptoTrader

open CaptureSession

/-- `gmtime_r` and `strftime` print different seconds differently, and no dash. -/
structure JournalPlatform.StampsApart (J : JournalPlatform) : Prop where
  injective : Function.Injective J.utcText
  no_dash : ∀ second, kDash ∉ J.utcText second

section Names

/-- A list is split in one way at the last of its separators. -/
theorem append_cons_inj_of_last {α : Type} {separator : α} {x x' z z' : List α} (hz : separator ∉ z)
    (hz' : separator ∉ z') (h : x ++ separator :: z = x' ++ separator :: z') : x = x' ∧ z = z' := by
  have hempty : ∀ {c y y' : List α}, separator ∉ y → separator :: y = c ++ separator :: y' → c = [] := by
    intro c y y' hy heq
    cases c with
    | nil => rfl
    | cons byte c =>
      refine absurd ?_ hy
      rw [(List.cons.inj heq).2]
      exact List.mem_append_right c List.mem_cons_self
  rcases List.append_eq_append_iff.1 h with ⟨c, rfl, heq⟩ | ⟨c, rfl, heq⟩
  · obtain rfl := hempty hz heq
    exact ⟨(List.append_nil x).symm, (List.cons.inj heq).2⟩
  · obtain rfl := hempty hz' heq
    exact ⟨List.append_nil x', (List.cons.inj heq).2.symm⟩

variable {J : JournalPlatform} (hstamps : J.StampsApart)

include hstamps

/-- The time is what follows the last dash, the number what follows the one before. -/
theorem journalFileName_parts {filePrefix filePrefix' : Bytes} {id id' ns ns' : ℕ}
    (h : journalFileName J filePrefix id ns = journalFileName J filePrefix' id' ns') :
    filePrefix = filePrefix' ∧ id = id' ∧ ns / 1000000000 = ns' / 1000000000 := by
  have hsplit : ∀ (start : Bytes) (number second : ℕ),
      start ++ kDash :: (ordinalText number ++ kDash :: (J.utcText second ++ ascii ".journal")) =
        ((start ++ kDash :: ordinalText number) ++ kDash :: J.utcText second) ++ ascii ".journal" := by
    intro start number second
    simp only [List.append_assoc, List.cons_append]
  rw [journalFileName_eq, journalFileName_eq, hsplit, hsplit, List.append_cancel_right_eq] at h
  obtain ⟨hnumbered, hsecond⟩ := append_cons_inj_of_last (hstamps.no_dash _) (hstamps.no_dash _) h
  obtain ⟨hstart, hnumber⟩ :=
    append_cons_inj_of_last (dash_not_mem_ordinalText id) (dash_not_mem_ordinalText id') hnumbered
  refine ⟨hstart, ?_, hstamps.injective hsecond⟩
  rw [← digitsValue_ordinalText id, hnumber, digitsValue_ordinalText]

/-- Sessions that write into one directory share a path only if they share a prefix. -/
theorem journalPath_namePrefix {config config' : SessionConfig} (hdirectory : config.directory = config'.directory)
    (hroot : isAbsolutePath config.namePrefix = isAbsolutePath config'.namePrefix) {id id' ns ns' : ℕ}
    (h : config.journalPath J id ns = config'.journalPath J id' ns') : config.namePrefix = config'.namePrefix := by
  unfold SessionConfig.journalPath at h
  rw [hdirectory] at h
  have hname := joinPath_injective (by rw [journalFileName_absolute, journalFileName_absolute, hroot]) h
  exact (journalFileName_parts hstamps hname).1

end Names

namespace CaptureSession

variable {J : JournalPlatform} {s s' : CaptureSession} {action : SessionAction}

theorem returns_connected {t : CaptureSession} {result : SessionResult} {path : Bytes}
    (h : .connected path ∈ (t.returns result).results) : .connected path ∈ t.results ∨ result = .connected path := by
  rcases List.mem_append.1 h with h | h
  · exact .inl h
  · exact .inr (List.mem_singleton.1 h).symm

/-- A connect returns the path it opened, or fails. -/
theorem openConnect_connected {q : CaptureSession} {call : ConnectCall} {path : Bytes}
    (h : .connected path ∈ (q.openConnect J call).results) :
    .connected path ∈ q.results ∨ q.connectFailure J call = none ∧ path = q.connectPath J call := by
  have hconnect := openConnect_cases J q call
  generalize q.openConnect J call = t at hconnect h
  cases hconnect with
  | failed error hcause => exact (returns_connected h).imp_right (by simp)
  | markerFailed error hmode hcause herror => exact (returns_connected h).imp_right (by simp)
  | threaded hmode hcause =>
    refine (returns_connected h).imp_right fun hpath => ⟨hcause, ?_⟩
    exact (SessionResult.connected.inj hpath).symm
  | inline hmode hcause herror =>
    refine (returns_connected h).imp_right fun hpath => ⟨hcause, ?_⟩
    exact (SessionResult.connected.inj hpath).symm

/-- A step numbers a connect when it takes it past its `Close`, and else none. -/
theorem Step.connecting_cases (hstep : Step J s action s') :
    (s.connecting action = none ∧ s'.connectId = s.connectId ∧
      ∀ path, .connected path ∈ s'.results → .connected path ∈ s.results) ∨
    ∃ call flushed records, s.connecting action = some call ∧ s' = (s.ended flushed records).openConnect J call := by
  cases hstep with
  | wire call hwaiting =>
    refine .inl ⟨rfl, ?_⟩
    have htakes := s.onWireMessage_cases call
    generalize s.onWireMessage call = t at htakes ⊢
    cases htakes <;> exact ⟨rfl, fun path h => (returns_connected h).resolve_right (by simp)⟩
  | wait call hcall hwaiting hopen =>
    refine .inl ⟨?_, rfl, fun path h => h⟩
    rcases call with connect | wire | flushed
    · simp only [connecting, hopen, Bool.or_true, if_true]
    · rfl
    · rfl
  | close call flushed hcall hwaiting hopen =>
    rcases call with connect | wire | flushed'
    · refine .inr ⟨connect, flushed, 0, ?_, rfl⟩
      simp only [connecting, hwaiting, hopen, Option.isSome_none, Bool.or_self, Bool.false_eq_true, if_false]
    · cases hcall
    · refine .inl ⟨rfl, ?_⟩
      rw [ended_eq]
      exact ⟨rfl, fun path h => (returns_connected h).resolve_right (by simp)⟩
  | resume call records hcall hwaiting hsignal hopen =>
    rcases call with connect | wire | flushed
    · refine .inr ⟨connect, true, records, ?_, rfl⟩
      simp only [connecting, hwaiting, hsignal]
    · cases hcall
    · refine .inl ⟨?_, ?_⟩
      · simp only [connecting, hwaiting]
      · rw [ended_eq]
        exact ⟨rfl, fun path h => (returns_connected h).resolve_right (by simp)⟩
  | journal written journal hjournal => exact .inl ⟨rfl, rfl, fun path h => h⟩

/-- A connect that has a number coming was begun. -/
theorem connecting_room {call : ConnectCall} (h : s.connecting action = some call) :
    1 ≤ pendingBegin s + begins [action] := by
  rcases action with (connect | wire | flushed) | _ | written
  · exact Nat.le_add_left 1 _
  · cases h
  · cases h
  · simp only [connecting] at h
    split at h
    · next hwaiting hsignal =>
      rw [pendingBegin, hwaiting]
      exact Nat.le_add_right 1 _
    · cases h
  · cases h

/-- What a step does to the files of a session that has numbers left: what it opens has
the next number, and only what was opened is returned. -/
structure OpensNext (J : JournalPlatform) (s : CaptureSession) (action : SessionAction) (s' : CaptureSession) : Prop where
  connectId_le : s.connectId ≤ s'.connectId
  opened : ∀ id path, s.opens J action = some (id, path) →
    s.connectId < id ∧ id = s'.connectId ∧ ∃ ns, path = s.config.journalPath J id ns
  returned : ∀ path, .connected path ∈ s'.results →
    .connected path ∈ s.results ∨ ∃ id, s.opens J action = some (id, path)

theorem opens_eq_some {id : ℕ} {path : Bytes} (h : s.opens J action = some (id, path)) :
    ∃ call, s.connecting action = some call ∧ id = (s.connectId + 1) % kIdModulus ∧
      path = s.config.journalPath J id call.nameRealtimeNs := by
  obtain ⟨call, hconnecting, hopens⟩ := Option.bind_eq_some_iff.1 h
  split_ifs at hopens
  cases hopens
  exact ⟨call, hconnecting, rfl, rfl⟩

/-- A connect that got its file opened it. -/
theorem opens_of_connectFailure_none {call : ConnectCall} (hconnecting : s.connecting action = some call)
    (h : s.connectFailure J call = none) :
    s.opens J action = some ((s.connectId + 1) % kIdModulus, s.connectPath J call) := by
  unfold connectFailure SessionConfig.connectFailure at h
  cases herror : s.journal.error with
  | some error =>
    rw [herror] at h
    cases h
  | none =>
    rw [herror] at h
    cases hdirectory : call.directoryError with
    | some error =>
      rw [hdirectory] at h
      cases h
    | none => simp [opens, hconnecting, JournalThread.failed, herror, hdirectory, connectPath]

theorem Step.opensNext (hstep : Step J s action s')
    (hroom : s.connectId + (pendingBegin s + begins [action]) < kIdModulus) : OpensNext J s action s' := by
  rcases hstep.connecting_cases with ⟨hnone, hid, hresults⟩ | ⟨call, flushed, records, hconnecting, rfl⟩
  · refine ⟨Nat.le_of_eq hid.symm, fun id path hopens => ?_, fun path hpath => .inl (hresults path hpath)⟩
    obtain ⟨call, hconnecting, -⟩ := opens_eq_some hopens
    rw [hnone] at hconnecting
    cases hconnecting
  · have hpending := connecting_room hconnecting
    have hlt : s.connectId + 1 < kIdModulus := by omega
    have hnext : ((s.ended flushed records).openConnect J call).connectId = s.connectId + 1 := by
      rw [(openConnect_keeps J _ call).2.1, ended_eq]
      exact Nat.mod_eq_of_lt hlt
    refine ⟨by omega, fun id path hopens => ?_, fun path hpath => ?_⟩
    · obtain ⟨call', hcall', hid, hpath⟩ := opens_eq_some hopens
      rw [Nat.mod_eq_of_lt hlt] at hid
      exact ⟨by omega, by omega, _, hpath⟩
    · rcases openConnect_connected hpath with hold | ⟨hcause, rfl⟩
      · rw [ended_eq] at hold
        exact .inl hold
      · rw [ended_eq] at hcause
        rw [ended_eq]
        exact .inr ⟨_, opens_of_connectFailure_none hconnecting hcause⟩

theorem run_config {config : SessionConfig} {actions : List SessionAction}
    (hrun : (CaptureSession.start config).run J actions = some s) : s.config = config :=
  run_induction (I := fun _ s => s.config = config) rfl
    (fun _ _ _ _ _ _ hconfig hstep => hstep.config.trans hconfig) hrun

end CaptureSession

namespace CaptureProcess

variable {J : JournalPlatform} {configs : List SessionConfig} {p p' : CaptureProcess}
  {actions : List (ℕ × SessionAction)} {action : ℕ × SessionAction}

/-- What a process can do: one of its sessions takes a step. -/
theorem step_inversion (h : p.step J action = some p') :
    ∃ s s', p.sessions[action.1]? = some s ∧ s.step J action.2 = some s' ∧
      p' = { sessions := p.sessions.set action.1 s'
             opened := p.opened ++ ((s.opens J action.2).map (Opening.of action.1)).toList } := by
  obtain ⟨sessions, hsessions, rfl⟩ := Option.map_eq_some_iff.1 h
  obtain ⟨s, s', hs, hstep, rfl⟩ := Machine.stepAt_eq_some.1 hsessions
  refine ⟨s, s', hs, hstep, ?_⟩
  rw [opening, hs, Option.bind_some]

/-- Each session has gone through a run of its own. -/
theorem session_run (hrun : (start configs).run J actions = some p) {i : ℕ} {s : CaptureSession}
    (hs : p.sessions[i]? = some s) :
    ∃ config, configs[i]? = some config ∧
      (CaptureSession.start config).run J (Machine.actionsAt i actions) = some s := by
  have hsessions : Machine.run (Machine.stepAt (CaptureSession.step J)) (start configs).sessions actions =
      some p.sessions := by
    refine Machine.run_invariant (I := fun actions p =>
      Machine.run (Machine.stepAt (CaptureSession.step J)) (start configs).sessions actions = some p.sessions) rfl
      (fun actions mid action next _ hmid hnext => ?_) hrun
    obtain ⟨sessions, hstep, rfl⟩ := Option.map_eq_some_iff.1 hnext
    exact (Machine.run_snoc_eq_some _).2 ⟨mid.sessions, hmid, hstep⟩
  rw [Machine.run_stepAt _ hsessions i, start, List.getElem?_map] at hs
  obtain ⟨first, hfirst, hown⟩ := Option.bind_eq_some_iff.1 hs
  obtain ⟨config, hconfig, rfl⟩ := Option.map_eq_some_iff.1 hfirst
  exact ⟨config, hconfig, hown⟩

/-- No session begins as many connects as there are ids. -/
def IdsLeft (actions : List (ℕ × SessionAction)) : Prop := ∀ i, begins (Machine.actionsAt i actions) < kIdModulus

theorem begins_actionsAt_snoc (actions : List (ℕ × SessionAction)) (action : ℕ × SessionAction) :
    begins (Machine.actionsAt action.1 (actions ++ [action])) =
      begins (Machine.actionsAt action.1 actions) + begins [action.2] := by
  rw [Machine.actionsAt_append, Machine.actionsAt_self, begins_snoc]

theorem IdsLeft.before (h : IdsLeft (actions ++ [action])) : IdsLeft actions := by
  intro i
  have hi := h i
  by_cases hself : action.1 = i
  · subst hself
    rw [begins_actionsAt_snoc] at hi
    omega
  · rw [Machine.actionsAt_append, Machine.actionsAt_other hself, List.append_nil] at hi
    exact hi

/-- The files that were opened: each has a path of its session's, each session numbers its
own upwards, and every path that a connect returned is among them. -/
structure Files (J : JournalPlatform) (configs : List SessionConfig) (p : CaptureProcess) : Prop where
  path : ∀ o ∈ p.opened, ∃ config ns, configs[o.session]? = some config ∧
    o.path = config.journalPath J o.connectId ns
  bound : ∀ o ∈ p.opened, ∀ s, p.sessions[o.session]? = some s → o.connectId ≤ s.connectId
  ordered : p.opened.Pairwise fun o o' => o.session = o'.session → o.connectId < o'.connectId
  returned : ∀ i s path, p.sessions[i]? = some s → .connected path ∈ s.results →
    ∃ o ∈ p.opened, o.session = i ∧ o.path = path

theorem Files.start (configs : List SessionConfig) : (CaptureProcess.start configs).Files J configs := by
  refine ⟨by rintro o ⟨⟩, by rintro o ⟨⟩, List.Pairwise.nil, fun i s path hs hpath => ?_⟩
  rw [CaptureProcess.start, List.getElem?_map] at hs
  obtain ⟨config, -, rfl⟩ := Option.map_eq_some_iff.1 hs
  cases hpath

theorem mem_opened_after {s : CaptureSession} {i : ℕ} {act : SessionAction} {o : Opening} :
    o ∈ p.opened ++ ((s.opens J act).map (Opening.of i)).toList ↔
      o ∈ p.opened ∨ o.session = i ∧ s.opens J act = some (o.connectId, o.path) := by
  rw [List.mem_append, Option.mem_toList, Option.map_eq_some_iff]
  refine or_congr Iff.rfl ⟨?_, ?_⟩
  · rintro ⟨file, hopens, rfl⟩
    exact ⟨rfl, hopens⟩
  · rintro ⟨rfl, hopens⟩
    exact ⟨(o.connectId, o.path), hopens, rfl⟩

/-- A step of one session opens nothing, or a file with a number above its others. -/
theorem Files.step (h : p.Files J configs) {s s' : CaptureSession} {i : ℕ} {act : SessionAction}
    (hs : p.sessions[i]? = some s) (hconfig : configs[i]? = some s.config) (hnext : OpensNext J s act s') :
    CaptureProcess.Files J configs
      { sessions := p.sessions.set i s'
        opened := p.opened ++ ((s.opens J act).map (Opening.of i)).toList } := by
  refine ⟨fun o ho => ?_, fun o ho t ht => ?_, ?_, fun j t path ht hpath => ?_⟩
  · rcases mem_opened_after.1 ho with ho | ⟨rfl, hopens⟩
    · exact h.path o ho
    · obtain ⟨-, -, ns, hpath⟩ := hnext.opened _ _ hopens
      exact ⟨s.config, ns, hconfig, hpath⟩
  · rcases Machine.getElem?_set_cases ht with ⟨hi, rfl⟩ | ⟨hother, ht⟩
    · rcases mem_opened_after.1 ho with ho | ⟨-, hopens⟩
      · exact (h.bound o ho s (hi ▸ hs)).trans hnext.connectId_le
      · exact Nat.le_of_eq (hnext.opened _ _ hopens).2.1
    · rcases mem_opened_after.1 ho with ho | ⟨hsame, -⟩
      · exact h.bound o ho t ht
      · exact absurd hsame.symm hother
  · refine List.pairwise_append.2 ⟨h.ordered, ?_, fun o ho o' ho' hsame => ?_⟩
    · cases s.opens J act with
      | none => exact List.Pairwise.nil
      | some file => exact List.pairwise_singleton _ _
    · obtain ⟨file, hopens, rfl⟩ := Option.map_eq_some_iff.1 (Option.mem_toList.1 ho')
      have hold : o.connectId ≤ s.connectId := h.bound o ho s (hsame ▸ hs)
      exact Nat.lt_of_le_of_lt hold (hnext.opened _ _ hopens).1
  · have hreturned : (∃ o ∈ p.opened, o.session = j ∧ o.path = path) ∨
        i = j ∧ ∃ id, s.opens J act = some (id, path) := by
      rcases Machine.getElem?_set_cases ht with ⟨rfl, rfl⟩ | ⟨hother, ht⟩
      · exact (hnext.returned path hpath).imp (h.returned i s path hs) fun hopens => ⟨rfl, hopens⟩
      · exact .inl (h.returned j t path ht hpath)
    rcases hreturned with ⟨o, ho, hbefore⟩ | ⟨rfl, id, hopens⟩
    · exact ⟨o, mem_opened_after.2 (.inl ho), hbefore⟩
    · exact ⟨⟨i, id, path⟩, mem_opened_after.2 (.inr ⟨rfl, hopens⟩), rfl, rfl⟩

theorem run_files (hrun : (CaptureProcess.start configs).run J actions = some p) (hids : IdsLeft actions) :
    p.Files J configs := by
  revert hids
  refine Machine.run_invariant (I := fun actions p => IdsLeft actions → p.Files J configs)
    (fun _ => Files.start configs) (fun actions mid action next hmid h hnext hids => ?_) hrun
  obtain ⟨s, s', hs, hstep, rfl⟩ := step_inversion hnext
  obtain ⟨config, hconfig, hown⟩ := session_run hmid hs
  have hroom : s.connectId + (pendingBegin s + begins [action.2]) < kIdModulus := by
    have hbegun := connectId_le_begins hown
    have hall := hids action.1
    rw [begins_actionsAt_snoc] at hall
    omega
  rw [← run_config hown] at hconfig
  exact (h hids.before).step hs hconfig ((CaptureSession.step_inversion (run_mode hown) hstep).opensNext hroom)

theorem IdsLeft.of_length (h : actions.length < kIdModulus) : IdsLeft actions := by
  intro i
  have hcalls : begins (Machine.actionsAt i actions) ≤ (Machine.actionsAt i actions).length :=
    List.countP_le_length.trans (List.length_filterMap_le _ _)
  have hown : (Machine.actionsAt i actions).length ≤ actions.length := by
    rw [Machine.actionsAt, List.length_map]
    exact List.length_filter_le _ _
  omega

end CaptureProcess

/-- Two sessions that write into one directory, under different prefixes. Either prefix may
be absolute if both are: an absolute name leaves the directory. -/
structure SessionConfig.Apart (config config' : SessionConfig) : Prop where
  directory : config.directory = config'.directory
  root : isAbsolutePath config.namePrefix = isAbsolutePath config'.namePrefix
  namePrefix : config.namePrefix ≠ config'.namePrefix

/-- The session of one opening is that of another, or apart from it. -/
def Opening.Apart (configs : List SessionConfig) (o o' : Opening) : Prop :=
  o.session = o'.session ∨
    ∃ config config', configs[o.session]? = some config ∧ configs[o'.session]? = some config' ∧ config.Apart config'

theorem CaptureProcess.Files.paths_apart {J : JournalPlatform} (hstamps : J.StampsApart) {configs : List SessionConfig}
    {p : CaptureProcess} (h : p.Files J configs) :
    p.opened.Pairwise fun o o' => o.Apart configs o' → o.path ≠ o'.path := by
  refine h.ordered.imp_of_mem fun {o o'} ho ho' hordered hapart heq => ?_
  obtain ⟨config, ns, hconfig, hpath⟩ := h.path o ho
  obtain ⟨config', ns', hconfig', hpath'⟩ := h.path o' ho'
  rw [hpath, hpath'] at heq
  rcases hapart with hsame | ⟨_, _, hleft, hright, hdirectory, hroot, hprefixes⟩
  · rw [hsame, hconfig'] at hconfig
    cases hconfig
    exact Nat.ne_of_lt (hordered hsame) (journalPath_injective heq)
  · rw [hconfig] at hleft
    rw [hconfig'] at hright
    cases hleft
    cases hright
    exact hprefixes (journalPath_namePrefix hstamps hdirectory hroot heq)

namespace Config

theorem isValidId_relative {id : Bytes} (h : isValidId id = true) : id ≠ [] ∧ isAbsolutePath id = false := by
  unfold isValidId at h
  split_ifs at h with hbounds
  refine ⟨fun hempty => hbounds (.inl hempty), ?_⟩
  cases id with
  | nil => rfl
  | cons first id =>
    have hfirst : isLowerAlnum first = true := (Bool.and_eq_true_iff.1 h).1
    refine Bool.eq_false_of_not_eq_true fun habsolute => ?_
    have hslash : first = kSlash := Option.some.inj (beq_iff_eq.1 habsolute)
    rw [hslash] at hfirst
    revert hfirst
    decide

/-- The sessions of one configuration are apart when their connections have two ids. -/
theorem session_apart {config : FeedHandlerConfig} {entry entry' : ConnectionEntry} (hentry : entry.WellFormed)
    (hentry' : entry'.WellFormed) (hids : entry.id ≠ entry'.id) :
    (config.session entry).Apart (config.session entry') := by
  obtain ⟨hne, hrelative⟩ := isValidId_relative hentry.id
  obtain ⟨hne', hrelative'⟩ := isValidId_relative hentry'.id
  have hname : (config.session entry).namePrefix = entry.id := if_neg hne
  have hname' : (config.session entry').namePrefix = entry'.id := if_neg hne'
  refine ⟨rfl, ?_, ?_⟩
  · rw [hname, hname', hrelative, hrelative']
  · rw [hname, hname']
    exact hids

/-- Any two openings in a process that was configured are apart. -/
theorem openings_apart {root : RootTable} {config : FeedHandlerConfig} (hconfig : parseConfig root = .ok config)
    {commandLine : CommandLine} {selected : List ConnectionEntry}
    (hselected : selectConnections config commandLine = .ok selected) {o o' : Opening}
    (ho : o.session < selected.length) (ho' : o'.session < selected.length) :
    o.Apart (selected.map config.session) o' := by
  obtain ⟨hformed, hnodup⟩ := parseConfig_accepted hconfig
  have hsublist := selectConnections_sublist hselected
  have hids : (selected.map (·.id)).Nodup := (hsublist.map _).nodup hnodup
  by_cases hsame : o.session = o'.session
  · exact .inl hsame
  · refine .inr ⟨config.session selected[o.session], config.session selected[o'.session], ?_, ?_, session_apart ?_ ?_ ?_⟩
    · rw [List.getElem?_map, List.getElem?_eq_getElem ho, Option.map_some]
    · rw [List.getElem?_map, List.getElem?_eq_getElem ho', Option.map_some]
    · exact hformed _ (hsublist.subset (List.getElem_mem ho))
    · exact hformed _ (hsublist.subset (List.getElem_mem ho'))
    · intro heq
      have hlt : o.session < (selected.map (·.id)).length := by rw [List.length_map]; exact ho
      have hlt' : o'.session < (selected.map (·.id)).length := by rw [List.length_map]; exact ho'
      have hget : (selected.map (·.id))[o.session] = (selected.map (·.id))[o'.session] := by
        rw [List.getElem_map, List.getElem_map]
        exact heq
      exact hsame (hids.getElem_inj_iff.1 hget)

end Config

/-- A session of the process opened each file. -/
theorem CaptureProcess.Files.session_lt {J : JournalPlatform} {configs : List SessionConfig} {p : CaptureProcess}
    (h : p.Files J configs) {o : Opening} (ho : o ∈ p.opened) : o.session < configs.length := by
  obtain ⟨config, ns, hconfig, -⟩ := h.path o ho
  exact (List.getElem?_eq_some_iff.1 hconfig).1

section TwoSessions

/-- A platform that prints a second as a number of six digits or more. -/
def countedJournal : JournalPlatform := ⟨fun _ _ => 0#32, ordinalText⟩

theorem countedJournal_stampsApart : countedJournal.StampsApart := by
  refine ⟨fun second second' h => ?_, dash_not_mem_ordinalText⟩
  rw [← digitsValue_ordinalText second, ← digitsValue_ordinalText second']
  exact congrArg digitsValue h

def btcTable (id : Bytes) : Config.EntryTable :=
  [(ascii "id", .string id), (ascii "exchange", .string (ascii "kraken")), (ascii "env", .string (ascii "prod")),
    (ascii "symbols", .array [some (ascii "BTC/USD")]), (ascii "api_key_env", .string (ascii "KEY")),
    (ascii "api_secret_env", .string (ascii "SECRET"))]

/-- The second id is what the first one's names start with. -/
def twoConnections : Config.RootTable :=
  [(ascii "connections", .array [some (btcTable (ascii "btc")), some (btcTable (ascii "btc-000001"))])]

def btcConnection (id : Bytes) : Config.ConnectionEntry :=
  { id, exchange := .kraken, symbols := [ascii "BTC/USD"], feed := ascii "level3",
    endpoint := ascii "wss://ws-l3.kraken.com/v2", apiKeyEnv := ascii "KEY", apiSecretEnv := ascii "SECRET" }

def twoConnectionsConfig : Config.FeedHandlerConfig :=
  { connections := [btcConnection (ascii "btc"), btcConnection (ascii "btc-000001")] }

/-- Both sessions connect, and the first connects again once its thread has closed its file. -/
def twoSessionActions : List (ℕ × SessionAction) :=
  [(0, .call (.beginConnect firstConnect)), (1, .call (.beginConnect firstConnect)), (0, .journal true),
    (0, .call (.beginConnect firstConnect)), (0, .journal true), (0, .resume)]

end TwoSessions

end CryptoTrader
