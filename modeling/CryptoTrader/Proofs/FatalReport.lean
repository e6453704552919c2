import CryptoTrader.Spec.FatalReport

/-! A failed journal is reported once, with the reason it keeps: of all the threads that fail it
one wins the claim, and it alone records, publishes and reports. -/

namespace CryptoTrader

namespace Reporter

/-- The thread has won the claim and has not returned. -/
def reporting : Reporter → Bool
  | .recording _ | .publishing | .entering | .copying | .leaving _ | .calling _ => true
  | _ => false

/-- What the winner has done to the state word by the time it is here. -/
def health : Reporter → JournalHealth
  | .recording _ | .publishing => .claimed
  | _ => .failed

/-- The thread holds a copy of the handler, or a new one, that is not there. -/
def clears : Reporter → Bool
  | .leaving handler | .calling handler | .setting handler => !handler
  | _ => false

end Reporter

/-- The call takes the handler away. -/
def ReportAction.clears {ι : Type} : ReportAction ι → Bool
  | .setFatalHandler _ handler => !handler
  | _ => false

/-- The reasons the journal was failed with, in the order of the calls. -/
def failReasons {ι : Type} (actions : List (ReportAction ι)) : List Bytes :=
  actions.filterMap fun action => match action with
    | .fail _ reason => some reason
    | _ => none

namespace FatalReport

variable {ι : Type} [DecidableEq ι] {s s' : FatalReport ι} {i : ι} {place : Reporter}

/-- How far the report has got. -/
inductive Stage (s : FatalReport ι) : Prop where
  | healthy (hstate : s.state = .healthy) (hnobody : ∀ j, (s.threads j).reporting = false) (hreports : s.reports = [])
  | underWay (winner : ι) (hwinner : (s.threads winner).reporting = true)
      (hothers : ∀ j, j ≠ winner → (s.threads j).reporting = false) (hstate : s.state = (s.threads winner).health)
      (hreports : s.reports = [])
  | done (hstate : s.state = .failed) (hnobody : ∀ j, (s.threads j).reporting = false)
      (hreports : s.reports = [] ∨ s.reports = [s.error])

theorem goto_threads (j : ι) : (s.goto i place).threads j = if j = i then place else s.threads j :=
  Function.update_apply ..

theorem goto_self : (s.goto i place).threads i = place := Function.update_self ..

theorem goto_other {j : ι} (h : j ≠ i) : (s.goto i place).threads j = s.threads j := Function.update_of_ne h ..

/-- A thread that is not the winner moves on to another place of its own. -/
theorem Stage.bystander (h : s.Stage) (hfrom : (s.threads i).reporting = false) (hto : place.reporting = false) :
    (s.goto i place).Stage := by
  have hkeep : ∀ j, ((s.goto i place).threads j).reporting = (s.threads j).reporting := by
    intro j
    rw [goto_threads]
    split_ifs with hji
    · rw [hto, hji, hfrom]
    · rfl
  cases h with
  | healthy hstate hnobody hreports => exact .healthy hstate (fun j => (hkeep j).trans (hnobody j)) hreports
  | underWay winner hwinner hothers hstate hreports =>
    have hne : winner ≠ i := fun heq => by rw [heq, hfrom] at hwinner; cases hwinner
    refine .underWay winner ((hkeep winner).trans hwinner) (fun j hj => (hkeep j).trans (hothers j hj)) ?_ hreports
    rw [goto_other hne]
    exact hstate
  | done hstate hnobody hreports => exact .done hstate (fun j => (hkeep j).trans (hnobody j)) hreports

/-- Whoever reports is the winner, and nothing has been reported before it is done. -/
theorem Stage.winner (h : s.Stage) (hi : (s.threads i).reporting = true) :
    (∀ j, j ≠ i → (s.threads j).reporting = false) ∧ s.state = (s.threads i).health ∧ s.reports = [] := by
  cases h with
  | healthy hstate hnobody hreports => rw [hnobody i] at hi; cases hi
  | underWay winner hwinner hothers hstate hreports =>
    have heq : i = winner := by
      by_contra hne
      rw [hothers i hne] at hi
      cases hi
    subst heq
    exact ⟨hothers, hstate, hreports⟩
  | done hstate hnobody hreports => rw [hnobody i] at hi; cases hi

/-- The winner moves on. -/
theorem Stage.moves (h : s.Stage) (hi : (s.threads i).reporting = true) (hto : place.reporting = true)
    {t : FatalReport ι} (hthreads : t.threads = (s.goto i place).threads) (hstate : t.state = place.health)
    (hreports : t.reports = s.reports) : t.Stage := by
  obtain ⟨hothers, -, hnone⟩ := h.winner hi
  refine .underWay i ?_ (fun j hj => ?_) ?_ (hreports.trans hnone)
  · rw [hthreads, goto_self]
    exact hto
  · rw [hthreads, goto_other hj]
    exact hothers j hj
  · rw [hthreads, goto_self]
    exact hstate

theorem Stage.advance (h : s.Stage) (hstep : s.advance i = some s') : s'.Stage := by
  cases hplace : s.threads i <;> simp only [FatalReport.advance, hplace] at hstep
  case outside => cases hstep
  case claiming reason =>
    split_ifs at hstep with hhealthy
    · cases hstep
      cases h with
      | healthy hstate hnobody hreports =>
        refine .underWay i ?_ (fun j hj => ?_) ?_ hreports
        · change ((s.goto i (.recording reason)).threads i).reporting = true
          rw [goto_self]
          rfl
        · change ((s.goto i (.recording reason)).threads j).reporting = false
          rw [goto_other hj]
          exact hnobody j
        · change JournalHealth.claimed = ((s.goto i (.recording reason)).threads i).health
          rw [goto_self]
          rfl
      | underWay winner hwinner hothers hstate hreports =>
        rw [hhealthy] at hstate
        cases hw : s.threads winner <;> rw [hw] at hstate <;> cases hstate
      | done hstate hnobody hreports => rw [hhealthy] at hstate; cases hstate
    · cases hstep
      exact h.bystander (by rw [hplace]; rfl) rfl
  case setting handler =>
    split_ifs at hstep
    cases hstep
    have hstage : (s.goto i .outside).Stage := h.bystander (by rw [hplace]; rfl) rfl
    cases hstage with
    | healthy hstate hnobody hreports => exact .healthy hstate hnobody hreports
    | underWay winner hwinner hothers hstate hreports => exact .underWay winner hwinner hothers hstate hreports
    | done hstate hnobody hreports => exact .done hstate hnobody hreports
  case calling handler =>
    obtain ⟨hothers, hstate, hnone⟩ := h.winner (i := i) (by rw [hplace]; rfl)
    have hnobody : ∀ j, ((s.goto i .outside).threads j).reporting = false := by
      intro j
      by_cases hj : j = i
      · rw [hj, goto_self]
        rfl
      · rw [goto_other hj]
        exact hothers j hj
    rw [hplace] at hstate
    split_ifs at hstep
    · cases hstep
      exact .done hstate hnobody (.inr (by rw [hnone]; rfl))
    · cases hstep
      exact .done hstate hnobody (.inl hnone)
  case entering =>
    have hstate := (h.winner (i := i) (by rw [hplace]; rfl)).2.1
    rw [hplace] at hstate
    split_ifs at hstep
    cases hstep
    exact h.moves (by rw [hplace]; rfl) rfl rfl hstate rfl
  case recording reason =>
    have hstate := (h.winner (i := i) (by rw [hplace]; rfl)).2.1
    rw [hplace] at hstate
    cases hstep
    exact h.moves (by rw [hplace]; rfl) rfl rfl hstate rfl
  case publishing =>
    cases hstep
    exact h.moves (by rw [hplace]; rfl) rfl rfl rfl rfl
  case copying | leaving handler =>
    have hstate := (h.winner (i := i) (by rw [hplace]; rfl)).2.1
    rw [hplace] at hstate
    cases hstep
    exact h.moves (by rw [hplace]; rfl) rfl rfl hstate rfl

theorem Stage.step (h : s.Stage) {action : ReportAction ι} (hstep : s.step action = some s') : s'.Stage := by
  cases action with
  | advance i => exact h.advance hstep
  | fail i reason =>
    simp only [FatalReport.step] at hstep
    split_ifs at hstep with houtside
    cases hstep
    exact h.bystander (by rw [houtside]; rfl) rfl
  | setFatalHandler i handler =>
    simp only [FatalReport.step] at hstep
    split_ifs at hstep with houtside
    cases hstep
    exact h.bystander (by rw [houtside]; rfl) rfl

section Reasons

variable {actions : List (ReportAction ι)}

/-- Whatever a thread carries or has recorded was given to a call of `Fail`, and a journal that
was failed is healthy for no longer than it takes to claim it. -/
structure Blamed (actions : List (ReportAction ι)) (s : FatalReport ι) : Prop where
  claiming : ∀ j reason, s.threads j = .claiming reason → reason ∈ failReasons actions
  recording : ∀ j reason, s.threads j = .recording reason → reason ∈ failReasons actions
  publishing : ∀ j, s.threads j = .publishing → s.error ∈ failReasons actions
  failed : s.state = .failed → s.error ∈ failReasons actions
  claimed : failReasons actions ≠ [] → s.state ≠ .healthy ∨ ∃ j reason, s.threads j = .claiming reason

/-- A thread moves on, and carries no more than the calls have given. -/
theorem Blamed.move (h : s.Blamed actions) {t : FatalReport ι} (hthreads : t.threads = (s.goto i place).threads)
    (hclaiming : ∀ reason, place ≠ .claiming reason)
    (hrecording : ∀ reason, place = .recording reason → reason ∈ failReasons actions)
    (herror : t.error ∈ failReasons actions ∨ t.error = s.error ∧ place ≠ .publishing ∧ (t.state = .failed → s.state = .failed))
    (hclaimed : t.state ≠ .healthy ∨ t.state = s.state ∧ ∀ reason, s.threads i ≠ .claiming reason) :
    t.Blamed actions := by
  have hat : ∀ j q, t.threads j = q → j = i ∧ place = q ∨ j ≠ i ∧ s.threads j = q := by
    intro j q hj
    rw [hthreads, goto_threads] at hj
    split_ifs at hj with hji
    · exact .inl ⟨hji, hj⟩
    · exact .inr ⟨hji, hj⟩
  refine ⟨fun j reason hj => ?_, fun j reason hj => ?_, fun j hj => ?_, fun hfailed => ?_, fun hsome => ?_⟩
  · rcases hat j _ hj with ⟨-, heq⟩ | ⟨-, hj⟩
    · exact absurd heq (hclaiming reason)
    · exact h.claiming j reason hj
  · rcases hat j _ hj with ⟨-, heq⟩ | ⟨-, hj⟩
    · exact hrecording reason heq
    · exact h.recording j reason hj
  · rcases herror with hmem | ⟨heq, hplace, -⟩
    · exact hmem
    · rcases hat j _ hj with ⟨-, hself⟩ | ⟨-, hj⟩
      · exact absurd hself hplace
      · rw [heq]
        exact h.publishing j hj
  · rcases herror with hmem | ⟨heq, -, hstate⟩
    · exact hmem
    · rw [heq]
      exact h.failed (hstate hfailed)
  · rcases hclaimed with hstate | ⟨heq, hfrom⟩
    · exact .inl hstate
    · rcases h.claimed hsome with hstate | ⟨j, reason, hj⟩
      · exact .inl (heq ▸ hstate)
      · refine .inr ⟨j, reason, ?_⟩
        have hji : j ≠ i := fun hji => hfrom reason (hji ▸ hj)
        rw [hthreads, goto_other hji]
        exact hj

theorem Blamed.advance (h : s.Blamed actions) (hstage : s.Stage) (hstep : s.advance i = some s') : s'.Blamed actions := by
  have hwinner : (s.threads i).reporting = true → s.state = (s.threads i).health := fun hi => (hstage.winner hi).2.1
  cases hplace : s.threads i <;> rw [hplace] at hwinner <;> simp only [FatalReport.advance, hplace] at hstep
  case outside => cases hstep
  case claiming reason =>
    split_ifs at hstep with hhealthy
    · cases hstep
      refine h.move rfl (by simp) (fun r heq => ?_) (.inr ⟨rfl, by simp, by simp⟩) (.inl (by simp))
      cases heq
      exact h.claiming i reason hplace
    · cases hstep
      exact h.move rfl (by simp) (by simp) (.inr ⟨rfl, by simp, id⟩) (.inl hhealthy)
  case recording reason =>
    cases hstep
    refine h.move rfl (by simp) (by simp) (.inl (h.recording i reason hplace)) (.inl ?_)
    change s.state ≠ .healthy
    rw [hwinner rfl]
    simp [Reporter.health]
  case publishing =>
    cases hstep
    exact h.move rfl (by simp) (by simp) (.inl (h.publishing i hplace)) (.inl (by simp))
  case entering | setting handler =>
    split_ifs at hstep
    cases hstep
    exact h.move rfl (by simp) (by simp) (.inr ⟨rfl, by simp, id⟩) (.inr ⟨rfl, by simp [hplace]⟩)
  case copying | leaving handler =>
    cases hstep
    exact h.move rfl (by simp) (by simp) (.inr ⟨rfl, by simp, id⟩) (.inr ⟨rfl, by simp [hplace]⟩)
  case calling handler =>
    split_ifs at hstep <;> cases hstep <;>
      exact h.move rfl (by simp) (by simp) (.inr ⟨rfl, by simp, id⟩) (.inr ⟨rfl, by simp [hplace]⟩)

omit [DecidableEq ι] in
/-- Other calls add no reasons. -/
theorem Blamed.snoc (h : s.Blamed actions) {action : ReportAction ι} (haction : failReasons [action] = []) :
    s.Blamed (actions ++ [action]) := by
  have heq : failReasons (actions ++ [action]) = failReasons actions := by
    rw [failReasons, List.filterMap_append]
    exact (congrArg _ haction).trans (List.append_nil _)
  refine ⟨?_, ?_, ?_, ?_, ?_⟩ <;> rw [heq]
  · exact h.claiming
  · exact h.recording
  · exact h.publishing
  · exact h.failed
  · exact h.claimed

theorem Blamed.fail (h : s.Blamed actions) {reason : Bytes} :
    (s.goto i (.claiming reason)).Blamed (actions ++ [.fail i reason]) := by
  have heq : failReasons (actions ++ [.fail i reason]) = failReasons actions ++ [reason] := List.filterMap_append
  have hmono : ∀ r, r ∈ failReasons actions → r ∈ failReasons (actions ++ [.fail i reason]) := by
    intro r hr
    rw [heq]
    exact List.mem_append_left _ hr
  have hat : ∀ j q, q ≠ .claiming reason → (s.goto i (.claiming reason)).threads j = q → s.threads j = q := by
    intro j q hq hj
    rw [goto_threads] at hj
    split_ifs at hj
    · exact absurd hj.symm hq
    · exact hj
  refine ⟨fun j r hj => ?_, fun j r hj => hmono r (h.recording j r (hat j _ (by simp) hj)),
    fun j hj => hmono _ (h.publishing j (hat j _ (by simp) hj)), fun hfailed => hmono _ (h.failed hfailed), fun _ => ?_⟩
  · by_cases hr : r = reason
    · rw [hr, heq]
      exact List.mem_append_right _ List.mem_cons_self
    · exact hmono r (h.claiming j r (hat j _ (by simpa using hr) hj))
  · exact .inr ⟨i, reason, goto_self⟩

end Reasons

section Heard

/-- Nobody has taken the handler away: once the report is over, it has been made. -/
structure Heard (s : FatalReport ι) : Prop where
  handler : s.handler = true
  kept : ∀ j, (s.threads j).clears = false
  heard : s.state = .failed → (∀ j, (s.threads j).reporting = false) → s.reports = [s.error] ∧ s.fatal = true

/-- A step after which nobody reports that did not before, or somebody still does. -/
theorem Heard.move (h : s.Heard) {t : FatalReport ι} (hthreads : t.threads = (s.goto i place).threads)
    (hkept : place.clears = false) (hhandler : t.handler = true)
    (hsame : place.reporting = true ∨
      (s.threads i).reporting = false ∧ t.state = s.state ∧ t.reports = s.reports ∧ t.error = s.error ∧ t.fatal = s.fatal) :
    t.Heard := by
  refine ⟨hhandler, fun j => ?_, fun hfailed hnobody => ?_⟩
  · rw [hthreads, goto_threads]
    split_ifs
    · exact hkept
    · exact h.kept j
  · rcases hsame with hreporting | ⟨hfrom, hstate, hreports, herror, hfatal⟩
    · have hi := hnobody i
      rw [hthreads, goto_self, hreporting] at hi
      cases hi
    · rw [hreports, herror, hfatal]
      refine h.heard (hstate ▸ hfailed) fun j => ?_
      by_cases hji : j = i
      · rw [hji]
        exact hfrom
      · have hj := hnobody j
        rw [hthreads, goto_other hji] at hj
        exact hj

theorem Heard.advance (h : s.Heard) (hstage : s.Stage) (hstep : s.advance i = some s') : s'.Heard := by
  have hclears := h.kept i
  cases hplace : s.threads i <;> rw [hplace] at hclears <;> simp only [FatalReport.advance, hplace] at hstep
  case outside => cases hstep
  case claiming reason =>
    split_ifs at hstep with hhealthy
    · cases hstep
      exact h.move rfl rfl h.handler (.inl rfl)
    · cases hstep
      exact h.move rfl rfl h.handler (.inr ⟨by rw [hplace]; rfl, rfl, rfl, rfl, rfl⟩)
  case recording reason | publishing =>
    cases hstep
    exact h.move rfl rfl h.handler (.inl rfl)
  case entering =>
    split_ifs at hstep
    cases hstep
    exact h.move rfl rfl h.handler (.inl rfl)
  case copying =>
    cases hstep
    exact h.move rfl (by rw [h.handler]; rfl) h.handler (.inl rfl)
  case leaving handler =>
    cases hstep
    exact h.move rfl hclears h.handler (.inl rfl)
  case setting handler =>
    split_ifs at hstep
    cases hstep
    exact h.move rfl rfl (by simpa [Reporter.clears] using hclears) (.inr ⟨by rw [hplace]; rfl, rfl, rfl, rfl, rfl⟩)
  case calling handler =>
    have hhandler : handler = true := by simpa [Reporter.clears] using hclears
    obtain ⟨-, -, hnone⟩ := hstage.winner (i := i) (by rw [hplace]; rfl)
    simp only [hhandler, if_true] at hstep
    cases hstep
    refine ⟨h.handler, fun j => ?_, fun _ _ => ⟨by rw [hnone]; rfl, rfl⟩⟩
    change ((s.goto i .outside).threads j).clears = false
    rw [goto_threads]
    split_ifs
    · rfl
    · exact h.kept j

theorem Heard.step (h : s.Heard) (hstage : s.Stage) {action : ReportAction ι} (hclears : action.clears = false)
    (hstep : s.step action = some s') : s'.Heard := by
  cases action with
  | advance i => exact h.advance hstage hstep
  | fail i reason =>
    simp only [FatalReport.step] at hstep
    split_ifs at hstep with houtside
    cases hstep
    exact h.move rfl rfl h.handler (.inr ⟨by rw [houtside]; rfl, rfl, rfl, rfl, rfl⟩)
  | setFatalHandler i handler =>
    simp only [FatalReport.step] at hstep
    split_ifs at hstep with houtside
    cases hstep
    exact h.move rfl hclears h.handler (.inr ⟨by rw [houtside]; rfl, rfl, rfl, rfl, rfl⟩)

end Heard

section Run

variable {actions : List (ReportAction ι)}

theorem run_stage (hrun : ({} : FatalReport ι).run actions = some s) : s.Stage :=
  Machine.run_invariant (I := fun _ s => s.Stage) (.healthy rfl (fun _ => rfl) rfl) (fun _ _ _ _ _ h hstep => h.step hstep) hrun

theorem run_blamed (hrun : ({} : FatalReport ι).run actions = some s) : s.Blamed actions := by
  refine Machine.run_invariant (I := fun actions s => s.Blamed actions) ?_ (fun actions mid action next hmid h hstep => ?_) hrun
  · exact ⟨by simp, by simp, by simp, by simp, by simp [failReasons]⟩
  · cases action with
    | advance i => exact (h.advance (run_stage hmid) hstep).snoc rfl
    | fail i reason =>
      simp only [FatalReport.step] at hstep
      split_ifs at hstep with houtside
      cases hstep
      exact h.fail
    | setFatalHandler i handler =>
      simp only [FatalReport.step] at hstep
      split_ifs at hstep with houtside
      cases hstep
      refine (h.move rfl ?_ ?_ (.inr ⟨rfl, ?_, id⟩) (.inr ⟨rfl, ?_⟩)).snoc rfl
      · simp
      · simp
      · simp
      · simp [houtside]

theorem run_heard (hrun : ({} : FatalReport ι).run actions = some s) (hkept : ∀ action ∈ actions, action.clears = false) :
    s.Heard := by
  refine Machine.run_invariant (I := fun actions s => (∀ action ∈ actions, action.clears = false) → s.Heard)
    (fun _ => ⟨rfl, fun _ => rfl, by simp⟩) (fun actions mid action next hmid h hstep hall => ?_) hrun hkept
  refine (h fun a ha => hall a (List.mem_append_left _ ha)).step (run_stage hmid) ?_ hstep
  exact hall action (List.mem_append_right _ List.mem_cons_self)

/-- A failed journal stays so, with the reason it has. -/
theorem failed_stays (hstage : s.Stage) (hfailed : s.state = .failed) {action : ReportAction ι}
    (hstep : s.step action = some s') : s'.state = .failed ∧ s'.error = s.error := by
  cases action with
  | fail i reason =>
    simp only [FatalReport.step] at hstep
    split_ifs at hstep
    cases hstep
    exact ⟨hfailed, rfl⟩
  | setFatalHandler i handler =>
    simp only [FatalReport.step] at hstep
    split_ifs at hstep
    cases hstep
    exact ⟨hfailed, rfl⟩
  | advance i =>
    have hwinner : (s.threads i).reporting = true → JournalHealth.failed = (s.threads i).health :=
      fun hi => hfailed ▸ (hstage.winner hi).2.1
    simp only [FatalReport.step] at hstep
    cases hplace : s.threads i <;> rw [hplace] at hwinner <;> simp only [FatalReport.advance, hplace] at hstep
    case outside => cases hstep
    case claiming reason =>
      rw [hfailed] at hstep
      simp only [reduceCtorEq, if_false] at hstep
      cases hstep
      exact ⟨hfailed, rfl⟩
    case recording reason => cases hwinner rfl
    case publishing => cases hwinner rfl
    case entering | setting handler =>
      split_ifs at hstep
      cases hstep
      exact ⟨hfailed, rfl⟩
    case copying | leaving handler =>
      cases hstep
      exact ⟨hfailed, rfl⟩
    case calling handler =>
      split_ifs at hstep <;> cases hstep <;> exact ⟨hfailed, rfl⟩

theorem run_failed_stays (hstage : s.Stage) (hfailed : s.state = .failed) {more : List (ReportAction ι)}
    (hmore : s.run more = some s') : s'.state = .failed ∧ s'.error = s.error := by
  induction more generalizing s with
  | nil =>
    cases hmore
    exact ⟨hfailed, rfl⟩
  | cons action more ih =>
    obtain ⟨mid, hstep, hrest⟩ := Option.bind_eq_some_iff.1 hmore
    obtain ⟨hmid, herror⟩ := failed_stays hstage hfailed hstep
    obtain ⟨hlast, hlastError⟩ := ih (hstage.step hstep) hmid hrest
    exact ⟨hlast, hlastError.trans herror⟩

end Run

end FatalReport

open FatalReport in
/-- However many threads fail the journal at once, the handler hears of it at most once, and then
the reason that `Error` gives from the moment it gives one; that reason was given to some call,
and it never changes. Once no call is under way a journal that was failed reads failed, and
unless the handler was taken away it has been called and the fatal latch is set. -/
theorem journal_failure_reported_once {ι : Type} [DecidableEq ι] (actions : List (ReportAction ι)) (s : FatalReport ι)
    (hrun : ({} : FatalReport ι).run actions = some s) :
    (s.reports = [] ∨ s.failed = true ∧ s.reports = [s.error]) ∧
    (s.failed = true → s.error ∈ failReasons actions ∧
      ∀ more s', s.run more = some s' → s'.failed = true ∧ s'.error = s.error) ∧
    ((∀ i, s.threads i = .outside) → failReasons actions ≠ [] →
      s.failed = true ∧ ((∀ action ∈ actions, action.clears = false) → s.reports = [s.error] ∧ s.fatal = true)) := by
  have hstage := run_stage hrun
  have hblamed := run_blamed hrun
  simp only [failed, decide_eq_true_eq]
  refine ⟨?_, fun hfailed => ⟨hblamed.failed hfailed, fun more s' hmore => run_failed_stays hstage hfailed hmore⟩,
    fun hquiet hsome => ?_⟩
  · cases hstage with
    | healthy hstate hnobody hreports => exact .inl hreports
    | underWay winner hwinner hothers hstate hreports => exact .inl hreports
    | done hstate hnobody hreports => exact hreports.imp_right fun heq => ⟨hstate, heq⟩
  · have hnobody : ∀ j, (s.threads j).reporting = false := fun j => by rw [hquiet j]; rfl
    have hfailed : s.state = .failed := by
      cases hstage with
      | healthy hstate hnobody hreports =>
        rcases hblamed.claimed hsome with hne | ⟨j, reason, hj⟩
        · exact absurd hstate hne
        · rw [hquiet j] at hj
          cases hj
      | underWay winner hwinner hothers hstate hreports => rw [hnobody winner] at hwinner; cases hwinner
      | done hstate hnobody hreports => exact hstate
    exact ⟨hfailed, fun hkept => (run_heard hrun hkept).heard hfailed hnobody⟩

/-- The ring overflows while a write fails, and the overflow loses the claim. -/
def twoFailures : List (ReportAction (Fin 2)) :=
  [.fail 0 (ascii "write"), .fail 1 (ascii "overflow"), .advance 0, .advance 1, .advance 0, .advance 0, .advance 0,
    .advance 0, .advance 0, .advance 0]

theorem twoFailures_runs : (({} : FatalReport (Fin 2)).run twoFailures).isSome = true := by decide

theorem two_failures_reported_once : ∃ s, ({} : FatalReport (Fin 2)).run twoFailures = some s ∧ s.failed = true ∧
    s.reports = [s.error] ∧ s.fatal = true := by
  have hrun := (Option.some_get twoFailures_runs).symm
  have hquiet : ∀ i, ((({} : FatalReport (Fin 2)).run twoFailures).get twoFailures_runs).threads i = .outside := by decide
  obtain ⟨hfailed, hheard⟩ := (journal_failure_reported_once twoFailures _ hrun).2.2 hquiet (by decide)
  obtain ⟨hreports, hfatal⟩ := hheard (by decide)
  exact ⟨_, hrun, hfailed, hreports, hfatal⟩

end CryptoTrader
