import CryptoTrader.Lib.Machine

/-! Several copies of a machine that act in any order. Whatever the others do in between,
each goes through a run of its own. -/

namespace Machine

variable {σ α : Type} (step : σ → α → Option σ)

/-- The copy an action names takes it, if there is one and it may. -/
def stepAt (states : List σ) (action : ℕ × α) : Option (List σ) :=
  states[action.1]?.bind fun s => (step s action.2).map fun s' => states.set action.1 s'

/-- The actions of one copy, in order. -/
def actionsAt (i : ℕ) (actions : List (ℕ × α)) : List α := (actions.filter (·.1 = i)).map (·.2)

theorem actionsAt_append (i : ℕ) (actions actions' : List (ℕ × α)) :
    actionsAt i (actions ++ actions') = actionsAt i actions ++ actionsAt i actions' := by
  simp only [actionsAt, List.filter_append, List.map_append]

theorem actionsAt_self (action : ℕ × α) : actionsAt action.1 [action] = [action.2] := by
  simp [actionsAt]

theorem actionsAt_other {i : ℕ} {action : ℕ × α} (h : action.1 ≠ i) : actionsAt i [action] = [] := by
  simp [actionsAt, h]

variable {step} {states states' : List σ} {action : ℕ × α}

/-- What one action does: one copy takes a step, the others stay. -/
theorem stepAt_eq_some : stepAt step states action = some states' ↔
    ∃ s s', states[action.1]? = some s ∧ step s action.2 = some s' ∧ states' = states.set action.1 s' := by
  simp only [stepAt, Option.bind_eq_some_iff, Option.map_eq_some_iff]
  constructor
  · rintro ⟨s, hs, s', hstep, rfl⟩
    exact ⟨s, s', hs, hstep, rfl⟩
  · rintro ⟨s, s', hs, hstep, rfl⟩
    exact ⟨s, hs, s', hstep, rfl⟩

theorem getElem?_set_of_some {i : ℕ} {s s' : σ} (hs : states[i]? = some s) : (states.set i s')[i]? = some s' :=
  List.getElem?_set_self (List.getElem?_eq_some_iff.1 hs).1

/-- After a step a copy is the one that took it, or as it was. -/
theorem getElem?_set_cases {i j : ℕ} {s' t : σ} (h : (states.set i s')[j]? = some t) :
    i = j ∧ t = s' ∨ i ≠ j ∧ states[j]? = some t := by
  by_cases hij : i = j
  · subst hij
    have hlt : i < (states.set i s').length := (List.getElem?_eq_some_iff.1 h).1
    rw [List.length_set] at hlt
    rw [List.getElem?_set_self hlt] at h
    exact .inl ⟨rfl, (Option.some.inj h).symm⟩
  · rw [List.getElem?_set_ne hij] at h
    exact .inr ⟨hij, h⟩

/-- Each copy's state is where its own actions lead it. -/
theorem run_stepAt (init : List σ) {actions : List (ℕ × α)} (hrun : run (stepAt step) init actions = some states) (i : ℕ) :
    states[i]? = init[i]?.bind fun s => run step s (actionsAt i actions) := by
  refine run_invariant (I := fun actions states => states[i]? = init[i]?.bind fun s => run step s (actionsAt i actions))
    ?_ (fun actions mid action next _ hmid hnext => ?_) hrun
  · simp [actionsAt, run]
  · obtain ⟨s, s', hs, hstep, rfl⟩ := stepAt_eq_some.1 hnext
    by_cases hi : action.1 = i
    · subst hi
      rw [hs] at hmid
      obtain ⟨first, hfirst, hbefore⟩ := Option.bind_eq_some_iff.1 hmid.symm
      rw [getElem?_set_of_some hs, hfirst, actionsAt_append, actionsAt_self, Option.bind_some]
      exact ((run_snoc_eq_some step).2 ⟨s, hbefore, hstep⟩).symm
    · rw [List.getElem?_set_ne hi, hmid, actionsAt_append, actionsAt_other hi, List.append_nil]

end Machine
