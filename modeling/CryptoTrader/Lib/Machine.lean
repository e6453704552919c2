import Mathlib.Data.List.Induction

/-! Runs of a machine whose actions may be disabled, and what holds along them. -/

namespace Machine

variable {σ α : Type} (step : σ → α → Option σ)

/-- The state after a list of actions, if each was enabled when its turn came. -/
def run : σ → List α → Option σ
  | s, [] => some s
  | s, action :: actions => (step s action).bind fun s' => run s' actions

theorem run_append (s : σ) (actions actions' : List α) :
    run step s (actions ++ actions') = (run step s actions).bind fun s' => run step s' actions' := by
  induction actions generalizing s with
  | nil => rfl
  | cons action actions ih =>
    simp only [List.cons_append, run, Option.bind_assoc]
    exact congrArg _ (funext ih)

theorem run_snoc_eq_some {s s' : σ} {actions : List α} {action : α} :
    run step s (actions ++ [action]) = some s' ↔
      ∃ mid, run step s actions = some mid ∧ step mid action = some s' := by
  rw [run_append, Option.bind_eq_some_iff]
  simp [run]

theorem run_isSome_of_isPrefix {s : σ} {actions actions' : List α} (h : actions <+: actions')
    (hrun : (run step s actions').isSome = true) : (run step s actions).isSome = true := by
  obtain ⟨rest, rfl⟩ := h
  rw [run_append] at hrun
  exact Option.isSome_of_isSome_bind hrun

variable {step}

/-- What holds at the start and is kept by every step, given the actions that led to it,
holds after every run. -/
theorem run_invariant {I : List α → σ → Prop} {init : σ} (hinit : I [] init)
    (hstep : ∀ actions s action s', run step init actions = some s → I actions s → step s action = some s' →
      I (actions ++ [action]) s')
    {actions : List α} {s : σ} (hrun : run step init actions = some s) : I actions s := by
  induction actions using List.reverseRecOn generalizing s with
  | nil =>
    cases hrun
    exact hinit
  | append_singleton actions action ih =>
    obtain ⟨mid, hmid, hlast⟩ := (run_snoc_eq_some step).1 hrun
    exact hstep actions mid action s hmid (ih hmid) hlast

variable (step)

/-- Every action of a run was admissible in the state it was taken in. -/
def Along (ok : σ → α → Prop) : σ → List α → Prop
  | _, [] => True
  | s, action :: actions => ok s action ∧ ∀ s', step s action = some s' → Along ok s' actions

theorem along_snoc (ok : σ → α → Prop) {s mid : σ} {actions : List α} (action : α)
    (hrun : run step s actions = some mid) :
    Along step ok s (actions ++ [action]) ↔ Along step ok s actions ∧ ok mid action := by
  induction actions generalizing s with
  | nil =>
    cases hrun
    simp [Along]
  | cons first actions ih =>
    obtain ⟨s', hfirst, hrest⟩ := Option.bind_eq_some_iff.1 hrun
    constructor
    · rintro ⟨hok, htail⟩
      obtain ⟨hactions, hlast⟩ := (ih hrest).1 (htail s' hfirst)
      refine ⟨⟨hok, fun t ht => ?_⟩, hlast⟩
      rw [hfirst] at ht
      cases ht
      exact hactions
    · rintro ⟨⟨hok, htail⟩, hlast⟩
      refine ⟨hok, fun t ht => ?_⟩
      rw [hfirst] at ht
      cases ht
      exact (ih hrest).2 ⟨htail s' hfirst, hlast⟩

/-- What every action admits in every state is admitted along every run. -/
theorem along_of_forall {ok : σ → α → Prop} {actions : List α} (h : ∀ action ∈ actions, ∀ s, ok s action) (s : σ) :
    Along step ok s actions := by
  induction actions generalizing s with
  | nil => trivial
  | cons action actions ih =>
    refine ⟨h action List.mem_cons_self s, fun s' _ => ?_⟩
    exact ih (fun a ha => h a (List.mem_cons_of_mem _ ha)) s'

/-- Some run of the machine leads from the first state to the second. -/
def Reaches (allowed : α → Prop) (s s' : σ) : Prop :=
  ∃ actions, (∀ action ∈ actions, allowed action) ∧ run step s actions = some s'

namespace Reaches

variable {step} {allowed : α → Prop} {s s' s'' : σ}

theorem refl (s : σ) : Reaches step allowed s s := ⟨[], by simp, rfl⟩

theorem single {action : α} (ha : allowed action) (h : step s action = some s') : Reaches step allowed s s' :=
  ⟨[action], by simpa using ha, by simp [run, h]⟩

theorem trans (h : Reaches step allowed s s') (h' : Reaches step allowed s' s'') : Reaches step allowed s s'' := by
  obtain ⟨actions, hall, hrun⟩ := h
  obtain ⟨actions', hall', hrun'⟩ := h'
  refine ⟨actions ++ actions', ?_, ?_⟩
  · intro action hmem
    rcases List.mem_append.1 hmem with hmem | hmem
    · exact hall action hmem
    · exact hall' action hmem
  · rw [run_append, hrun]
    exact hrun'

/-- A run of a part is a run of the whole, if each of its steps is. -/
theorem lift {τ β : Type} {step' : τ → β → Option τ} {allowed' : β → Prop} (whole : σ → τ)
    (hstep : ∀ s action s', allowed action → step s action = some s' → Reaches step' allowed' (whole s) (whole s'))
    (h : Reaches step allowed s s') : Reaches step' allowed' (whole s) (whole s') := by
  obtain ⟨actions, hall, hrun⟩ := h
  induction actions generalizing s with
  | nil =>
    cases hrun
    exact refl _
  | cons action actions ih =>
    obtain ⟨mid, hfirst, hrest⟩ := Option.bind_eq_some_iff.1 hrun
    have hone := hstep s action mid (hall action List.mem_cons_self) hfirst
    exact hone.trans (ih (fun a ha => hall a (List.mem_cons_of_mem _ ha)) hrest)

end Reaches

end Machine
