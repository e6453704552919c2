import CryptoTrader.Proofs.BookRing

/-! Connections of one adapter do not disturb each other: a connection is where its own
calls take it, whatever is called on the others in between. So the adapter depends only on
what each connection is told, and the schedule of the book thread cannot be seen in it. -/

namespace CryptoTrader

namespace BookAdapter

variable {N D : Type} (P : Platform N D)

/-- An adapter with a connection for each of some settings. -/
def withConnections (settings : List BookSettings) : BookAdapter := settings.foldl (·.addConnection ·) {}

theorem withConnections_run (settings : List BookSettings) (calls : List (ℕ × AdapterCall)) (handle : ℕ) :
    ((withConnections settings).run P calls).connections[handle]? =
      settings[handle]?.map fun own => (Connection.add own).run P (callsOf handle calls) := by
  rw [run_connection, withConnections, connections_addAll]
  simp only [List.nil_append, List.getElem?_map, Option.map_map]
  rfl

/-- Only what each connection is told matters. -/
theorem run_congr (settings : List BookSettings) {calls calls' : List (ℕ × AdapterCall)}
    (hsame : ∀ handle < settings.length, callsOf handle calls = callsOf handle calls') :
    (withConnections settings).run P calls = (withConnections settings).run P calls' := by
  have hconnections : ((withConnections settings).run P calls).connections =
      ((withConnections settings).run P calls').connections := by
    apply List.ext_getElem?
    intro handle
    rw [withConnections_run, withConnections_run]
    rcases Nat.lt_or_ge handle settings.length with hlt | hge
    · rw [hsame handle hlt]
    · rw [List.getElem?_eq_none hge]
      rfl
  cases h : (withConnections settings).run P calls
  cases h' : (withConnections settings).run P calls'
  rw [h, h'] at hconnections
  exact congrArg BookAdapter.mk hconnections

end BookAdapter

/-- Two runs of the service in which every sink was called alike, with the same refusals,
tell every connection the same, however the book thread was scheduled. -/
theorem BookService.stopped_calls_congr {n : ℕ} {actions actions' : List ServiceAction} {s s' : BookService}
    (hrun : (BookService.create n).run actions = some s) (hstopped : s.stopped = true)
    (hrun' : (BookService.create n).run actions' = some s') (hstopped' : s'.stopped = true)
    (hsame : ∀ i < n, sinkCalls i actions = sinkCalls i actions') :
    ∀ i < n, callsOf i s.received = callsOf i s'.received := by
  intro i hi
  obtain ⟨-, -, hcalls, -⟩ := stopped_feed hrun hstopped hi
  obtain ⟨-, -, hcalls', -⟩ := stopped_feed hrun' hstopped' hi
  rw [hcalls, hcalls', offersTo, offersTo, hsame i hi]

/-- A connection ends where its own calls take it on an adapter of its own; so two
interleavings of the same calls per connection leave the same adapter, and so do two
schedules of the book thread over the same calls on the sinks. -/
theorem connections_do_not_interfere {N D : Type} (P : Platform N D) (settings : List BookSettings)
    (calls : List (ℕ × AdapterCall)) :
    (∀ handle (hhandle : handle < settings.length), ∃ conn,
      ((BookAdapter.withConnections settings).run P calls).connections[handle]? = some conn ∧
        (BookAdapter.withConnections [settings[handle]]).run P ((callsOf handle calls).map (0, ·)) = ⟨[conn]⟩) ∧
    (∀ calls', (∀ handle < settings.length, callsOf handle calls = callsOf handle calls') →
      (BookAdapter.withConnections settings).run P calls = (BookAdapter.withConnections settings).run P calls') ∧
    ∀ actions actions' s s', (BookService.create settings.length).run actions = some s → s.stopped = true →
      (BookService.create settings.length).run actions' = some s' → s'.stopped = true →
      (∀ i < settings.length, sinkCalls i actions = sinkCalls i actions') →
      s.adapter P settings = s'.adapter P settings := by
  refine ⟨fun handle hhandle => ?_, fun calls' => BookAdapter.run_congr P settings, ?_⟩
  · refine ⟨(Connection.add settings[handle]).run P (callsOf handle calls), ?_, BookAdapter.run_alone P _ _⟩
    rw [BookAdapter.withConnections_run, List.getElem?_eq_getElem hhandle]
    rfl
  · intro actions actions' s s' hrun hstopped hrun' hstopped' hsame
    exact BookAdapter.run_congr P settings (BookService.stopped_calls_congr hrun hstopped hrun' hstopped' hsame)

end CryptoTrader
