import Mathlib.Data.List.Basic

/-! A worker behind a FIFO queue. Whatever the worker has got to, the state it will be in
once it has handled its queue is the one it would be in had it handled every event at the
push. -/

namespace Worker

variable {σ ε : Type} (handle : σ → ε → σ) (accepts : σ → ε → Prop)

/-- The worker's state once its queue is empty. -/
def settled (s : σ) (queue : List ε) : σ := queue.foldl handle s

/-- Every event of the queue is acceptable when its turn comes. -/
def Admits : σ → List ε → Prop
  | _, [] => True
  | s, event :: queue => accepts s event ∧ Admits (handle s event) queue

theorem settled_snoc (s : σ) (queue : List ε) (event : ε) :
    settled handle s (queue ++ [event]) = handle (settled handle s queue) event :=
  List.foldl_concat handle s event queue

theorem admits_snoc (s : σ) (queue : List ε) (event : ε) :
    Admits handle accepts s (queue ++ [event]) ↔
      Admits handle accepts s queue ∧ accepts (settled handle s queue) event := by
  induction queue generalizing s with
  | nil => simp [Admits, settled]
  | cons first queue ih =>
    rw [List.cons_append, Admits, ih, Admits, and_assoc]
    rfl

end Worker
