/-!
Work on a state in place. What it has done to the state stays, also where it ends
in an error.
-/
namespace TableAlgebra

abbrev InPlace (σ ε α : Type) := ExceptT ε (StateM σ) α

namespace InPlace

variable {σ ε α β : Type}

/-- The outcome of the work on a state, and the state that it leaves. -/
def on (work : InPlace σ ε α) (state : σ) : Except ε α × σ := (work.run.run state).run

theorem on_bind (work : InPlace σ ε α) (next : α → InPlace σ ε β) (state : σ) :
    (work >>= next).on state =
      match work.on state with
      | (.ok a, left) => (next a).on left
      | (.error e, left) => (.error e, left) := by
  simp only [on, ExceptT.run_bind, StateT.run_bind, Id.run_bind]
  cases (work.run.run state).run with
  | mk outcome left => cases outcome <;> rfl

theorem on_pure (a : α) (state : σ) : (pure a : InPlace σ ε α).on state = (.ok a, state) := rfl

theorem on_get (state : σ) : (get : InPlace σ ε σ).on state = (.ok state, state) := rfl

theorem on_modify (f : σ → σ) (state : σ) :
    (modify f : InPlace σ ε Unit).on state = (.ok (), f state) := rfl

theorem on_discard (work : InPlace σ ε α) (state : σ) :
    (discard work : InPlace σ ε Unit).on state =
      ((work.on state).1.map fun _ => (), (work.on state).2) := by
  have same : (discard work : InPlace σ ε Unit) = work >>= fun _ => pure () := by
    rw [bind_pure_comp]
    rfl
  rw [same, on_bind]
  cases work.on state with
  | mk outcome left => cases outcome <;> rfl

theorem on_of_except (outcome : Except ε α) (state : σ) :
    (MonadExcept.ofExcept outcome : InPlace σ ε α).on state = (outcome, state) := by
  cases outcome <;> rfl

end InPlace
end TableAlgebra
