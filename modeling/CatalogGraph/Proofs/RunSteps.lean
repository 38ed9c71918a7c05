import CatalogGraph.Engine.Run

/-!
Steps of a run: what a step gives from a state, and bounds on what a step does to the state and on
the errors it fails with. A bound that holds of the parts of a step holds of the step.
-/
namespace CatalogGraph.Engine
variable {σ α β : Type}

/-- What a step gives from a state, and the state after it. -/
def outcome (step : Run σ α) (s : RunState σ) : Except MappingError α × RunState σ :=
  step.run.run s

@[simp] theorem outcome_pure (a : α) (s : RunState σ) :
    outcome (pure a : Run σ α) s = (.ok a, s) := rfl

@[simp] theorem outcome_throw (e : MappingError) (s : RunState σ) :
    outcome (throw e : Run σ α) s = (.error e, s) := rfl

@[simp] theorem outcome_modifyGet (f : RunState σ → α × RunState σ) (s : RunState σ) :
    outcome (modifyGet f : Run σ α) s = (.ok (f s).1, (f s).2) := rfl

@[simp] theorem outcome_modify (f : RunState σ → RunState σ) (s : RunState σ) :
    outcome (modify f : Run σ Unit) s = (.ok (), f s) := rfl

@[simp] theorem outcome_get (s : RunState σ) :
    outcome (get : Run σ (RunState σ)) s = (.ok s, s) := rfl

@[simp] theorem outcome_lift (x : Except MappingError α) (s : RunState σ) :
    outcome (liftM x : Run σ α) s = (x, s) := by
  cases x <;> rfl

theorem outcome_bind (step : Run σ α) (next : α → Run σ β) (s : RunState σ) :
    outcome (step >>= next) s =
      match outcome step s with
      | (.ok a, t) => outcome (next a) t
      | (.error e, t) => (.error e, t) := by
  unfold outcome
  rw [ExceptT.run_bind, StateT.run_bind]
  rcases step.run.run s with ⟨_ | _, _⟩ <;> rfl

theorem outcome_bind_ok {step : Run σ α} {next : α → Run σ β} {s t : RunState σ} {a : α}
    (h : outcome step s = (.ok a, t)) : outcome (step >>= next) s = outcome (next a) t := by
  rw [outcome_bind, h]

theorem outcome_bind_error {step : Run σ α} {next : α → Run σ β} {s t : RunState σ}
    {e : MappingError} (h : outcome step s = (.error e, t)) :
    outcome (step >>= next) s = (.error e, t) := by
  rw [outcome_bind, h]

/-- Steps that give something together gave something each. -/
theorem exists_of_outcome_bind {step : Run σ α} {next : α → Run σ β} {s t : RunState σ} {b : β}
    (done : outcome (step >>= next) s = (.ok b, t)) :
    ∃ a u, outcome step s = (.ok a, u) ∧ outcome (next a) u = (.ok b, t) := by
  rcases first : outcome step s with ⟨e | a, u⟩
  · rw [outcome_bind_error first] at done
    cases done
  · exact ⟨a, u, rfl, by rwa [outcome_bind_ok first] at done⟩

/-- Steps are told apart by what they give. -/
theorem eq_of_outcome {step other : Run σ α} (same : ∀ s, outcome step s = outcome other s) :
    step = other :=
  funext same

/-- How a step may change the state, and with which errors it may fail. -/
structure Bound (σ : Type) where
  moves : RunState σ → RunState σ → Prop
  fails : MappingError → Prop
  refl : ∀ s, moves s s
  trans : ∀ {s t u}, moves s t → moves t u → moves s u

/-- From every state a step keeps to a bound. -/
def Within (bound : Bound σ) (step : Run σ α) : Prop :=
  ∀ s, bound.moves s (outcome step s).2 ∧ ∀ e, (outcome step s).1 = .error e → bound.fails e

section Within
variable {bound : Bound σ}

theorem within_pure (a : α) : Within bound (pure a : Run σ α) :=
  fun s => ⟨bound.refl s, by simp⟩

theorem within_throw {e : MappingError} (allowed : bound.fails e) :
    Within bound (throw e : Run σ α) := by
  refine fun s => ⟨bound.refl s, ?_⟩
  rintro _ ⟨⟩
  exact allowed

theorem within_modifyGet {f : RunState σ → α × RunState σ} (moves : ∀ s, bound.moves s (f s).2) :
    Within bound (modifyGet f : Run σ α) :=
  fun s => ⟨moves s, by simp⟩

theorem within_modify {f : RunState σ → RunState σ} (moves : ∀ s, bound.moves s (f s)) :
    Within bound (modify f : Run σ Unit) :=
  fun s => ⟨moves s, by simp⟩

theorem within_get : Within bound (get : Run σ (RunState σ)) :=
  fun s => ⟨bound.refl s, by simp⟩

theorem within_lift {x : Except MappingError α} (allowed : ∀ e, x = .error e → bound.fails e) :
    Within bound (liftM x : Run σ α) := by
  intro s
  rw [outcome_lift]
  exact ⟨bound.refl s, allowed⟩

theorem within_bind {step : Run σ α} {next : α → Run σ β} (first : Within bound step)
    (second : ∀ a, Within bound (next a)) : Within bound (step >>= next) := by
  intro s
  obtain ⟨moves, fails⟩ := first s
  rcases h : outcome step s with ⟨e | a, t⟩
  · rw [h] at moves fails
    rw [outcome_bind_error h]
    refine ⟨moves, ?_⟩
    rintro _ ⟨⟩
    exact fails e rfl
  · rw [h] at moves
    rw [outcome_bind_ok h]
    obtain ⟨moves', fails'⟩ := second a t
    exact ⟨bound.trans moves moves', fails'⟩

theorem Within.mono {wide : Bound σ} {step : Run σ α} (within : Within bound step)
    (moves : ∀ s t, bound.moves s t → wide.moves s t)
    (fails : ∀ e, bound.fails e → wide.fails e) : Within wide step :=
  fun s => ⟨moves _ _ (within s).1, fun e h => fails e ((within s).2 e h)⟩

/-- A template is filled within a bound if its holes are. -/
theorem within_fill {resolve : String → Run σ (Option String)}
    (hole : ∀ name, Within bound (resolve name)) (parts : List Template.Part) :
    Within bound (Template.fill resolve parts) := by
  induction parts with
  | nil => exact within_pure _
  | cons part rest ih =>
    cases part with
    | char c =>
      refine within_bind ih fun r => ?_
      cases r <;> exact within_pure _
    | hole name =>
      refine within_bind (hole name) fun value => ?_
      cases value with
      | none => exact within_pure _
      | some value =>
        refine within_bind ih fun r => ?_
        cases r <;> exact within_pure _

theorem within_expand {resolve : String → Run σ (Option String)}
    (hole : ∀ name, Within bound (resolve name)) (template : String) :
    Within bound (Template.expand resolve template) := by
  refine within_bind (within_fill hole _) fun r => ?_
  cases r <;> exact within_pure _

end Within

end CatalogGraph.Engine
