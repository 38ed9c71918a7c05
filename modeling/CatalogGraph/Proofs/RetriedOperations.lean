import CatalogGraph.Proofs.BackoffDelays

/-!
Repeated operations: an operation is tried again as long as it fails for the moment and repetitions
are left, with a delay of one backoff in front of each repetition, and its last outcome counts.
-/
namespace CatalogGraph
variable {σ α : Type}

/-- Whether an outcome is a failure that may pass. -/
def mayPass : Except RemoteError α → Bool
  | .ok _ => false
  | .error e => e.isTransient

/-- An attempt is the last one if each before it has failed for the moment, and it has not, or no
repetition is left. -/
structure IsLast (outcomes : Nat → Except RemoteError α) (repetitions last : Nat) : Prop where
  within : last ≤ repetitions
  passed : ∀ i < last, mayPass (outcomes i) = true
  stopped : last < repetitions → mayPass (outcomes last) = false

theorem exists_isLast (outcomes : Nat → Except RemoteError α) (repetitions : Nat) :
    ∃ last, IsLast outcomes repetitions last := by
  induction repetitions with
  | zero => exact ⟨0, Nat.le_refl 0, by omega, by omega⟩
  | succ m ih =>
    obtain ⟨last, within, passed, stopped⟩ := ih
    cases passing : mayPass (outcomes last) with
    | false => exact ⟨last, by omega, passed, fun _ => passing⟩
    | true =>
      have full : last = m := by
        by_contra early
        rw [stopped (by omega)] at passing
        cases passing
      subst full
      refine ⟨last + 1, Nat.le_refl _, fun i before => ?_, by omega⟩
      rcases Nat.lt_succ_iff_lt_or_eq.mp before with before | rfl
      · exact passed i before
      · exact passing

/-- What happens to an operation that is repeated. -/
inductive RetryEvent (α : Type) where
  | tried (outcome : Except RemoteError α)
  | waited (delay : UInt64)

/-- Attempts with the delays between them, up to a last one. -/
def retryEvents (outcomes : Nat → Except RemoteError α) (delays : Nat → UInt64) (last : Nat) :
    List (RetryEvent α) :=
  .tried (outcomes 0) ::
    (List.range last).flatMap fun i => [.waited (delays i), .tried (outcomes (i + 1))]

theorem retryEvents_succ (outcomes : Nat → Except RemoteError α) (delays : Nat → UInt64)
    (last : Nat) : retryEvents outcomes delays (last + 1) =
      retryEvents outcomes delays last ++ [.waited (delays last), .tried (outcomes (last + 1))] := by
  rw [retryEvents, List.range_succ, List.flatMap_append, List.flatMap_singleton,
    ← List.cons_append, ← retryEvents]

/-- An operation of which each outcome is kept. -/
def loggedOperation (operation : σ → Except RemoteError α × σ) (s : List (RetryEvent α) × σ) :
    Except RemoteError α × List (RetryEvent α) × σ :=
  let (outcome, t) := operation s.2
  (outcome, s.1 ++ [.tried outcome], t)

/-- A wait of which the delay is kept. -/
def loggedWait (α : Type) (wait : UInt64 → σ → σ) (delay : UInt64)
    (s : List (RetryEvent α) × σ) : List (RetryEvent α) × σ :=
  (s.1 ++ [.waited delay], wait delay s.2)

theorem retryFrom_succ (random : Nat → UInt64) (wait : UInt64 → σ → σ)
    (operation : σ → Except RemoteError α × σ) (left used : Nat) (backoff : Backoff) (s : σ) :
    retryFrom random wait operation (left + 1) used backoff s =
      if mayPass (operation s).1 then
        retryFrom random wait operation left (used + 1) (backoff.nextDelay (random used)).2
          (wait (backoff.nextDelay (random used)).1 (operation s).2)
      else operation s := by
  rw [retryFrom]
  rcases operation s with ⟨e | a, t⟩
  · rfl
  · rfl

namespace RetryPolicy

/-- The backoff of a policy after so many delays. -/
def backoffAt (policy : RetryPolicy) (random : Nat → UInt64) (i : Nat) : Backoff :=
  ((List.range i).map fun j => .next (random j)).foldl Backoff.after policy.backoff

/-- The successive delays of the backoff of a policy. -/
def delay (policy : RetryPolicy) (random : Nat → UInt64) (i : Nat) : UInt64 :=
  ((policy.backoffAt random i).nextDelay (random i)).1

theorem backoffAt_succ (policy : RetryPolicy) (random : Nat → UInt64) (i : Nat) :
    policy.backoffAt random (i + 1) = ((policy.backoffAt random i).nextDelay (random i)).2 := by
  rw [backoffAt, List.range_succ, List.map_append, List.foldl_append]
  rfl

section Attempts
variable (policy : RetryPolicy) (random : Nat → UInt64) (wait : UInt64 → σ → σ)
  (operation : σ → Except RemoteError α × σ) (s : σ)

/-- The state in which an attempt is made, if a delay and another attempt follow each one. -/
def before : Nat → σ
  | 0 => s
  | i + 1 => wait (policy.delay random i) (operation (before i)).2

/-- The outcome of an attempt, and the state that it leaves. -/
def attempt (i : Nat) : Except RemoteError α × σ :=
  operation (policy.before random wait operation s i)

/-- The sequence of outcomes. -/
def outcomes (i : Nat) : Except RemoteError α := (policy.attempt random wait operation s i).1

/-- Behind `used` attempts that have failed for the moment the last one is still the last. -/
theorem retryFrom_eq_attempt {last : Nat} (left used : Nat) (reached : used ≤ last)
    (ends : IsLast (policy.outcomes random wait operation s) (used + left) last) :
    retryFrom random wait operation left used (policy.backoffAt random used)
        (policy.before random wait operation s used) =
      policy.attempt random wait operation s last := by
  induction left generalizing used with
  | zero =>
    obtain rfl : used = last := Nat.le_antisymm reached ends.within
    rfl
  | succ left ih =>
    rw [retryFrom_succ]
    rcases Nat.eq_or_lt_of_le reached with rfl | later
    · have settled : mayPass (operation _).1 = false := ends.stopped (by omega)
      rw [settled]
      rfl
    · have passing : mayPass (operation _).1 = true := ends.passed used later
      have shifted : used + (left + 1) = used + 1 + left := by omega
      rw [shifted] at ends
      rw [if_pos passing, ← backoffAt_succ]
      exact ih (used + 1) later ends

theorem withRetry_eq_attempt {last : Nat}
    (ends : IsLast (policy.outcomes random wait operation s) policy.retries last) :
    withRetry policy random wait operation s = policy.attempt random wait operation s last := by
  rw [← Nat.zero_add policy.retries] at ends
  exact policy.retryFrom_eq_attempt random wait operation s _ 0 (Nat.zero_le last) ends

/-- To keep what happens changes nothing about the attempts. -/
theorem attempt_logged (i : Nat) :
    policy.attempt random (loggedWait α wait) (loggedOperation operation) ([], s) i =
      (policy.outcomes random wait operation s i,
        retryEvents (policy.outcomes random wait operation s) (policy.delay random) i,
        (policy.attempt random wait operation s i).2) := by
  induction i with
  | zero => rfl
  | succ i ih =>
    change loggedOperation operation (loggedWait α wait (policy.delay random i)
      (policy.attempt random (loggedWait α wait) (loggedOperation operation) ([], s) i).2) = _
    rw [ih, retryEvents_succ]
    simp [loggedOperation, loggedWait, outcomes, attempt, before]

end Attempts

/-- Whatever the outcomes of an operation, it is tried up to the first that is no failure for the
moment, or until no repetition is left. That outcome is given back, each attempt before it has been
followed by a wait for the next delay of one backoff, and nothing else has happened. -/
theorem tries_up_to_last (policy : RetryPolicy) (random : Nat → UInt64) (wait : UInt64 → σ → σ)
    (operation : σ → Except RemoteError α × σ) (s : σ) :
    let outcomes := policy.outcomes random wait operation s
    ∃ last, IsLast outcomes policy.retries last ∧
      withRetry policy random wait operation s = policy.attempt random wait operation s last ∧
      withRetry policy random (loggedWait α wait) (loggedOperation operation) ([], s) =
        (outcomes last, retryEvents outcomes (policy.delay random) last,
          (policy.attempt random wait operation s last).2) := by
  intro outcomes
  obtain ⟨last, ends⟩ := exists_isLast outcomes policy.retries
  have logged : policy.outcomes random (loggedWait α wait) (loggedOperation operation) ([], s) =
      outcomes :=
    funext fun i => congrArg Prod.fst (policy.attempt_logged random wait operation s i)
  refine ⟨last, ends, policy.withRetry_eq_attempt random wait operation s ends, ?_⟩
  rw [← logged] at ends
  rw [policy.withRetry_eq_attempt random _ _ _ ends, attempt_logged]

end RetryPolicy
end CatalogGraph
