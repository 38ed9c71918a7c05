import CatalogGraph.Remote.Error

/-!
Repeating a request after a transient failure, with delays in milliseconds that double up to a
limit and carry up to a quarter of random jitter.
-/
namespace CatalogGraph

/-- A product of words that stays at the largest word instead of wrapping. -/
def saturatingMul (a b : UInt64) : UInt64 :=
  UInt64.ofNat (min (a.toNat * b.toNat) (UInt64.size - 1))

/-- The delays of one request and its repetitions. -/
structure Backoff where
  base : UInt64
  limit : UInt64
  attempt : UInt32 := 0
deriving DecidableEq, Repr

namespace Backoff

/-- The delay without jitter. The power of two is a shift of a word, whose amount counts modulo
the width of the word. -/
def capped (b : Backoff) : UInt64 :=
  min (saturatingMul b.base (1 <<< b.attempt.toUInt64)) b.limit

/-- The next delay, of which `random` decides the jitter, and the backoff after it. -/
def nextDelay (b : Backoff) (random : UInt64) : UInt64 × Backoff :=
  let jitter := random % (b.capped / 4 + 1)
  let attempt := if b.attempt = UInt32.ofNat (UInt32.size - 1) then b.attempt else b.attempt + 1
  (b.capped + jitter, { b with attempt })

/-- Starts over with the shortest delay. -/
def reset (b : Backoff) : Backoff := { b with attempt := 0 }

/-- The delays of a row of calls without jitter; `false` stands for a start over. -/
def delays (b : Backoff) : List Bool → List UInt64
  | [] => []
  | true :: calls => (b.nextDelay 0).1 :: (b.nextDelay 0).2.delays calls
  | false :: calls => b.reset.delays calls

end Backoff

/-- How often a request is repeated, and after which delays. -/
structure RetryPolicy where
  retries : Nat := 3
  base : UInt64 := 250
  limit : UInt64 := 10000
deriving DecidableEq, Repr

namespace RetryPolicy

/-- The policy that never repeats a request. -/
def none : RetryPolicy := { retries := 0 }

def backoff (p : RetryPolicy) : Backoff := { base := p.base, limit := p.limit }

end RetryPolicy

variable {σ α : Type}

/-- Runs an operation again after each transient failure while repetitions are left; `random`
gives the numbers for the jitter and `wait` lets a delay pass. -/
def retryFrom (random : Nat → UInt64) (wait : UInt64 → σ → σ)
    (operation : σ → Except RemoteError α × σ) :
    Nat → Nat → Backoff → σ → Except RemoteError α × σ
  | 0, _, _, s => operation s
  | left + 1, used, backoff, s =>
    match operation s with
    | (.ok a, s) => (.ok a, s)
    | (.error e, s) =>
      if e.isTransient then
        let (delay, backoff) := backoff.nextDelay (random used)
        retryFrom random wait operation left (used + 1) backoff (wait delay s)
      else (.error e, s)

/-- Runs an operation under a policy. -/
def withRetry (policy : RetryPolicy) (random : Nat → UInt64) (wait : UInt64 → σ → σ)
    (operation : σ → Except RemoteError α × σ) (s : σ) : Except RemoteError α × σ :=
  retryFrom random wait operation policy.retries 0 policy.backoff s

end CatalogGraph
