import CatalogGraph.Remote.Retry
import Mathlib.Algebra.Group.Nat.Defs
import Mathlib.Data.List.Basic
import Mathlib.Data.List.Induction

/-!
Delays of a backoff in exact numbers: they double up to the limit as long as fewer than 64 have been
given, and then begin again with the shortest one.
-/
namespace CatalogGraph

theorem toNat_saturatingMul (a b : UInt64) :
    (saturatingMul a b).toNat = min (a.toNat * b.toNat) (UInt64.size - 1) := by
  rw [saturatingMul, UInt64.toNat_ofNat', Nat.mod_eq_of_lt]
  have : UInt64.size = 2 ^ 64 := rfl
  omega

namespace Backoff

/-- What a backoff is asked for: the next delay, for which a number is drawn, or a start over. -/
inductive Call where
  | next (random : UInt64)
  | startOver

/-- The backoff after a call. -/
def after (b : Backoff) : Call → Backoff
  | .next random => (b.nextDelay random).2
  | .startOver => b.reset

/-- The number of delays given since the last start over. -/
def given (calls : List Call) : Nat :=
  calls.foldl (fun k call => match call with | .next _ => k + 1 | .startOver => 0) 0

/-- What is added to a delay to keep clients apart. -/
def jitter (b : Backoff) (random : UInt64) : UInt64 := random % (b.capped / 4 + 1)

/-- The exponent of the power of two that is used after `k` delays: the count of delays stays at
the largest word of 32 bits, and a shift takes its last six bits. -/
def exponent (k : Nat) : Nat := min k (UInt32.size - 1) % 64

/-- The delay without jitter whose power of two has the exponent `n`, in exact numbers. -/
def delayAt (base limit : UInt64) (n : Nat) : Nat := min (base.toNat * 2 ^ n) limit.toNat

section Words

theorem toNat_capped (b : Backoff) :
    b.capped.toNat = delayAt b.base b.limit (b.attempt.toNat % 64) := by
  have bound : b.attempt.toNat % 64 < 64 := Nat.mod_lt _ (by decide)
  have shifted : (1 <<< b.attempt.toUInt64 : UInt64).toNat = 2 ^ (b.attempt.toNat % 64) := by
    rw [UInt64.toNat_shiftLeft, UInt32.toNat_toUInt64, UInt64.toNat_one, Nat.one_shiftLeft,
      Nat.mod_eq_of_lt (Nat.pow_lt_pow_right (by decide) bound)]
  have small : b.limit.toNat ≤ UInt64.size - 1 := Nat.le_sub_one_of_lt b.limit.toNat_lt
  rw [capped, UInt64.toNat_min, toNat_saturatingMul, shifted, delayAt]
  omega

theorem toNat_jitter (b : Backoff) (random : UInt64) :
    (b.jitter random).toNat = random.toNat % (b.capped.toNat / 4 + 1) := by
  have small : b.capped.toNat / 4 + 1 < 2 ^ 64 := by
    have := b.capped.toNat_lt
    omega
  have four : (4 : UInt64).toNat = 4 := rfl
  rw [jitter, UInt64.toNat_mod, UInt64.toNat_add, UInt64.toNat_div, UInt64.toNat_one, four,
    Nat.mod_eq_of_lt small]

theorem toNat_nextDelay (b : Backoff) (random : UInt64) : (b.nextDelay random).1.toNat =
    (b.capped.toNat + (b.jitter random).toNat) % UInt64.size :=
  UInt64.toNat_add b.capped (b.jitter random)

theorem toNat_attempt_nextDelay (b : Backoff) (random : UInt64) :
    (b.nextDelay random).2.attempt.toNat = min (b.attempt.toNat + 1) (UInt32.size - 1) := by
  have last : (UInt32.ofNat (UInt32.size - 1)).toNat = UInt32.size - 1 := rfl
  have small : b.attempt.toNat < 2 ^ 32 := b.attempt.toNat_lt
  have size : UInt32.size = 2 ^ 32 := rfl
  simp only [nextDelay]
  split
  next full =>
    rw [full, last]
    omega
  next more =>
    rw [← UInt32.toNat_inj, last] at more
    rw [UInt32.toNat_add, UInt32.toNat_one]
    omega

end Words

section Calls
variable {base limit : UInt64} {k : Nat}

/-- A backoff that has given `k` delays since it was made or started over. -/
structure HasGiven (base limit : UInt64) (k : Nat) (b : Backoff) : Prop where
  base : b.base = base
  limit : b.limit = limit
  attempt : b.attempt.toNat = min k (UInt32.size - 1)

theorem HasGiven.next {b : Backoff} (given : HasGiven base limit k b) (random : UInt64) :
    HasGiven base limit (k + 1) (b.nextDelay random).2 where
  base := given.base
  limit := given.limit
  attempt := by
    rw [toNat_attempt_nextDelay, given.attempt]
    omega

theorem hasGiven_calls (base limit : UInt64) (calls : List Call) :
    HasGiven base limit (given calls) (calls.foldl after { base, limit }) := by
  induction calls using List.reverseRecOn with
  | nil => exact ⟨rfl, rfl, rfl⟩
  | append_singleton calls call ih =>
    rw [List.foldl_concat, given, List.foldl_concat]
    cases call with
    | next random => exact ih.next random
    | startOver => exact ⟨ih.base, ih.limit, rfl⟩

theorem HasGiven.toNat_capped {b : Backoff} (given : HasGiven base limit k b) :
    b.capped.toNat = delayAt base limit (exponent k) := by
  rw [Backoff.toNat_capped, given.base, given.limit, given.attempt, exponent]

end Calls

section Exponents
variable {base limit : UInt64} {k m n : Nat}

theorem delayAt_mono (le : m ≤ n) : delayAt base limit m ≤ delayAt base limit n := by
  have power : base.toNat * 2 ^ m ≤ base.toNat * 2 ^ n :=
    Nat.mul_le_mul_left _ (Nat.pow_le_pow_right (by decide) le)
  unfold delayAt
  omega

/-- A smaller exponent comes to the same exactly if there is nothing to double, or if it reaches
the limit all the same. -/
theorem delayAt_eq_iff (lt : m < n) : delayAt base limit m = delayAt base limit n ↔
    base = 0 ∨ limit.toNat ≤ base.toNat * 2 ^ m := by
  have zero : base = 0 ↔ base.toNat = 0 := UInt64.toNat_inj.symm
  have power : base.toNat ≠ 0 → base.toNat * 2 ^ m < base.toNat * 2 ^ n := fun some =>
    Nat.mul_lt_mul_of_pos_left (Nat.pow_lt_pow_right (by decide) lt) (Nat.pos_of_ne_zero some)
  have none : base.toNat = 0 → base.toNat * 2 ^ m = 0 ∧ base.toNat * 2 ^ n = 0 := by
    intro none
    simp [none]
  rw [zero]
  unfold delayAt
  omega

theorem exponent_le (k : Nat) : exponent k ≤ k := by
  unfold exponent
  omega

theorem exponent_eq_iff : exponent k = k ↔ k < 64 := by
  have size : UInt32.size = 2 ^ 32 := rfl
  unfold exponent
  omega

/-- Delays are as they should be exactly if no power has wrapped around, or if it does not matter. -/
theorem delayAt_exponent_iff : delayAt base limit (exponent k) = delayAt base limit k ↔
    k < 64 ∨ base = 0 ∨ limit.toNat ≤ base.toNat * 2 ^ exponent k := by
  rcases Nat.lt_or_eq_of_le (exponent_le k) with lt | same
  · have wrapped : ¬ k < 64 := fun small => Nat.ne_of_lt lt (exponent_eq_iff.mpr small)
    rw [delayAt_eq_iff lt]
    simp [wrapped]
  · simp [same, exponent_eq_iff.mp same]

/-- From one delay to the next only a power that wraps around makes a delay shorter. -/
theorem delayAt_succ_iff :
    delayAt base limit (exponent k) ≤ delayAt base limit (exponent (k + 1)) ↔
      (k + 1) % 64 ≠ 0 ∨ UInt32.size - 1 ≤ k ∨ base = 0 ∨ limit ≤ base := by
  have size : UInt32.size = 2 ^ 32 := rfl
  by_cases wraps : (k + 1) % 64 = 0 ∧ k < UInt32.size - 1
  · have last : exponent k = 63 := by
      unfold exponent
      omega
    have first : exponent (k + 1) = 0 := by
      unfold exponent
      omega
    have shorter : delayAt base limit 0 ≤ delayAt base limit 63 := delayAt_mono (by decide)
    have back : delayAt base limit 63 ≤ delayAt base limit 0 ↔ base = 0 ∨ limit ≤ base := by
      have same : delayAt base limit 0 = delayAt base limit 63 ↔
          base = 0 ∨ limit.toNat ≤ base.toNat * 2 ^ 0 := delayAt_eq_iff (by decide)
      rw [Nat.pow_zero, Nat.mul_one, ← UInt64.le_iff_toNat_le] at same
      rw [← same]
      exact ⟨Nat.le_antisymm shorter, fun same => Nat.le_of_eq same.symm⟩
    have early : ¬ UInt32.size - 1 ≤ k := Nat.not_le.mpr wraps.2
    rw [last, first, back]
    simp only [wraps.1, early, ne_eq, not_true_eq_false, false_or]
  · have longer : exponent k ≤ exponent (k + 1) := by
      unfold exponent
      omega
    simp only [delayAt_mono longer, true_iff]
    omega

end Exponents

/-- Whatever has been asked of a backoff before, its next delay is a power of two times the shortest
one, cut at the limit, and up to a quarter more, all as words of 64 bits. It is the one with as many
doublings as delays were given exactly if there were fewer than 64 of them or the wrapped power comes
to the same; and no sum leaves the words exactly if the limit leaves room for the quarter. -/
theorem delays_double_iff_not_wrapped (base limit : UInt64) (calls : List Call) :
    let b := calls.foldl after { base, limit }
    let k := given calls
    let ideal := min (base.toNat * 2 ^ k) limit.toNat
    let wrapped := min (base.toNat * 2 ^ exponent k) limit.toNat
    (b.capped.toNat = wrapped ∧ wrapped ≤ limit.toNat ∧ ∀ random,
      (b.nextDelay random).1.toNat =
        (wrapped + random.toNat % (wrapped / 4 + 1)) % UInt64.size) ∧
    ((∀ random, b.capped.toNat + (b.jitter random).toNat < UInt64.size ∧
        ideal ≤ (b.nextDelay random).1.toNat ∧
        (b.nextDelay random).1.toNat ≤ ideal + ideal / 4) ↔
      (k < 64 ∨ base = 0 ∨ limit.toNat ≤ base.toNat * 2 ^ exponent k) ∧
        ideal + ideal / 4 < UInt64.size) ∧
    ((∀ random, b.capped ≤ (b.nextDelay random).2.capped) ↔
      (k + 1) % 64 ≠ 0 ∨ UInt32.size - 1 ≤ k ∨ base = 0 ∨ limit ≤ base) := by
  intro b k ideal wrapped
  have hasGiven : HasGiven base limit k b := hasGiven_calls base limit calls
  have capped : b.capped.toNat = wrapped := hasGiven.toNat_capped
  have delay (random : UInt64) : (b.nextDelay random).1.toNat =
      (wrapped + (b.jitter random).toNat) % UInt64.size := by
    rw [toNat_nextDelay, capped]
  have jitter (random : UInt64) : (b.jitter random).toNat = random.toNat % (wrapped / 4 + 1) := by
    rw [toNat_jitter, capped]
  have shorter : wrapped ≤ ideal := delayAt_mono (exponent_le k)
  have same_iff : wrapped = ideal ↔ _ := delayAt_exponent_iff
  refine ⟨⟨capped, Nat.min_le_right _ _, fun random => by rw [delay, jitter]⟩, ?_, ?_⟩
  · rw [← same_iff, capped]
    constructor
    · intro bounds
      obtain ⟨-, least, -⟩ := bounds 0
      obtain ⟨room, -, -⟩ := bounds (b.capped / 4)
      have quarter : (b.jitter (b.capped / 4)).toNat = wrapped / 4 := by
        rw [jitter, UInt64.toNat_div, capped]
        exact Nat.mod_eq_of_lt (Nat.lt_succ_self _)
      have plain : (b.nextDelay 0).1.toNat ≤ wrapped := by
        rw [delay, jitter]
        simpa using Nat.mod_le wrapped UInt64.size
      have same : wrapped = ideal := Nat.le_antisymm shorter (Nat.le_trans least plain)
      exact ⟨same, by rwa [quarter, same] at room⟩
    · rintro ⟨same, room⟩ random
      have quarter : (b.jitter random).toNat ≤ ideal / 4 := by
        rw [jitter, same]
        exact Nat.le_of_lt_succ (Nat.mod_lt _ (Nat.succ_pos _))
      have fits : wrapped + (b.jitter random).toNat < UInt64.size := by omega
      rw [delay, Nat.mod_eq_of_lt fits]
      omega
  · have onward (random : UInt64) : b.capped ≤ (b.nextDelay random).2.capped ↔
        (k + 1) % 64 ≠ 0 ∨ UInt32.size - 1 ≤ k ∨ base = 0 ∨ limit ≤ base := by
      rw [UInt64.le_iff_toNat_le, hasGiven.toNat_capped, (hasGiven.next random).toNat_capped]
      exact delayAt_succ_iff
    simp only [onward, forall_const]

/-- The delay behind 64 others is the shortest one again, and at the largest limit the sum with the
jitter leaves the words, so that the delay is much shorter than the limit. -/
theorem delays_wrap_around :
    let b := (List.replicate 64 (Call.next 0)).foldl after { base := 1, limit := 3 }
    let full : Backoff := { base := UInt64.ofNat (2 ^ 64 - 1), limit := UInt64.ofNat (2 ^ 64 - 1) }
    ((b.nextDelay 0).1 = 1 ∧ min (1 * 2 ^ given (List.replicate 64 (.next 0))) 3 = 3) ∧
    (full.nextDelay (UInt64.ofNat (2 ^ 62 - 1))).1.toNat = 2 ^ 62 - 2 := by
  decide +kernel

end Backoff
end CatalogGraph
