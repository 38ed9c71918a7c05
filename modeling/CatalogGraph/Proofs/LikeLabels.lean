import CatalogGraph.Proofs.CommonSubsequences
import Mathlib.Algebra.Order.Round
import Mathlib.Algebra.Order.Floor.Semifield
import Mathlib.Data.Rat.Floor

/-!
How alike labels are: the measure is the share of the longest common subsequence of two normalized
labels, and where one label stands in the other, it depends on their lengths only.
-/
namespace CatalogGraph.Identity

section Scans

/-- Behind the start of a text the scan goes on from where it stands then. -/
theorem exists_normalizedFrom_append (started pending : Bool) (cs : List Char) :
    ∃ started' pending', ∀ rest, normalizedFrom started pending (cs ++ rest) =
      normalizedFrom started pending cs ++ normalizedFrom started' pending' rest := by
  induction cs generalizing started pending with
  | nil => exact ⟨started, pending, fun rest => rfl⟩
  | cons c cs ih =>
    by_cases kept : (Text.isAlphabetic c || Text.isNumeric c) = true
    · obtain ⟨started', pending', split⟩ := ih true false
      refine ⟨started', pending', fun rest => ?_⟩
      simp [normalizedFrom, kept, split]
    · obtain ⟨started', pending', split⟩ := ih started (pending || Text.isBlank c)
      refine ⟨started', pending', fun rest => ?_⟩
      simp [normalizedFrom, kept, split]

/-- In the middle of a text the scan gives a blank more at most, in front. -/
theorem normalizedFrom_suffix (started pending pending' : Bool) (cs : List Char) :
    normalizedFrom false pending cs <:+ normalizedFrom started pending' cs := by
  induction cs generalizing pending pending' with
  | nil => simp [normalizedFrom]
  | cons c cs ih =>
    rw [normalizedFrom, normalizedFrom]
    split
    next =>
      rw [List.append_assoc, List.append_assoc]
      exact List.suffix_append _ _
    next => exact ih _ _

theorem normalized_infix {a b : String} (stands : b.toList <:+: a.toList) :
    normalized b <:+: normalized a := by
  obtain ⟨before, behind, whole⟩ := stands
  obtain ⟨started, pending, split⟩ := exists_normalizedFrom_append false false before
  obtain ⟨started', pending', split'⟩ := exists_normalizedFrom_append started pending b.toList
  have scanned : normalized a = normalizedFrom false false before ++
      (normalizedFrom started pending b.toList ++ normalizedFrom started' pending' behind) := by
    rw [normalized, ← whole, List.append_assoc, split, split']
  rw [scanned]
  exact ((normalizedFrom_suffix started false pending b.toList).isInfix.trans
    (List.prefix_append _ _).isInfix).trans (List.suffix_append _ _).isInfix

end Scans

section Ratios

/-- To add half of a divisor before a division rounds to the nearest, and a half up. -/
theorem round_div {n total : Nat} (positive : 0 < total) :
    round ((n : ℚ) / total) = ((n + total / 2) / total : Nat) := by
  have some : (total : ℚ) ≠ 0 := Nat.cast_ne_zero.mpr positive.ne'
  have halves : (n : ℚ) / total + 1 / 2 = ((2 * n + total : Nat) : ℚ) / ((2 * total : Nat) : ℚ) := by
    push_cast
    field_simp
  have cut : (2 * n + total) / 2 = n + total / 2 := by omega
  rw [round_eq, halves, Rat.floor_natCast_div_natCast, ← Int.natCast_ediv,
    ← Nat.div_div_eq_div_mul, cut]

theorem commonLength_comm (a b : List Char) : commonLength a b = commonLength b a :=
  (longest_commonLength a b).unique (longest_commonLength b a).symm

theorem commonLength_le (a b : List Char) :
    commonLength a b ≤ a.length ∧ commonLength a b ≤ b.length := by
  obtain ⟨c, ha, hb, same⟩ := (longest_commonLength a b).attained
  rw [← same]
  exact ⟨ha.length_le, hb.length_le⟩

/-- The measure of two texts of given lengths with a common subsequence of a given length. -/
def percentOf (common total : Nat) : Nat :=
  if total = 0 then 100 else (200 * common + total / 2) / total

theorem similarity_eq (a b : String) : similarity a b =
    percentOf (commonLength (normalized a) (normalized b))
      ((normalized a).length + (normalized b).length) := rfl

theorem similarity_comm (a b : String) : similarity a b = similarity b a := by
  rw [similarity_eq, similarity_eq, commonLength_comm, Nat.add_comm]

theorem percentOf_le {common total : Nat} (half : 2 * common ≤ total) :
    percentOf common total ≤ 100 := by
  unfold percentOf
  split
  next => exact Nat.le_refl 100
  next some => exact Nat.le_of_lt_succ (Nat.div_lt_of_lt_mul (by omega))

theorem similarity_le (a b : String) : similarity a b ≤ 100 := by
  have lengths := commonLength_le (normalized a) (normalized b)
  exact percentOf_le (by omega)

end Ratios

/-- How alike a candidate and a label are: twice the length of the longest common subsequence of
their normalized texts in percent of the length of both, rounded to the nearest with a half up. If
the label stands in the candidate, then also when both are normalized, and it is all in common. -/
theorem similarity_rounds_common_share (candidate label : String) :
    let x := normalized candidate
    let y := normalized label
    let total := x.length + y.length
    Longest x y (commonLength x y) ∧
    (total = 0 → similarity candidate label = 100) ∧
    (total ≠ 0 → (similarity candidate label : ℤ) =
      round ((200 * commonLength x y : Nat) / total : ℚ)) ∧
    similarity candidate label = similarity label candidate ∧
    similarity label label = 100 ∧
    similarity candidate label ≤ 100 ∧
    (UInt8.ofNat (similarity candidate label)).toNat = similarity candidate label ∧
    (label.toList <:+: candidate.toList → y <:+: x ∧ commonLength x y = y.length ∧
      ∀ percent, (MatchPolicy.similar percent).accepts candidate label ↔
        percent ≤ percentOf y.length (x.length + y.length)) := by
  intro x y total
  have bounded := similarity_le candidate label
  refine ⟨longest_commonLength x y, fun none => ?_, fun some => ?_,
    similarity_comm candidate label, similarity_self label, bounded, ?_, fun stands => ?_⟩
  · rw [similarity_eq, percentOf, if_pos none]
  · rw [round_div (Nat.pos_of_ne_zero some), similarity_eq, percentOf, if_neg some]
  · rw [UInt8.toNat_ofNat']
    exact Nat.mod_eq_of_lt (by omega)
  · have within : y <:+: x := normalized_infix stands
    have whole : commonLength x y = y.length :=
      (longest_commonLength x y).unique (.of_sublist within.sublist)
    refine ⟨within, whole, fun percent => ?_⟩
    simp [MatchPolicy.accepts, Text.occursIn_iff.mpr stands, similarity_eq, ← whole, x, y]

/-- The name of an author with the years stands at a distance from the bare name. -/
theorem melvilles_share :
    "Melville, Herman".toList <:+: "Melville, Herman, 1819-1891".toList ∧
    (∀ percent, (MatchPolicy.similar percent).accepts "Melville, Herman, 1819-1891"
      "Melville, Herman" ↔ percent ≤ 77) := by
  have stands : "Melville, Herman".toList <:+: "Melville, Herman, 1819-1891".toList :=
    ⟨[], ", 1819-1891".toList, by simp⟩
  have lengths : (normalized "Melville, Herman, 1819-1891").length = 24 ∧
    (normalized "Melville, Herman").length = 15 := by decide +kernel
  obtain ⟨-, -, -, -, -, -, -, contained⟩ :=
    similarity_rounds_common_share "Melville, Herman, 1819-1891" "Melville, Herman"
  obtain ⟨-, -, accepts⟩ := contained stands
  simp only [lengths] at accepts
  exact ⟨stands, accepts⟩

end CatalogGraph.Identity
