import CatalogGraph.Identity.Similarity
import Mathlib.Data.List.Basic
import Mathlib.Data.List.Induction

/-!
Common subsequences: the lengths that are worked out row by row are those of the longest common
subsequences of two texts, so that a label always names a candidate of the same label.
-/
namespace CatalogGraph.Identity
variable {a b c : List Char} {n : Nat}

/-- The longest common subsequences of two texts have length `n`. -/
structure Longest (a b : List Char) (n : Nat) : Prop where
  attained : ∃ c : List Char, c.Sublist a ∧ c.Sublist b ∧ c.length = n
  bounded : ∀ c : List Char, c.Sublist a → c.Sublist b → c.length ≤ n

theorem Longest.nil_left (b : List Char) : Longest [] b 0 where
  attained := ⟨[], .slnil, List.nil_sublist b, rfl⟩
  bounded _ ha _ := ha.length_le

theorem Longest.nil_right (a : List Char) : Longest a [] 0 where
  attained := ⟨[], List.nil_sublist a, .slnil, rfl⟩
  bounded _ _ hb := hb.length_le

theorem Longest.symm (longest : Longest a b n) : Longest b a n where
  attained := by
    obtain ⟨c, ha, hb, length⟩ := longest.attained
    exact ⟨c, hb, ha, length⟩
  bounded c hb ha := longest.bounded c ha hb

theorem Longest.unique {m : Nat} (longest : Longest a b n) (longest' : Longest a b m) : n = m := by
  obtain ⟨c, ha, hb, rfl⟩ := longest.attained
  obtain ⟨c', ha', hb', rfl⟩ := longest'.attained
  exact Nat.le_antisymm (longest'.bounded c ha hb) (longest.bounded c' ha' hb')

/-- A text that is a subsequence of another one is the longest common one. -/
theorem Longest.of_sublist (sub : b.Sublist a) : Longest a b b.length where
  attained := ⟨b, sub, .refl b, rfl⟩
  bounded _ _ hb := hb.length_le

theorem sublist_concat_iff {x : Char} :
    c.Sublist (a ++ [x]) ↔ c.Sublist a ∨ ∃ d, c = d ++ [x] ∧ d.Sublist a := by
  rw [List.sublist_append_iff]
  constructor
  · rintro ⟨d, e, rfl, hd, he⟩
    rcases List.sublist_singleton.mp he with rfl | rfl
    · exact .inl (by simpa using hd)
    · exact .inr ⟨d, rfl, hd⟩
  · rintro (hc | ⟨d, rfl, hd⟩)
    · exact ⟨c, [], by simp, hc, List.nil_sublist _⟩
    · exact ⟨d, [x], rfl, hd, .refl _⟩

/-- The same character at both ends makes each longest common subsequence one longer. -/
theorem Longest.concat_same (longest : Longest a b n) (x : Char) :
    Longest (a ++ [x]) (b ++ [x]) (n + 1) where
  attained := by
    obtain ⟨c, ha, hb, rfl⟩ := longest.attained
    exact ⟨c ++ [x], ha.append_right [x], hb.append_right [x], by simp⟩
  bounded c ha hb := by
    have dropLast {a : List Char} (sub : c.Sublist (a ++ [x])) : c.dropLast.Sublist a := by
      rcases sublist_concat_iff.mp sub with sub | ⟨d, rfl, sub⟩
      · exact (List.dropLast_sublist c).trans sub
      · simpa using sub
    have shorter := longest.bounded c.dropLast (dropLast ha) (dropLast hb)
    rw [List.length_dropLast] at shorter
    omega

/-- Of two different characters at the ends a common subsequence uses one at most. -/
theorem Longest.concat_differ {x y : Char} (differ : x ≠ y) {left up : Nat}
    (hl : Longest (a ++ [x]) b left) (hu : Longest a (b ++ [y]) up) :
    Longest (a ++ [x]) (b ++ [y]) (max left up) where
  attained := by
    rcases Nat.le_total left up with le | le
    · obtain ⟨c, ha, hb, rfl⟩ := hu.attained
      exact ⟨c, ha.trans (List.sublist_append_left a [x]), hb, (Nat.max_eq_right le).symm⟩
    · obtain ⟨c, ha, hb, rfl⟩ := hl.attained
      exact ⟨c, ha, hb.trans (List.sublist_append_left b [y]), (Nat.max_eq_left le).symm⟩
  bounded c ha hb := by
    rcases sublist_concat_iff.mp ha with ha' | ⟨d, rfl, -⟩
    · exact Nat.le_trans (hu.bounded c ha' hb) (Nat.le_max_right left up)
    · rcases sublist_concat_iff.mp hb with hb' | ⟨e, same, -⟩
      · exact Nat.le_trans (hl.bounded _ ha hb') (Nat.le_max_left left up)
      · exact absurd (List.append_inj' same rfl).2 (by simpa using differ)

/-- The lengths for each start of `before ++ rest` that is longer than `before`. -/
def Row (a : List Char) : List Char → List Char → List Nat → Prop
  | _, [], [] => True
  | before, d :: rest, n :: lengths =>
    Longest a (before ++ [d]) n ∧ Row a (before ++ [d]) rest lengths
  | _, _, _ => False

theorem row_zero (before rest : List Char) : Row [] before rest (rest.map fun _ => 0) := by
  induction rest generalizing before with
  | nil => trivial
  | cons d rest ih => exact ⟨.nil_left _, ih _⟩

/-- One more character gives the next row, from the entry at the left, the one above and the one
above at the left. -/
theorem row_nextLengths {before rest : List Char} {left corner : Nat} {lengths : List Nat}
    (x : Char) (hl : Longest (a ++ [x]) before left) (hc : Longest a before corner)
    (row : Row a before rest lengths) :
    Row (a ++ [x]) before rest (nextLengths x left corner rest lengths) := by
  induction rest generalizing before left corner lengths with
  | nil => cases lengths <;> trivial
  | cons d rest ih =>
    cases lengths with
    | nil => cases row
    | cons up lengths =>
      obtain ⟨hu, row⟩ := row
      have entry : Longest (a ++ [x]) (before ++ [d])
          (if x = d then corner + 1 else max left up) := by
        split
        next same =>
          subst same
          exact hc.concat_same x
        next differ => exact hl.concat_differ differ hu
      exact ⟨entry, ih entry hu row⟩

theorem row_commonLengths (a b : List Char) : Row a [] b (commonLengths a b) := by
  induction a using List.reverseRecOn with
  | nil => exact row_zero [] b
  | append_singleton a x ih =>
    rw [commonLengths, List.foldl_concat]
    exact row_nextLengths x (.nil_right _) (.nil_right _) ih

theorem Row.last {before rest : List Char} {lengths : List Nat} (row : Row a before rest lengths)
    {n : Nat} (start : Longest a before n) : Longest a (before ++ rest) (lengths.getLastD n) := by
  induction rest generalizing before lengths n with
  | nil =>
    cases lengths with
    | nil => simpa using start
    | cons => cases row
  | cons d rest ih =>
    cases lengths with
    | nil => cases row
    | cons m lengths =>
      rw [List.getLastD_cons, List.append_cons]
      exact ih row.2 row.1

theorem longest_commonLength (a b : List Char) : Longest a b (commonLength a b) :=
  (row_commonLengths a b).last (.nil_right a)

theorem similarity_self (label : String) : similarity label label = 100 := by
  have whole : commonLength (normalized label) (normalized label) = (normalized label).length :=
    (longest_commonLength _ _).unique (.of_sublist (.refl _))
  simp only [similarity, whole]
  generalize (normalized label).length = n
  split
  next => rfl
  next => exact Nat.div_eq_of_lt_le (by omega) (by omega)

namespace MatchPolicy

/-- A policy that asks for no likeness beyond that of equal texts. -/
def IsAttainable : MatchPolicy → Prop
  | .contains => True
  | .similar percent => percent ≤ 100

/-- A label names a candidate of the same label. -/
theorem IsAttainable.accepts_self {policy : MatchPolicy} (attainable : policy.IsAttainable)
    (label : String) : policy.accepts label label := by
  have stands : Text.occursIn label.toList label.toList := Text.occursIn_iff.mpr List.infix_rfl
  cases policy with
  | contains => simpa [accepts] using stands
  | similar percent =>
    have attained : percent ≤ 100 := attainable
    simpa [accepts, stands, similarity_self] using attained

end MatchPolicy
end CatalogGraph.Identity
