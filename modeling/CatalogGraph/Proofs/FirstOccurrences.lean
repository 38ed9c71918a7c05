import Mathlib.Data.List.Induction
import Mathlib.Data.List.Nodup

/-!
First occurrences: lists of which later repeats are dropped. Repeats may be dropped at any time
before or after the items are replaced by others.
-/
namespace CatalogGraph
variable {α β : Type} [BEq α] [LawfulBEq α] [BEq β] [LawfulBEq β]

theorem nodup_eraseDups (xs : List α) : xs.eraseDups.Nodup := by
  match xs with
  | [] => simp
  | x :: rest =>
    rw [List.eraseDups_cons, List.nodup_cons]
    refine ⟨?_, nodup_eraseDups _⟩
    intro again
    simp [List.mem_eraseDups] at again
termination_by xs.length
decreasing_by
  have := List.length_filter_le (fun y => !y == x) rest
  simp only [List.length_cons]
  omega

theorem eraseDups_concat (xs : List α) (x : α) :
    (xs ++ [x]).eraseDups = if x ∈ xs then xs.eraseDups else xs.eraseDups ++ [x] := by
  rw [List.eraseDups_append]
  by_cases known : x ∈ xs <;> simp [List.removeAll, List.eraseDups_cons, known]

theorem removeAll_eq_nil_iff {xs ys : List α} : ys.removeAll xs = [] ↔ ys ⊆ xs := by
  simp [List.removeAll, List.subset_def]

theorem eraseDups_append_of_subset {xs ys : List α} (known : ys ⊆ xs) :
    (xs ++ ys).eraseDups = xs.eraseDups := by
  simp [List.eraseDups_append, removeAll_eq_nil_iff.mpr known]

theorem length_eraseDups_append_eq_iff {xs ys : List α} :
    (xs ++ ys).eraseDups.length = xs.eraseDups.length ↔ ys ⊆ xs := by
  constructor
  · intro same
    rw [List.eraseDups_append, List.length_append, Nat.add_eq_left, List.length_eq_zero_iff] at same
    rw [← removeAll_eq_nil_iff, ← List.isEmpty_iff]
    by_contra fresh
    obtain ⟨y, hy⟩ := List.exists_mem_of_ne_nil _ (by simpa using fresh)
    have kept : y ∈ (ys.removeAll xs).eraseDups := List.mem_eraseDups.mpr hy
    simp [same] at kept
  · intro known
    rw [eraseDups_append_of_subset known]

theorem eraseDups_of_nodup {xs : List α} (nodup : xs.Nodup) : xs.eraseDups = xs := by
  induction xs with
  | nil => rfl
  | cons x rest ih =>
    obtain ⟨fresh, nodup⟩ := List.nodup_cons.mp nodup
    have kept : rest.filter (fun y => !y == x) = rest := by
      rw [List.filter_eq_self]
      intro y hy
      have other : y ≠ x := fun same => fresh (same ▸ hy)
      simpa using other
    rw [List.eraseDups_cons, kept, ih nodup]

theorem eraseDups_eraseDups (xs : List α) : xs.eraseDups.eraseDups = xs.eraseDups :=
  eraseDups_of_nodup (nodup_eraseDups xs)

theorem eraseDups_filter (p : α → Bool) (xs : List α) :
    (xs.filter p).eraseDups = xs.eraseDups.filter p := by
  induction xs using List.reverseRecOn with
  | nil => simp
  | append_singleton xs x ih =>
    rw [List.filter_append, eraseDups_concat]
    cases passed : p x <;> by_cases known : x ∈ xs <;>
      simp [passed, known, ih, eraseDups_concat]

theorem eraseDups_append_congr {xs xs' ys ys' : List α} (first : xs.eraseDups = xs'.eraseDups)
    (second : ys.eraseDups = ys'.eraseDups) :
    (xs ++ ys).eraseDups = (xs' ++ ys').eraseDups := by
  have same (y : α) : xs.elem y = xs'.elem y := by
    rw [Bool.eq_iff_iff, List.elem_iff, List.elem_iff, ← List.mem_eraseDups, first,
      List.mem_eraseDups]
  simp only [List.eraseDups_append, List.removeAll, eraseDups_filter, first, second, same]

theorem eraseDups_flatMap_eraseDups (f : α → List β) (xs : List α) :
    (xs.eraseDups.flatMap f).eraseDups = (xs.flatMap f).eraseDups := by
  induction xs using List.reverseRecOn with
  | nil => simp
  | append_singleton xs x ih =>
    rw [eraseDups_concat, List.flatMap_append, List.flatMap_singleton]
    split
    next known =>
      have replaced : f x ⊆ xs.flatMap f :=
        fun y hy => List.mem_flatMap.mpr ⟨x, known, hy⟩
      rw [ih, eraseDups_append_of_subset replaced]
    next =>
      rw [List.flatMap_append, List.flatMap_singleton]
      exact eraseDups_append_congr ih rfl

omit [BEq α] [LawfulBEq α] in
theorem eraseDups_flatMap_congr {f g : α → List β} {xs : List α}
    (same : ∀ x ∈ xs, (f x).eraseDups = (g x).eraseDups) :
    (xs.flatMap f).eraseDups = (xs.flatMap g).eraseDups := by
  induction xs with
  | nil => rfl
  | cons x rest ih =>
    exact eraseDups_append_congr (same x (by simp)) (ih fun y hy => same y (by simp [hy]))

omit [BEq α] [LawfulBEq α] in
theorem eraseDups_flatMap_of_disjoint {f : α → List β} {xs : List α}
    (disjoint : xs.Pairwise fun x y => (f x).Disjoint (f y)) :
    (xs.flatMap f).eraseDups = xs.flatMap fun x => (f x).eraseDups := by
  induction xs with
  | nil => simp
  | cons x rest ih =>
    obtain ⟨apart, disjoint⟩ := List.pairwise_cons.mp disjoint
    have kept : (rest.flatMap f).removeAll (f x) = rest.flatMap f := by
      rw [List.removeAll, List.filter_eq_self]
      intro b hb
      obtain ⟨y, hy, hb⟩ := List.mem_flatMap.mp hb
      have fresh : b ∉ f x := fun known => apart y hy known hb
      simpa using fresh
    rw [List.flatMap_cons, List.flatMap_cons, List.eraseDups_append, kept, ih disjoint]

end CatalogGraph
