import CatalogGraph.Entries
import Mathlib.Data.String.Basic

/-!
Keys of entries: entering a pair keeps the keys in ascending order, so that each key leads to one
value, the one that was entered last.
-/
namespace CatalogGraph.Entries
variable {α β : Type} {key : String} {value : α} {entry : String × α}
  {pairs : List (String × α)} {entries : Entries α}

theorem mem_insert (mem : entry ∈ entries.insert key value) :
    entry = (key, value) ∨ entry ∈ entries := by
  induction entries with
  | nil => simpa [insert] using mem
  | cons first rest ih => grind [insert]

theorem ascending_insert (value : α)
    (ascending : entries.Pairwise fun entry other => entry.1 < other.1) :
    (entries.insert key value).Pairwise fun entry other => entry.1 < other.1 := by
  induction entries with
  | nil => simp [insert]
  | cons entry rest ih =>
    obtain ⟨first, later⟩ := List.pairwise_cons.mp ascending
    rw [insert]
    split
    next before =>
      refine List.pairwise_cons.mpr
        ⟨List.forall_mem_cons.mpr ⟨before, fun other mem => ?_⟩, ascending⟩
      exact String.lt_trans before (first other mem)
    next notBefore =>
      split
      next same => exact List.pairwise_cons.mpr ⟨same ▸ first, later⟩
      next other =>
        have behind : entry.1 < key :=
          ((Std.lt_trichotomy key entry.1).resolve_left notBefore).resolve_left other
        refine List.pairwise_cons.mpr ⟨fun other mem => ?_, ih later⟩
        rcases mem_insert mem with rfl | mem
        · exact behind
        · exact first other mem

theorem ascending_insertAll (pairs : List (String × α))
    (ascending : entries.Pairwise fun entry other => entry.1 < other.1) :
    (entries.insertAll pairs).Pairwise fun entry other => entry.1 < other.1 :=
  List.foldlRecOn pairs _ ascending fun _ ascending pair _ => ascending_insert pair.2 ascending

theorem ascending_ofPairs (pairs : List (String × α)) :
    (ofPairs pairs).Pairwise fun entry other => entry.1 < other.1 :=
  ascending_insertAll pairs .nil

theorem mem_insertAll (mem : entry ∈ entries.insertAll pairs) :
    entry ∈ pairs ∨ entry ∈ entries := by
  induction pairs generalizing entries with
  | nil => exact .inr mem
  | cons pair rest ih =>
    rcases ih mem with mem | mem
    · exact .inl (List.mem_cons_of_mem _ mem)
    · rcases mem_insert mem with rfl | mem
      · exact .inl List.mem_cons_self
      · exact .inr mem

/-- In keys that ascend, a value is found under its key. -/
theorem get?_eq_some_iff (ascending : entries.Pairwise fun entry other => entry.1 < other.1) :
    entries.get? key = some value ↔ (key, value) ∈ entries := by
  induction entries with
  | nil => simp [get?]
  | cons entry rest ih =>
    obtain ⟨first, later⟩ := List.pairwise_cons.mp ascending
    rw [get?, List.mem_cons]
    split
    next same =>
      subst same
      constructor
      · intro found
        exact .inl (by rw [← Option.some.inj found])
      · rintro (found | again)
        · rw [← found]
        · exact absurd (first _ again) (String.lt_irrefl _)
    next other =>
      rw [ih later]
      constructor
      · exact .inr
      · rintro (found | mem)
        · exact absurd (congrArg Prod.fst found) other
        · exact mem

theorem get?_eq_none_iff : entries.get? key = none ↔ ∀ entry ∈ entries, entry.1 ≠ key := by
  induction entries with
  | nil => simp [get?]
  | cons entry rest ih =>
    rw [get?, List.forall_mem_cons]
    split
    next same => simp [same]
    next other => rw [ih, and_iff_right (Ne.symm other)]

theorem get?_append (key : String) (entries later : Entries α) :
    Entries.get? key (entries ++ later) = (entries.get? key).or (later.get? key) := by
  induction entries with
  | nil => rfl
  | cons entry rest ih =>
    rw [List.cons_append, get?, get?]
    split
    next => rfl
    next => exact ih

theorem get?_map (f : α → β) (key : String) (entries : Entries α) :
    Entries.get? key (entries.map fun entry => (entry.1, f entry.2)) =
      (entries.get? key).map f := by
  induction entries with
  | nil => rfl
  | cons entry rest ih =>
    rw [List.map_cons, get?, get?]
    split
    next => rfl
    next => exact ih

/-- Of the pairs for a key the last one counts, and what was there if there is none. -/
theorem get?_insertAll (key : String) (pairs : List (String × α)) (entries : Entries α) :
    (entries.insertAll pairs).get? key =
      (Entries.get? key pairs.reverse).or (entries.get? key) := by
  induction pairs generalizing entries with
  | nil => rfl
  | cons pair rest ih =>
    change ((entries.insert pair.1 pair.2).insertAll rest).get? key = _
    rw [ih, List.reverse_cons, get?_append, Option.or_assoc, get?_insert]
    congr 1
    rw [get?, get?]
    split <;> rfl

theorem get?_reverse (key : String)
    (ascending : entries.Pairwise fun entry other => entry.1 < other.1) :
    Entries.get? key entries.reverse = entries.get? key := by
  induction entries with
  | nil => rfl
  | cons entry rest ih =>
    obtain ⟨first, later⟩ := List.pairwise_cons.mp ascending
    rw [List.reverse_cons, get?_append, ih later, get?, get?, get?]
    split
    next same =>
      have absent : Entries.get? key rest = none := by
        refine get?_eq_none_iff.mpr fun other mem again => String.lt_irrefl key ?_
        have behind := first other mem
        rwa [again, ← same] at behind
      rw [absent, Option.none_or]
    next => rw [Option.or_none]

end CatalogGraph.Entries
