import CatalogGraph.Graph.Basic
import CatalogGraph.Text.Numeral
import Mathlib.Data.List.TakeWhile
import Mathlib.Logic.Function.Basic

/-!
Scoped graphs: graphs that are merged one after another, the blank nodes of each with the scope of
its place in front of their labels. The place can be read back from a label, so that nodes of
different graphs stay apart whatever their labels are.
-/
namespace CatalogGraph

/-- A key that has a value keeps it, and another one gets the value that is written for it. -/
theorem Entries.get?_insertNew {α : Type} (key other : String) (value : α) (entries : Entries α) :
    Entries.get? other (entries.insertNew key value) =
      (entries.get? other).or (if other = key then some value else none) := by
  unfold Entries.insertNew Entries.contains
  split
  next known =>
    obtain ⟨old, found⟩ := Option.isSome_iff_exists.mp known
    split
    next same => rw [same, found]; rfl
    next => rw [Option.or_none]
  next fresh =>
    rw [Entries.get?_insert]
    split
    next same =>
      rw [Option.not_isSome_iff_eq_none] at fresh
      rw [same, fresh, Option.none_or]
    next => rw [Option.or_none]

theorem Entries.get?_foldl_insertNew {α : Type} (key : String) (added entries : Entries α) :
    Entries.get? key (added.foldl (fun acc entry => acc.insertNew entry.1 entry.2) entries) =
      (entries.get? key).or (added.get? key) := by
  induction added generalizing entries with
  | nil => rw [List.foldl_nil, Entries.get?, Option.or_none]
  | cons entry rest ih =>
    rw [List.foldl_cons, ih, Entries.get?_insertNew, Option.or_assoc, Entries.get?]
    split
    next => rfl
    next => rw [Option.none_or]

namespace Graph
variable {lead : String} {m n : Nat}

/-- What stands in front of the labels of the graph in a place. -/
def scope (lead : String) (n : Nat) : String := lead ++ toString n ++ "_"

/-- A term of the graph in a place as it stands in the whole. -/
def scopedTerm (lead : String) (n : Nat) : Term → Term := Term.renameBlank (scope lead n ++ ·)

/-- Adds graphs to a whole in order, each with the scope of its place. -/
def mergePlaced (lead : String) (whole : Graph) (placed : List (Graph × Nat)) : Graph :=
  placed.foldl (fun whole x => whole.mergeScoped x.1 (scope lead x.2)) whole

/-- A label with a scope in front tells the place and the label. -/
theorem scope_append_inj {a b : String} (same : scope lead m ++ a = scope lead n ++ b) :
    m = n ∧ a = b := by
  -- the digits end before the line, so that the number can be read back
  have digits (n : Nat) : ∀ c ∈ (toString n).toList, c.isDigit = true := by
    intro c hc
    have written : (toString n).toList = Nat.toDigits 10 n := Nat.toList_repr
    rw [written] at hc
    exact Nat.isDigit_of_mem_toDigits (by omega) (by omega) hc
  have number (n : Nat) (label : String) :
      ((scope lead n ++ label).toList.drop lead.toList.length).takeWhile Char.isDigit =
        (toString n).toList := by
    have spelled : (scope lead n ++ label).toList.drop lead.toList.length =
        (toString n).toList ++ '_' :: label.toList := by simp [scope]
    rw [spelled, List.takeWhile_append_of_pos (digits n)]
    simp
  have numbers : m = n := by
    refine Text.toString_inj (String.toList_inj.mp ?_)
    rw [← number m a, same, number n b]
  subst numbers
  exact ⟨rfl, (String.append_right_inj _).mp same⟩

theorem scopedTerm_blank_inj {a b : String}
    (same : scopedTerm lead m (.blank a) = scopedTerm lead n (.blank b)) : m = n ∧ a = b :=
  scope_append_inj (Term.blank.inj same)

theorem scopedTerm_injective (lead : String) (n : Nat) :
    Function.Injective (scopedTerm lead n) := by
  intro s t same
  cases s <;> cases t <;> simp_all [scopedTerm, Term.renameBlank, String.append_right_inj]

theorem triples_mergePlaced (lead : String) (whole : Graph) (placed : List (Graph × Nat)) :
    (mergePlaced lead whole placed).triples =
      whole.triples ++
        placed.flatMap fun x => x.1.triples.map (Triple.mapNodes (scopedTerm lead x.2)) := by
  induction placed generalizing whole with
  | nil => exact (List.append_nil _).symm
  | cons x rest ih =>
    rw [mergePlaced, List.foldl_cons, ← mergePlaced, ih, List.flatMap_cons, ← List.append_assoc]
    rfl

/-- A prefix keeps the namespace that it has first. -/
theorem get?_prefixes_mergePlaced (lead : String) (whole : Graph) (placed : List (Graph × Nat))
    (name : String) :
    (mergePlaced lead whole placed).prefixes.get? name =
      (whole.prefixes.get? name).or (placed.findSome? fun x => x.1.prefixes.get? name) := by
  induction placed generalizing whole with
  | nil => exact (Option.or_none).symm
  | cons x rest ih =>
    rw [mergePlaced, List.foldl_cons, ← mergePlaced, ih, mergeScoped, Entries.get?_foldl_insertNew,
      Option.or_assoc, List.findSome?_cons]
    cases x.1.prefixes.get? name <;> rfl

end Graph
end CatalogGraph
