import CatalogGraph.Engine.Run
import CatalogGraph.Text.Numeral
import Mathlib.Data.List.Nodup
import Mathlib.Data.List.Perm.Basic
import Mathlib.Logic.Function.Basic

/-!
Numbered blank nodes: what steps add, with the nodes that they mint numbered from nought, can be put
behind each other in any order, up to the numbers.
-/
namespace CatalogGraph

namespace BlankNodes
variable {start : String}

/-- The label of the node of a number. -/
def label (start : String) (n : Nat) : String := start ++ toString n

theorem label_injective : Function.Injective (label start) := by
  intro a b same
  have numerals : toString a = toString b := (String.append_right_inj start).mp same
  exact Text.toString_inj numerals

def minted (b : BlankNodes) : List String := (List.range b.next).map (label b.start)

theorem nodup_minted (b : BlankNodes) : b.minted.Nodup :=
  List.Nodup.map label_injective List.nodup_range

/-- The label with which a node is labelled once the node `i` has the number `number i`. -/
noncomputable def relabel (start : String) (number : Nat → Nat) : String → String :=
  Function.extend (label start) (label start ∘ number) id

@[simp] theorem relabel_label (number : Nat → Nat) (i : Nat) :
    relabel start number (label start i) = label start (number i) :=
  label_injective.extend_apply _ _ i

theorem relabel_comp_label (number : Nat → Nat) :
    relabel start number ∘ label start = label start ∘ number :=
  funext (relabel_label number)

theorem relabel_of_foreign {l : String} (foreign : ¬ ∃ i, label start i = l) (number : Nat → Nat) :
    relabel start number l = l :=
  Function.extend_apply' _ _ _ foreign

theorem relabel_relabel (first second : Nat → Nat) (l : String) :
    relabel start second (relabel start first l) = relabel start (second ∘ first) l := by
  by_cases own : ∃ i, label start i = l
  · obtain ⟨i, rfl⟩ := own
    simp
  · simp only [relabel_of_foreign own]

theorem relabel_id (l : String) : relabel start id l = l := by
  by_cases own : ∃ i, label start i = l
  · obtain ⟨i, rfl⟩ := own
    simp
  · exact relabel_of_foreign own id

end BlankNodes

open BlankNodes
variable {start : String} {k : Nat}

/-- The node, if it is blank, is one of the first `k`. -/
def Term.Below (start : String) (k : Nat) (t : Term) : Prop :=
  ∀ l, t = .blank l → ∃ i < k, l = label start i

theorem Term.below_of_named {t : Term} (named : t.isBlank = false) : t.Below start k := by
  rintro l rfl
  cases named

theorem Term.Below.mono {t : Term} {k' : Nat} (below : t.Below start k) (le : k ≤ k') :
    t.Below start k' := by
  intro l same
  obtain ⟨i, hi, rfl⟩ := below l same
  exact ⟨i, by omega, rfl⟩

theorem Term.renameBlank_renameBlank (t : Term) (first second : Nat → Nat) :
    (t.renameBlank (relabel start first)).renameBlank (relabel start second) =
      t.renameBlank (relabel start (second ∘ first)) := by
  cases t with
  | blank l => exact congrArg Term.blank (relabel_relabel first second l)
  | iri => rfl
  | literal => rfl

theorem Term.renameBlank_congr {t : Term} {first second : Nat → Nat} (below : t.Below start k)
    (same : ∀ i < k, first i = second i) :
    t.renameBlank (relabel start first) = t.renameBlank (relabel start second) := by
  cases t with
  | blank l =>
    obtain ⟨i, hi, rfl⟩ := below l rfl
    simp [renameBlank, same i hi]
  | iri => rfl
  | literal => rfl

theorem Term.renameBlank_id (t : Term) : t.renameBlank (relabel start id) = t := by
  cases t with
  | blank l => exact congrArg Term.blank (relabel_id l)
  | iri => rfl
  | literal => rfl

theorem Term.Below.renumber {t : Term} {number : Nat → Nat} {k' : Nat} (below : t.Below start k)
    (le : ∀ i < k, number i < k') : (t.renameBlank (relabel start number)).Below start k' := by
  cases t with
  | blank l =>
    obtain ⟨i, hi, rfl⟩ := below l rfl
    rintro _ ⟨⟩
    exact ⟨number i, le i hi, by simp⟩
  | iri => exact below_of_named rfl
  | literal => exact below_of_named rfl

namespace Triple

/-- The statement in which the node `i` has the number `number i`. -/
noncomputable def renumber (start : String) (number : Nat → Nat) (x : Triple) : Triple :=
  x.mapNodes (Term.renameBlank (relabel start number))

/-- The blank nodes of a statement are among the first `k`. -/
def Below (start : String) (k : Nat) (x : Triple) : Prop :=
  x.subject.Below start k ∧ x.object.Below start k

theorem Below.mono {x : Triple} {k' : Nat} (below : x.Below start k) (le : k ≤ k') :
    x.Below start k' :=
  ⟨below.1.mono le, below.2.mono le⟩

theorem Below.renumber {x : Triple} {number : Nat → Nat} {k' : Nat} (below : x.Below start k)
    (le : ∀ i < k, number i < k') : (x.renumber start number).Below start k' :=
  ⟨Term.Below.renumber below.1 le, Term.Below.renumber below.2 le⟩

theorem renumber_renumber (first second : Nat → Nat) (x : Triple) :
    (x.renumber start first).renumber start second = x.renumber start (second ∘ first) := by
  simp [renumber, mapNodes, Term.renameBlank_renameBlank]

theorem renumber_congr {x : Triple} {first second : Nat → Nat} (below : x.Below start k)
    (same : ∀ i < k, first i = second i) : x.renumber start first = x.renumber start second := by
  simp [renumber, mapNodes, Term.renameBlank_congr below.1 same,
    Term.renameBlank_congr below.2 same]

theorem renumber_id (x : Triple) : x.renumber start id = x := by
  simp [renumber, mapNodes, Term.renameBlank_id]

end Triple

namespace Engine

/-- What steps add to a run. -/
@[ext]
structure Growth where
  added : List Triple := []
  minted : Nat := 0
  rows : Nat := 0
  skipped : Nat := 0

namespace Growth

/-- The statements with the node `i` numbered `number i`. -/
noncomputable def statements (start : String) (number : Nat → Nat) (g : Growth) : List Triple :=
  g.added.map (Triple.renumber start number)

instance : Append Growth where
  append g h := {
    added := g.added ++ h.added
    minted := g.minted + h.minted
    rows := g.rows + h.rows
    skipped := g.skipped + h.skipped }

/-- What is added if `n` nodes were minted before. -/
noncomputable def placed (start : String) (n : Nat) (g : Growth) : Growth :=
  { g with added := g.statements start (n + ·) }

/-- What is added if the nodes of `h` are minted behind those of `g`. -/
noncomputable def followedBy (start : String) (g h : Growth) : Growth :=
  g ++ h.placed start g.minted

/-- What is added one after another. -/
noncomputable def total (start : String) : List Growth → Growth
  | [] => {}
  | g :: rest => g.followedBy start (total start rest)

/-- Blank nodes of the statements are minted. -/
def Closed (start : String) (g : Growth) : Prop := ∀ x ∈ g.added, x.Below start g.minted

variable {g h : Growth}

theorem statements_congr {first second : Nat → Nat} (closed : g.Closed start)
    (same : ∀ i < g.minted, first i = second i) :
    g.statements start first = g.statements start second :=
  List.map_congr_left fun x hx => Triple.renumber_congr (closed x hx) same

theorem statements_id (g : Growth) : g.statements start id = g.added :=
  (List.map_congr_left fun x _ => Triple.renumber_id x).trans (List.map_id _)

theorem map_renumber_statements (first second : Nat → Nat) (g : Growth) :
    (g.statements start first).map (Triple.renumber start second) =
      g.statements start (second ∘ first) := by
  simp [statements, Triple.renumber_renumber]

theorem added_followedBy (g h : Growth) :
    (g.followedBy start h).added = g.added ++ h.statements start (g.minted + ·) := rfl

theorem minted_followedBy (g h : Growth) :
    (g.followedBy start h).minted = g.minted + h.minted := rfl

theorem statements_followedBy (number : Nat → Nat) (g h : Growth) :
    (g.followedBy start h).statements start number =
      g.statements start number ++ h.statements start fun i => number (g.minted + i) := by
  have later : (h.statements start (g.minted + ·)).map (Triple.renumber start number) =
      h.statements start fun i => number (g.minted + i) := map_renumber_statements _ _ h
  rw [← later]
  exact List.map_append

theorem Closed.followedBy (closed : g.Closed start) (closed' : h.Closed start) :
    (g.followedBy start h).Closed start := by
  intro x hx
  rcases List.mem_append.mp hx with hx | hx
  · exact (closed x hx).mono (Nat.le_add_right _ _)
  · obtain ⟨y, hy, rfl⟩ := List.mem_map.mp hx
    exact (closed' y hy).renumber fun i hi => Nat.add_lt_add_left hi _

theorem closed_total {growths : List Growth} (closed : ∀ g ∈ growths, g.Closed start) :
    (total start growths).Closed start := by
  induction growths with
  | nil => exact fun _ none => by cases none
  | cons g rest ih => exact (closed g (by simp)).followedBy (ih fun g hg => closed g (by simp [hg]))

theorem followedBy_assoc (f g h : Growth) :
    (f.followedBy start g).followedBy start h = f.followedBy start (g.followedBy start h) := by
  have later := @statements_followedBy start (f.minted + ·) g h
  ext1
  · simp only [added_followedBy, later, List.append_assoc]
    simp only [minted_followedBy, Nat.add_assoc]
  all_goals exact Nat.add_assoc _ _ _

theorem followedBy_nil (g : Growth) : g.followedBy start {} = g := by
  ext1
  · exact List.append_nil _
  all_goals exact Nat.add_zero _

theorem placed_nought (g : Growth) : g.placed start 0 = g := by
  have kept : (fun i => 0 + i) = (id : Nat → Nat) := funext Nat.zero_add
  ext1
  · rw [placed, kept, statements_id]
  all_goals rfl

theorem placed_followedBy (n : Nat) (g h : Growth) :
    (g.followedBy start h).placed start n =
      g.placed start n ++ h.placed start (n + g.minted) := by
  have later := @statements_followedBy start (n + ·) g h
  simp only [← Nat.add_assoc] at later
  ext1
  · exact later
  all_goals rfl

theorem nil_followedBy (g : Growth) : ({} : Growth).followedBy start g = g := by
  rw [followedBy, show ({} : Growth).minted = 0 from rfl, placed_nought]
  ext1
  · exact List.nil_append _
  all_goals exact Nat.zero_add _

theorem total_append (first second : List Growth) :
    total start (first ++ second) =
      (total start first).followedBy start (total start second) := by
  induction first with
  | nil => exact (nil_followedBy _).symm
  | cons g rest ih => rw [List.cons_append, total, ih, total, followedBy_assoc]

/-- Two growths are the same up to the order of statements and the numbers of nodes: `number` gives
every number once. -/
structure Renumbered (start : String) (number : Nat → Nat) (g h : Growth) : Prop where
  minted : ((List.range g.minted).map number).Perm (List.range h.minted)
  added : (g.statements start number).Perm h.added
  rows : g.rows = h.rows
  skipped : g.skipped = h.skipped

theorem Renumbered.refl (g : Growth) : Renumbered start id g g :=
  ⟨by simp, by rw [statements_id], rfl, rfl⟩

theorem Renumbered.trans {f : Growth} {number number' : Nat → Nat}
    (first : Renumbered start number f g) (second : Renumbered start number' g h) :
    Renumbered start (number' ∘ number) f h := by
  refine ⟨?_, ?_, first.rows.trans second.rows, first.skipped.trans second.skipped⟩
  · rw [← List.map_map]
    exact (first.minted.map number').trans second.minted
  · rw [← map_renumber_statements]
    exact (first.added.map _).trans second.added

/-- Each label of two growths stands for one of the growth that they make up together. -/
theorem Renumbered.labels_of_followedBy {whole : Growth} {number : Nat → Nat}
    (renumbered : Renumbered start number (g.followedBy start h) whole) :
    (((List.range g.minted).map (label start)).map (relabel start number) ++
      ((List.range h.minted).map (label start)).map
        (relabel start fun i => number (g.minted + i))).Perm
      ((List.range whole.minted).map (label start)) := by
  have minted := renumbered.minted
  rw [minted_followedBy, List.range_add, List.map_append, List.map_map] at minted
  have labels := minted.map (label start)
  rw [List.map_append, List.map_map, List.map_map] at labels
  simp only [List.map_map, relabel_comp_label]
  exact labels

theorem Renumbered.added_of_followedBy {whole : Growth} {number : Nat → Nat}
    (renumbered : Renumbered start number (g.followedBy start h) whole) :
    (g.statements start number ++ h.statements start fun i => number (g.minted + i)).Perm
      whole.added := by
  have added := renumbered.added
  rw [statements_followedBy] at added
  exact added

/-- The numbers behind the first `n` are changed only. -/
def behind (n : Nat) (number : Nat → Nat) (i : Nat) : Nat :=
  if i < n then i else n + number (i - n)

theorem Renumbered.behind {number : Nat → Nat} (f : Growth) (closed : f.Closed start)
    (renumbered : Renumbered start number g h) :
    Renumbered start (behind f.minted number) (f.followedBy start g) (f.followedBy start h) := by
  have kept : ∀ i < f.minted, Growth.behind f.minted number i = i := fun i hi => if_pos hi
  have moved (i : Nat) : Growth.behind f.minted number (f.minted + i) = f.minted + number i := by
    unfold Growth.behind
    rw [if_neg (by omega), Nat.add_sub_cancel_left]
  refine ⟨?_, ?_, congrArg (f.rows + ·) renumbered.rows,
    congrArg (f.skipped + ·) renumbered.skipped⟩
  · have first : (List.range f.minted).map (Growth.behind f.minted number) = List.range f.minted :=
      (List.map_congr_left fun i hi => kept i (List.mem_range.mp hi)).trans (List.map_id _)
    have second := renumbered.minted.map (f.minted + ·)
    rw [List.map_map] at second
    simp only [minted_followedBy, List.range_add, List.map_append, List.map_map, first]
    simp only [Function.comp_def, moved] at second ⊢
    exact second.append_left _
  · have first : f.statements start (Growth.behind f.minted number) = f.added :=
      (statements_congr closed kept).trans (statements_id f)
    have second := renumbered.added.map (Triple.renumber start (f.minted + ·))
    rw [map_renumber_statements] at second
    rw [statements_followedBy, first]
    simp only [moved]
    exact second.append_left _

/-- The numbers of the first `n` and of the `m` behind them change places. -/
def exchange (n m i : Nat) : Nat :=
  if i < n then m + i else if i < n + m then i - n else i

theorem Renumbered.exchange (closed : g.Closed start) (closed' : h.Closed start) (rest : Growth) :
    Renumbered start (exchange g.minted h.minted)
      (g.followedBy start (h.followedBy start rest))
      (h.followedBy start (g.followedBy start rest)) := by
  have first : ∀ i < g.minted, Growth.exchange g.minted h.minted i = h.minted + i :=
    fun i hi => if_pos hi
  have second : ∀ i < h.minted, Growth.exchange g.minted h.minted (g.minted + i) = i := by
    intro i hi
    unfold Growth.exchange
    rw [if_neg (by omega), if_pos (by omega), Nat.add_sub_cancel_left]
  have third (i : Nat) : Growth.exchange g.minted h.minted (g.minted + (h.minted + i)) =
      h.minted + (g.minted + i) := by
    unfold Growth.exchange
    rw [if_neg (by omega), if_neg (by omega)]
    omega
  refine ⟨?_, ?_, Nat.add_left_comm _ _ _, Nat.add_left_comm _ _ _⟩
  · have ahead : (List.range g.minted).map (Growth.exchange g.minted h.minted) =
        (List.range g.minted).map (h.minted + ·) :=
      List.map_congr_left fun i hi => first i (List.mem_range.mp hi)
    have back : (List.range h.minted).map
        (Growth.exchange g.minted h.minted ∘ (g.minted + ·)) = List.range h.minted :=
      (List.map_congr_left fun i hi => second i (List.mem_range.mp hi)).trans (List.map_id _)
    simp only [minted_followedBy, List.range_add, List.map_append, List.map_map, ahead, back]
    simp only [Function.comp_def, third]
    exact List.perm_append_comm_assoc _ _ _
  · have ahead := statements_congr closed first
    have back : (h.statements start fun i => Growth.exchange g.minted h.minted (g.minted + i)) =
        h.added := (statements_congr closed' second).trans (statements_id h)
    rw [added_followedBy]
    simp only [statements_followedBy, ahead, back, third]
    exact List.perm_append_comm_assoc _ _ _

/-- Growths may be put behind each other in any order. -/
theorem total_perm {first second : List Growth} (perm : first.Perm second)
    (closed : ∀ g ∈ first, g.Closed start) :
    ∃ number, Renumbered start number (total start first) (total start second) := by
  induction perm with
  | nil => exact ⟨id, .refl _⟩
  | cons g _ ih =>
    obtain ⟨number, renumbered⟩ := ih fun g hg => closed g (by simp [hg])
    exact ⟨_, renumbered.behind g (closed g (by simp))⟩
  | swap g h rest => exact ⟨_, .exchange (closed h (by simp)) (closed g (by simp)) _⟩
  | trans perm _ ih ih' =>
    obtain ⟨_, first⟩ := ih closed
    obtain ⟨_, second⟩ := ih' fun g hg => closed g (perm.mem_iff.mpr hg)
    exact ⟨_, first.trans second⟩

end Growth
end Engine
end CatalogGraph
