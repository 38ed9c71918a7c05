import CatalogGraph.Proofs.BlankNumbers
import Mathlib.Data.List.Pairwise

/-!
Nodes of values: an allocator gives every node a number of its own, and a value the node that it
has already. So two calls give one node exactly if both are for the same value.
-/
namespace CatalogGraph.BlankNodes

/-- What an allocator is asked for. -/
inductive Call where
  | fresh
  | forValue (value : String)
deriving DecidableEq, Repr

/-- The node that a call gives, and the allocator after it. -/
def Call.run (b : BlankNodes) : Call → Term × BlankNodes
  | .fresh => b.fresh
  | .forValue value => b.forValue value

/-- Calls in turn, each with the node that it gives. -/
def given : BlankNodes → List Call → List (Call × Term)
  | _, [] => []
  | b, call :: rest => (call, (call.run b).1) :: given (call.run b).2 rest

/-- Both calls are for one value. -/
def SameValue (first second : Call) : Prop :=
  ∃ value, first = .forValue value ∧ second = .forValue value

/-- Two calls have got one node exactly if both are for one value. -/
def NodesApart (first second : Call × Term) : Prop :=
  first.2 = second.2 ↔ SameValue first.1 second.1

instance : Std.Symm NodesApart where
  symm first second apart := by
    have turned : SameValue first.1 second.1 ↔ SameValue second.1 first.1 :=
      exists_congr fun _ => and_comm
    exact eq_comm.trans (apart.trans turned)

/-- The nodes of past calls have numbers that were given out, and the allocator knows them for the
values that were asked for. -/
structure Remembers (b : BlankNodes) (past : List (Call × Term)) : Prop where
  numbered : ∀ entry ∈ past, ∃ n < b.next, entry.2 = .blank (label b.start n)
  recorded : ∀ value node,
    b.byValue.get? value = some node ↔ (.forValue value, node) ∈ past
  apart : past.Pairwise NodesApart

section Steps
variable {b : BlankNodes} {past : List (Call × Term)}

theorem Remembers.ne_next (remembers : b.Remembers past) {entry : Call × Term}
    (mem : entry ∈ past) : entry.2 ≠ .blank (label b.start b.next) := by
  obtain ⟨n, bound, node⟩ := remembers.numbered entry mem
  rw [node]
  intro same
  have number : n = b.next := label_injective (Term.blank.inj same)
  omega

/-- A node with the next number goes to a call that no past call shares a value with. -/
theorem Remembers.next (remembers : b.Remembers past) {call : Call}
    (other : ∀ entry ∈ past, ¬ SameValue entry.1 call) {byValue : Entries Term}
    (recorded : ∀ value node, byValue.get? value = some node ↔
      (.forValue value, node) ∈ past ++ [(call, .blank (label b.start b.next))]) :
    Remembers { b with next := b.next + 1, byValue }
      (past ++ [(call, .blank (label b.start b.next))]) where
  numbered entry mem := by
    rcases List.mem_append.mp mem with before | last
    · obtain ⟨n, bound, node⟩ := remembers.numbered entry before
      exact ⟨n, Nat.lt_succ_of_lt bound, node⟩
    · rw [List.mem_singleton.mp last]
      exact ⟨b.next, Nat.lt_succ_self _, rfl⟩
  recorded := recorded
  apart := by
    refine List.pairwise_append.mpr ⟨remembers.apart, List.pairwise_singleton _ _, ?_⟩
    intro entry mem last isLast
    rw [List.mem_singleton.mp isLast]
    exact iff_of_false (remembers.ne_next mem) (other entry mem)

theorem Remembers.fresh (remembers : b.Remembers past) :
    b.fresh.2.Remembers (past ++ [(.fresh, b.fresh.1)]) := by
  refine remembers.next (fun entry _ => ?_) fun value node => ?_
  · rintro ⟨value, -, same⟩
    cases same
  · rw [List.mem_append, remembers.recorded]
    simp

/-- The node of a value that has one is given again, and to no call for anything else. -/
theorem Remembers.again (remembers : b.Remembers past) {value : String} {node : Term}
    (known : b.byValue.get? value = some node) :
    b.Remembers (past ++ [(.forValue value, node)]) where
  numbered entry mem := by
    rcases List.mem_append.mp mem with before | last
    · exact remembers.numbered entry before
    · rw [List.mem_singleton.mp last]
      exact remembers.numbered _ ((remembers.recorded value node).mp known)
  recorded other otherNode := by
    rw [List.mem_append, remembers.recorded, List.mem_singleton]
    refine ⟨.inl, fun mem => mem.elim id fun same => ?_⟩
    rw [same]
    exact (remembers.recorded value node).mp known
  apart := by
    refine List.pairwise_append.mpr ⟨remembers.apart, List.pairwise_singleton _ _, ?_⟩
    intro entry mem last isLast
    rw [List.mem_singleton.mp isLast]
    have first := (remembers.recorded value node).mp known
    by_cases same : entry = (.forValue value, node)
    · rw [same]
      exact iff_of_true rfl ⟨value, rfl, rfl⟩
    · exact remembers.apart.forall mem first same

theorem Remembers.forValue (remembers : b.Remembers past) (value : String) :
    (b.forValue value).2.Remembers (past ++ [(.forValue value, (b.forValue value).1)]) := by
  unfold BlankNodes.forValue
  split
  next node known => exact remembers.again known
  next unknown =>
    refine remembers.next ?_ fun other node => ?_
    · rintro ⟨call, node⟩ mem ⟨_, rfl, same⟩
      obtain rfl := Call.forValue.inj same
      rw [(remembers.recorded _ node).mpr mem] at unknown
      cases unknown
    · rw [Entries.get?_insert, List.mem_append, ← remembers.recorded]
      by_cases same : other = value
      · subst same
        simp [unknown, BlankNodes.fresh, label, eq_comm]
      · simp [same, BlankNodes.fresh]

theorem Remembers.run (remembers : b.Remembers past) (call : Call) :
    (call.run b).2.Remembers (past ++ [(call, (call.run b).1)]) := by
  cases call with
  | fresh => exact remembers.fresh
  | forValue value => exact remembers.forValue value

theorem Remembers.pairwise_given (remembers : b.Remembers past) (calls : List Call) :
    (past ++ given b calls).Pairwise NodesApart := by
  induction calls generalizing b past with
  | nil =>
    rw [given, List.append_nil]
    exact remembers.apart
  | cons call rest ih =>
    have onward := ih (remembers.run call)
    rw [List.append_assoc] at onward
    exact onward

end Steps

theorem map_given (b : BlankNodes) (calls : List Call) : (given b calls).map (·.1) = calls := by
  induction calls generalizing b with
  | nil => rfl
  | cons call rest ih => rw [given, List.map_cons, ih]

/-- Whatever an allocator is asked for in turn, two calls give one node exactly if both are for the
same value. So a fresh node is given once, also where a value looks like its label. -/
theorem same_node_iff_same_value (start : String) (calls : List Call) :
    (given { start } calls).map (·.1) = calls ∧
    (given { start } calls).Pairwise
      (fun first second => first.2 = second.2 ↔ SameValue first.1 second.1) ∧
    ∀ before node behind, given { start } calls = before ++ (.fresh, node) :: behind →
      node ∉ (before ++ behind).map (·.2) := by
  have remembers : Remembers { start } [] := ⟨nofun, fun _ _ => iff_of_false nofun nofun, .nil⟩
  have apart := remembers.pairwise_given calls
  refine ⟨map_given _ calls, apart, ?_⟩
  intro before node behind whole mem
  rw [List.nil_append, whole, List.pairwise_append] at apart
  obtain ⟨entry, among, same⟩ := List.mem_map.mp mem
  rcases List.mem_append.mp among with earlier | later
  · obtain ⟨value, -, fresh⟩ := (apart.2.2 entry earlier _ List.mem_cons_self).mp same
    cases fresh
  · obtain ⟨value, fresh, -⟩ := ((List.pairwise_cons.mp apart.2.1).1 entry later).mp same.symm
    cases fresh

example : (given { start := "b" } [.fresh, .forValue "b0", .forValue "a", .fresh,
    .forValue "b0"]).map (·.2) =
      [.blank "b0", .blank "b1", .blank "b2", .blank "b3", .blank "b1"] := by decide

end CatalogGraph.BlankNodes
