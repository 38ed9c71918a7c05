import CatalogGraph.Proofs.WholeStatements

/-!
Requests that load a graph: their statement lines are the lines of the graph, and a store gets the
requests in order up to the first that it refuses, and with them a start of the statements.
-/
namespace CatalogGraph
open NTriples

/-- A term of which nothing breaks a line that is written as it is: no label, language tag or
datatype. -/
def Term.IsUnbroken : Term → Prop
  | .iri _ => True
  | .blank label => Unbroken label.toList
  | .literal l => Unbroken l.datatype.toList ∧ ∀ tag ∈ l.language, Unbroken tag.toList

structure Triple.IsUnbroken (t : Triple) : Prop where
  subject : t.subject.IsUnbroken
  predicate : t.predicate.IsUnbroken
  object : t.object.IsUnbroken

/-- The lines of a request that are set off by two blanks, without these. -/
def statementLines (request : String) : List String :=
  (request.toList.splitOnP isLineEnd).filterMap fun line =>
    (Text.afterStart? [' ', ' '] line).map String.ofList

/-- A request consists of a line that opens braces, statement lines and a line that closes them. -/
def Frames (request : String) (lines : List String) : Prop :=
  request.toList.splitOnP isLineEnd =
    "INSERT DATA \x7b".toList :: (lines.map ([' ', ' '] ++ ·.toList) ++ [['\x7d']])

/-- The number of statements in a full request. -/
def Graph.requestSize (g : Graph) (chunk : Nat) : Nat := if chunk = 0 then g.size else chunk

section Lines

theorem unbroken_suffix {l : Literal} (unbroken : (Term.literal l).IsUnbroken) :
    Unbroken (suffix l).toList := by
  obtain ⟨datatype, language⟩ := unbroken
  unfold suffix
  split
  next tag tagged => simpa using ⟨rfl, language tag tagged⟩
  next =>
    split
    · simp
    · simpa using ⟨rfl, rfl, datatype, rfl⟩

theorem Term.IsUnbroken.render {term : Term} (unbroken : term.IsUnbroken) :
    Unbroken term.render.toList := by
  cases term with
  | iri name => exact (iriRef_escapeIri name).unbroken
  | blank label => simpa [Term.render] using ⟨rfl, rfl, unbroken⟩
  | literal l =>
    rw [Term.render, String.toList_append]
    exact unbroken_append.mpr ⟨(quoted_escapeLiteral l.value).unbroken, unbroken_suffix unbroken⟩

theorem Triple.IsUnbroken.render {t : Triple} (unbroken : t.IsUnbroken) :
    Unbroken t.render.toList := by
  have blank : isLineEnd ' ' = false := rfl
  have stop : isLineEnd '.' = false := rfl
  simp [Triple.render, blank, stop, unbroken.subject.render, unbroken.predicate.render,
    unbroken.object.render]

theorem frames_insertRequest {triples : List Triple} (unbroken : ∀ t ∈ triples, t.IsUnbroken) :
    Frames (insertRequest triples) (triples.map Triple.render) := by
  have opens : Unbroken "INSERT DATA \x7b".toList := by simp [isLineEnd]
  have closes : Unbroken ['\x7d'] := by simp [isLineEnd]
  have lines : ∀ line ∈ triples.map ("  ".toList ++ ·.render.toList), Unbroken line := by
    intro line mem
    obtain ⟨t, listed, rfl⟩ := List.mem_map.mp mem
    exact unbroken_append.mpr ⟨by simp [isLineEnd], (unbroken t listed).render⟩
  have opened : "INSERT DATA \x7b\n".toList = "INSERT DATA \x7b".toList ++ ['\n'] := by simp
  rw [Frames, toList_insertRequest, opened, List.append_assoc, List.singleton_append,
    List.splitOnP_append_cons_of_forall_mem opens _ rfl, splitOnP_unlines_append lines closes]
  simp

theorem Frames.statementLines_eq {request : String} {lines : List String}
    (frames : Frames request lines) : statementLines request = lines := by
  have opens : Text.afterStart? [' ', ' '] "INSERT DATA \x7b".toList = none := by
    simp [Text.afterStart?]
  have closes : Text.afterStart? [' ', ' '] ['\x7d'] = none := by simp [Text.afterStart?]
  have line (s : String) : Text.afterStart? [' ', ' '] ([' ', ' '] ++ s.toList) = some s.toList :=
    Text.afterStart?_eq_some_iff.mpr rfl
  rw [statementLines, frames, List.filterMap_cons, opens, List.filterMap_append,
    List.filterMap_map, List.filterMap_cons, closes]
  simp only [Function.comp_def, line, Option.map_some, Option.map_none, String.ofList_toList,
    List.filterMap_some, List.filterMap_nil, List.append_nil]

end Lines

section Parts
variable {α : Type} {size : Nat} {xs : List α}

theorem chunksOf_nil (size : Nat) : chunksOf size ([] : List α) = [] := by simp [chunksOf]

theorem chunksOf_of_pos (positive : 0 < size) (filled : xs ≠ []) :
    chunksOf size xs = xs.take size :: chunksOf size (xs.drop size) := by
  rw [chunksOf, dif_neg (by simp [filled, Nat.ne_of_gt positive])]

/-- Without a bound all is in one part, as with the bound that the list just reaches. -/
theorem chunksOf_zero (xs : List α) : chunksOf 0 xs = chunksOf xs.length xs := by
  by_cases empty : xs = []
  · rw [empty, chunksOf_nil, chunksOf_nil]
  · rw [chunksOf_of_pos (List.length_pos_iff.mpr empty) empty, List.take_length, List.drop_length,
      chunksOf_nil, chunksOf]
    simp [empty]

/-- Each part has an element and no more than a full one; before the last all parts are full. -/
theorem length_chunksOf (positive : 0 < size) (xs : List α) :
    (∀ part ∈ chunksOf size xs, 0 < part.length ∧ part.length ≤ size) ∧
    ∀ part ∈ (chunksOf size xs).dropLast, part.length = size := by
  induction xs using chunksOf.induct size with
  | case1 => simp [chunksOf_nil]
  | case2 xs stop filled => exact absurd (stop.resolve_left filled) (Nat.ne_of_gt positive)
  | case3 xs stop ih =>
    have filled : xs ≠ [] := fun empty => stop (.inl empty)
    have some : 0 < xs.length := List.length_pos_iff.mpr filled
    rw [chunksOf_of_pos positive filled]
    constructor
    · intro part mem
      rcases List.mem_cons.mp mem with rfl | later
      · rw [List.length_take]
        omega
      · exact ih.1 part later
    · by_cases last : xs.drop size = []
      · simp [last, chunksOf_nil]
      · have more : size < xs.length := by simpa using last
        rw [List.dropLast_cons_of_ne_nil (by rw [chunksOf_of_pos positive last]; simp)]
        intro part mem
        rcases List.mem_cons.mp mem with rfl | later
        · rw [List.length_take]
          omega
        · exact ih.2 part later

/-- The first parts put together are a start of the list. -/
theorem flatten_take_chunksOf (positive : 0 < size) (xs : List α) (n : Nat) :
    ((chunksOf size xs).take n).flatten = xs.take (n * size) := by
  induction n generalizing xs with
  | zero => simp
  | succ n ih =>
    by_cases empty : xs = []
    · simp [empty, chunksOf_nil]
    · rw [chunksOf_of_pos positive empty, List.take_succ_cons, List.flatten_cons, ih,
        Nat.succ_mul, Nat.add_comm, List.take_add]

end Parts

/-- The update requests that a store has got, each with its answer. -/
abbrev Deliveries := List (String × Except RemoteError Unit)

/-- Requests are sent in order until one is refused, which ends the loading with its error. -/
inductive Delivered : List String → Deliveries → Except RemoteError Unit → Prop
  | all (requests : List String) : Delivered requests (requests.map (·, .ok ())) (.ok ())
  | upTo (accepted : List String) (request : String) (later : List String) (cause : RemoteError) :
      Delivered (accepted ++ request :: later)
        (accepted.map (·, .ok ()) ++ [(request, .error cause)]) (.error cause)

section Stores
variable {σ : Type} {requests : List String} {sent : Deliveries} {outcome : Except RemoteError Unit}

theorem Delivered.cons (delivered : Delivered requests sent outcome) (request : String) :
    Delivered (request :: requests) ((request, .ok ()) :: sent) outcome := by
  cases delivered with
  | all => exact .all (request :: requests)
  | upTo accepted refused later cause => exact .upTo (request :: accepted) refused later cause

/-- What a store gets are the first requests. -/
theorem Delivered.received (delivered : Delivered requests sent outcome) :
    sent.map (·.1) = requests.take sent.length := by
  cases delivered with
  | all => simp [Function.comp_def]
  | upTo accepted request later cause =>
    simp [Function.comp_def, List.take_append, List.take_of_length_le]

/-- What a store accepts are the first requests, too. -/
theorem Delivered.accepted (delivered : Delivered requests sent outcome) :
    (sent.filter (·.2.isOk)).map (·.1) = requests.take (sent.filter (·.2.isOk)).length := by
  cases delivered with
  | all => simp [Function.comp_def, List.filter_map, Except.isOk, Except.toBool]
  | upTo accepted request later cause =>
    simp [Function.comp_def, List.filter_map, Except.isOk, Except.toBool]

/-- A store that keeps the update requests that it gets, each with its answer. -/
def TripleStore.logged (store : TripleStore σ) : TripleStore (Deliveries × σ) where
  query text s :=
    let answer := store.query text s.2
    (answer.1, s.1, answer.2)
  update request s :=
    let answer := store.update request s.2
    (answer.1, s.1 ++ [(request, answer.1)], answer.2)

/-- To keep the requests changes nothing about sending them. -/
theorem sendAll_logged (store : TripleStore σ) (requests : List String) (log : Deliveries)
    (s : σ) : ∃ sent,
    store.logged.sendAll requests (log, s) =
      ((store.sendAll requests s).1, log ++ sent, (store.sendAll requests s).2) ∧
    Delivered requests sent (store.sendAll requests s).1 := by
  induction requests generalizing log s with
  | nil => exact ⟨[], by simp [TripleStore.sendAll], .all []⟩
  | cons request rest ih =>
    rcases answer : store.update request s with ⟨cause | _, t⟩
    · refine ⟨[(request, .error cause)], ?_, ?_⟩
      · simp [TripleStore.sendAll, TripleStore.logged, answer]
      · simpa [TripleStore.sendAll, answer] using Delivered.upTo [] request rest cause
    · obtain ⟨sent, same, delivered⟩ := ih (log ++ [(request, .ok ())]) t
      have first : store.sendAll (request :: rest) s = store.sendAll rest t := by
        simp [TripleStore.sendAll, answer]
      have first' : store.logged.sendAll (request :: rest) (log, s) =
          store.logged.sendAll rest (log ++ [(request, .ok ())], t) := by
        simp [TripleStore.sendAll, TripleStore.logged, answer]
      rw [first, first', same, List.append_assoc, List.singleton_append]
      exact ⟨(request, .ok ()) :: sent, rfl, delivered.cons request⟩

end Stores

namespace Graph
variable {g : Graph}

theorem insertRequests_eq (g : Graph) (chunk : Nat) :
    g.insertRequests chunk = (chunksOf (g.requestSize chunk) g.triples).map insertRequest := by
  unfold insertRequests requestSize
  split
  next none => rw [none, chunksOf_zero, size]
  next => rfl

theorem requestSize_pos (filled : g.triples ≠ []) (chunk : Nat) : 0 < g.requestSize chunk := by
  unfold requestSize
  split
  next => exact List.length_pos_iff.mpr filled
  next bounded => exact Nat.pos_of_ne_zero bounded

theorem frames_of_mem (unbroken : ∀ t ∈ g.triples, t.IsUnbroken) {size : Nat}
    {part : List Triple} (within : part ∈ chunksOf size g.triples) :
    Frames (insertRequest part) (part.map Triple.render) :=
  frames_insertRequest fun t mem => unbroken t (mem_of_mem_chunksOf within mem)

theorem statementLines_parts (unbroken : ∀ t ∈ g.triples, t.IsUnbroken) {size : Nat}
    {parts : List (List Triple)} (within : parts ⊆ chunksOf size g.triples) :
    (parts.map insertRequest).flatMap statementLines = parts.flatten.map Triple.render := by
  rw [List.flatMap_map, List.map_flatten, ← List.flatMap_def]
  exact List.flatMap_congr fun part mem => (frames_of_mem unbroken (within mem)).statementLines_eq

/-- The first requests hold the first statements. -/
theorem statementLines_take (unbroken : ∀ t ∈ g.triples, t.IsUnbroken) (chunk n : Nat) :
    ((g.insertRequests chunk).take n).flatMap statementLines =
      (g.triples.take (n * g.requestSize chunk)).map Triple.render := by
  by_cases empty : g.triples = []
  · simp [insertRequests_eq, empty, chunksOf_nil]
  · rw [insertRequests_eq, ← List.map_take, statementLines_parts unbroken (List.take_subset n _),
      flatten_take_chunksOf (requestSize_pos empty chunk)]

/-- The statement lines of the requests are the lines of the graph; all requests but the last are
full. A store gets requests in order up to the first that it refuses: what it has got, and what it
has accepted, are the statements from the first one on. -/
theorem requests_carry_lines_in_order (g : Graph) (chunk : Nat)
    (unbroken : ∀ t ∈ g.triples, t.IsUnbroken) :
    let requests := g.insertRequests chunk
    let size := g.requestSize chunk
    requests.flatMap statementLines = g.lines ∧
    (∀ request ∈ requests, Frames request (statementLines request) ∧
      0 < (statementLines request).length ∧ (statementLines request).length ≤ size) ∧
    (∀ request ∈ requests.dropLast, (statementLines request).length = size) ∧
    (requests = [] ↔ g.triples = []) ∧
    ∀ {σ : Type} (store : TripleStore σ) (s : σ), ∃ sent,
      store.logged.load g chunk ([], s) =
        ((store.load g chunk s).1, sent, (store.load g chunk s).2) ∧
      Delivered requests sent (store.load g chunk s).1 ∧
      sent.flatMap (statementLines ·.1) =
        (g.triples.take (sent.length * size)).map Triple.render ∧
      let accepted := sent.filter (·.2.isOk)
      accepted.flatMap (statementLines ·.1) =
        (g.triples.take (accepted.length * size)).map Triple.render := by
  intro requests size
  have parts : requests = (chunksOf size g.triples).map insertRequest := insertRequests_eq g chunk
  have positive {part : List Triple} (within : part ∈ chunksOf size g.triples) : 0 < size := by
    refine requestSize_pos (fun empty => ?_) chunk
    simp [empty, chunksOf_nil] at within
  have lines {part : List Triple} (within : part ∈ chunksOf size g.triples) :
      statementLines (insertRequest part) = part.map Triple.render :=
    (frames_of_mem unbroken within).statementLines_eq
  have whole : requests.flatMap statementLines = g.lines := by
    rw [parts, statementLines_parts unbroken (List.Subset.refl _), flatten_chunksOf, Graph.lines]
  refine ⟨whole, ?_, ?_, ⟨fun none => ?_, fun empty => ?_⟩, fun store s => ?_⟩
  · rw [parts, List.forall_mem_map]
    intro part within
    rw [lines within, List.length_map]
    exact ⟨frames_of_mem unbroken within, (length_chunksOf (positive within) _).1 part within⟩
  · rw [parts, ← List.map_dropLast, List.forall_mem_map]
    intro part before
    have within := List.dropLast_subset _ before
    rw [lines within, List.length_map]
    exact (length_chunksOf (positive within) _).2 part before
  · rw [none, List.flatMap_nil] at whole
    exact List.map_eq_nil_iff.mp whole.symm
  · rw [parts, empty, chunksOf_nil, List.map_nil]
  · obtain ⟨sent, same, delivered⟩ := sendAll_logged store requests [] s
    refine ⟨sent, same, delivered, ?_, ?_⟩
    · rw [← statementLines_take unbroken, ← delivered.received, List.flatMap_map]
    · intro accepted
      rw [← statementLines_take unbroken, ← delivered.accepted, List.flatMap_map]

/-- A store that takes so many requests and refuses all others. -/
def smallStore : TripleStore Nat where
  query _ room := (.error .unreachable, room)
  update _ room := if room = 0 then (.error .unreachable, 0) else (.ok (), room - 1)

theorem unbroken_forgedMarks : ∀ t ∈ forgedMarks.triples, t.IsUnbroken := by
  have plain (text : String) (all : text.toList.all (!isLineEnd ·) = true) :
      Unbroken text.toList := by
    simpa [Unbroken] using all
  simp only [forgedMarks, ofTriples, List.forall_mem_cons]
  refine ⟨⟨trivial, trivial, plain Vocabulary.xsdString rfl, by simp⟩,
    ⟨plain "a.b" rfl, trivial, plain Vocabulary.rdfLangString rfl, ?_⟩,
    ⟨trivial, trivial, plain "d#e" rfl, by simp⟩, by simp⟩
  rintro _ ⟨⟩
  exact plain "en-GB" rfl

/-- Two of three requests are sent, and one of them is accepted. -/
theorem forgedMarks_sent_until_refused :
    (∀ t ∈ forgedMarks.triples, t.IsUnbroken) ∧
    (forgedMarks.insertRequests 1).flatMap statementLines = forgedMarks.lines ∧
    ∃ sent, smallStore.logged.load forgedMarks 1 ([], 1) = (.error .unreachable, sent, 0) ∧
      sent.flatMap (statementLines ·.1) = forgedMarks.lines.take 2 ∧
      (sent.filter (·.2.isOk)).flatMap (statementLines ·.1) = forgedMarks.lines.take 1 := by
  obtain ⟨lines, -, -, -, loads⟩ :=
    requests_carry_lines_in_order forgedMarks 1 unbroken_forgedMarks
  obtain ⟨sent, loaded, -, got, accepted⟩ := loads smallStore 1
  have requests : forgedMarks.insertRequests 1 =
      forgedMarks.triples.map fun t => insertRequest [t] := by
    simp [insertRequests, chunksOf, forgedMarks, ofTriples]
  have run : smallStore.logged.load forgedMarks 1 ([], 1) =
      (.error .unreachable, ((forgedMarks.triples.take 2).map fun t => insertRequest [t]).zip
        [.ok (), .error .unreachable], 0) := by
    rw [TripleStore.load, requests]
    rfl
  obtain ⟨-, same, -⟩ : _ ∧ _ ∧ _ := by simpa using run.symm.trans loaded
  subst same
  exact ⟨unbroken_forgedMarks, lines, _, run, got, accepted⟩

end Graph
end CatalogGraph
