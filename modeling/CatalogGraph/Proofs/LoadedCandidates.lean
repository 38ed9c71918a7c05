import CatalogGraph.Proofs.ConvergingNames

/-!
Loaded candidates: an index asks a source for a key until the first lookup that succeeds, and from
then on gives what that lookup gave, with the names recorded for the class behind it.
-/
namespace CatalogGraph.Identity
variable {σ : Type}

/-- What a source was asked for, and its answer. -/
structure Lookup where
  key : CandidateKey
  label : String
  answer : Except RemoteError (List Candidate)

/-- A source that keeps the lookups that it is asked for. -/
def CandidateSource.logged (source : CandidateSource σ) : CandidateSource (List Lookup × σ) where
  isCacheable := source.isCacheable
  lookup key label s :=
    let answer := source.lookup key label s.2
    (answer.1, s.1 ++ [⟨key, label, answer.1⟩], answer.2)

/-- What the first lookup for a key that succeeded has given. -/
def firstSuccess? (log : List Lookup) (key : CandidateKey) : Option (List Candidate) :=
  log.findSome? fun lookup => if lookup.key = key then lookup.answer.toOption else none

namespace Index

/-- What an index is used for. -/
inductive Use where
  | ask (key : CandidateKey) (label : String)
  | record (cls : String) (candidate : Candidate)

/-- The name that a use records for a class. -/
def Use.recorded? (cls : String) : Use → Option Candidate
  | .ask _ _ => none
  | .record other candidate => if other = cls then some candidate else none

/-- The names recorded for a class, each once, in the order in which they were recorded first. -/
def recordedFor (uses : List Use) (cls : String) : List Candidate :=
  (uses.filterMap (Use.recorded? cls)).eraseDups

/-- The index and the state of the source after a use. -/
def Use.after (source : CandidateSource σ) (before : Index × σ) : Use → Index × σ
  | .ask key label => (before.1.candidates source key label before.2).2
  | .record cls candidate => (before.1.recordMinted cls candidate, before.2)

/-- An index that was new before some uses, and the state of the source after them. -/
def afterUses (source : CandidateSource σ) (uses : List Use) (s : σ) : Index × σ :=
  uses.foldl (Use.after source) ({}, s)

/-- What an index gives for a key after some uses. -/
def givenAfter (source : CandidateSource σ) (uses : List Use) (s : σ) (key : CandidateKey)
    (label : String) : Except RemoteError (List Candidate) :=
  ((afterUses source uses s).1.candidates source key label (afterUses source uses s).2).1

/-- The index that has got an answer for a key. -/
def receive (index : Index) (key : CandidateKey) : Except RemoteError (List Candidate) → Index
  | .ok found => { index with loaded := (key, found) :: index.loaded }
  | .error _ => index

/-- The first success for each key and the names recorded for each class are in the index, and no
key was asked for after it had succeeded. -/
structure Recalls (uses : List Use) (log : List Lookup) (index : Index) : Prop where
  loaded : ∀ key, index.loaded.lookup key = firstSuccess? log key
  minted : ∀ cls, index.mintedFor cls = recordedFor uses cls
  unanswered : ∀ earlier lookup later, log = earlier ++ lookup :: later →
    firstSuccess? earlier lookup.key = none

section Uses
variable {uses : List Use} {cls : String}

theorem recordedFor_ask (key : CandidateKey) (label : String) :
    recordedFor (uses ++ [.ask key label]) cls = recordedFor uses cls := by
  rw [recordedFor, List.filterMap_append]
  exact congrArg List.eraseDups (List.append_nil _)

theorem recordedFor_record {other : String} {c : Candidate} :
    recordedFor (uses ++ [.record cls c]) other =
      if other = cls ∧ c ∉ recordedFor uses cls then recordedFor uses other ++ [c]
      else recordedFor uses other := by
  unfold recordedFor
  rw [List.filterMap_append]
  by_cases same : other = cls
  · subst same
    have last : [Use.record other c].filterMap (Use.recorded? other) = [c] := by
      simp [Use.recorded?]
    rw [last, eraseDups_concat]
    by_cases known : c ∈ uses.filterMap (Use.recorded? other) <;>
      simp [known, List.mem_eraseDups]
  · have last : [Use.record cls c].filterMap (Use.recorded? other) = [] := by
      simp [Use.recorded?, Ne.symm same]
    rw [last, List.append_nil, if_neg (fun both => same both.1)]

theorem loaded_recordMinted (index : Index) (cls : String) (c : Candidate) :
    (index.recordMinted cls c).loaded = index.loaded := by
  unfold recordMinted
  dsimp only
  split <;> rfl

end Uses

section Answers
variable (source : CandidateSource σ) {index : Index} {key : CandidateKey} {label : String} {s : σ}

theorem candidates_of_loaded {found : List Candidate} (cacheable : source.isCacheable)
    (known : index.loaded.lookup key = some found) :
    index.candidates source key label s =
      (.ok (found ++ index.mintedFor key.cls), index, s) := by
  simp [candidates, answer, cacheable, known]

theorem candidates_of_unloaded (cacheable : source.isCacheable)
    (unknown : index.loaded.lookup key = none) :
    index.candidates source key label s =
      ((source.lookup key label s).1.map (· ++ index.mintedFor key.cls),
        index.receive key (source.lookup key label s).1, (source.lookup key label s).2) := by
  rcases looked : source.lookup key label s with ⟨e | found, t⟩
  · simp [candidates, answer, cacheable, unknown, looked, receive, Except.map]
  · simp [candidates, answer, cacheable, unknown, looked, receive, Except.map, mintedFor]

end Answers

section Steps
variable {source : CandidateSource σ} {uses : List Use} {log : List Lookup} {index : Index}
  {key : CandidateKey}

theorem firstSuccess?_concat (log : List Lookup) (lookup : Lookup) (key : CandidateKey) :
    firstSuccess? (log ++ [lookup]) key = (firstSuccess? log key).or
      (if lookup.key = key then lookup.answer.toOption else none) := by
  rw [firstSuccess?, List.findSome?_append, List.findSome?_singleton, ← firstSuccess?]

theorem recalls_nil : Recalls [] [] {} where
  loaded _ := rfl
  minted _ := rfl
  unanswered _ _ _ := by simp

theorem Recalls.record (recalls : Recalls uses log index) (cls : String) (c : Candidate) :
    Recalls (uses ++ [.record cls c]) log (index.recordMinted cls c) where
  loaded key := by rw [loaded_recordMinted, recalls.loaded]
  minted other := by
    rw [mintedFor_recordMinted, recordedFor_record, recalls.minted, recalls.minted]
  unanswered := recalls.unanswered

/-- A call that needs no lookup. -/
theorem Recalls.again (recalls : Recalls uses log index) (key : CandidateKey) (label : String) :
    Recalls (uses ++ [.ask key label]) log index where
  loaded := recalls.loaded
  minted cls := by rw [recordedFor_ask, recalls.minted]
  unanswered := recalls.unanswered

theorem Recalls.receive (recalls : Recalls uses log index) (unknown : firstSuccess? log key = none)
    (label : String) (given : Except RemoteError (List Candidate)) :
    Recalls (uses ++ [.ask key label]) (log ++ [⟨key, label, given⟩])
      (index.receive key given) where
  loaded other := by
    rw [firstSuccess?_concat, ← recalls.loaded]
    cases given with
    | error e => simp [Index.receive, Except.toOption]
    | ok found =>
      rw [Index.receive, List.lookup_cons]
      by_cases same : other = key
      · subst same
        simp [recalls.loaded, unknown, Except.toOption]
      · simp [beq_false_of_ne same, Ne.symm same]
  minted cls := by
    rw [recordedFor_ask, ← recalls.minted]
    cases given <;> rfl
  unanswered earlier lookup later whole := by
    rcases List.eq_nil_or_concat later with rfl | ⟨middle, last, rfl⟩
    · obtain ⟨rfl, same⟩ := List.append_inj' whole rfl
      cases same
      exact unknown
    · rw [List.concat_eq_append, ← List.cons_append, ← List.append_assoc] at whole
      exact recalls.unanswered earlier lookup middle (List.append_inj' whole rfl).1

/-- An index recalls all that it has been used for, and a source that keeps its lookups answers as
it does without. -/
theorem recalls_afterUses (cacheable : source.isCacheable) (uses : List Use) (s : σ) :
    ∃ index log t, afterUses source uses s = (index, t) ∧
      afterUses source.logged uses ([], s) = (index, log, t) ∧ Recalls uses log index := by
  induction uses using List.reverseRecOn with
  | nil => exact ⟨{}, [], s, rfl, rfl, recalls_nil⟩
  | append_singleton uses use ih =>
    obtain ⟨index, log, t, reached, logged, recalls⟩ := ih
    unfold afterUses at reached logged ⊢
    rw [List.foldl_concat, List.foldl_concat, reached, logged]
    cases use with
    | record cls c => exact ⟨_, log, t, rfl, rfl, recalls.record cls c⟩
    | ask key label =>
      simp only [Use.after]
      cases known : firstSuccess? log key with
      | some first =>
        have loaded := (recalls.loaded key).trans known
        rw [candidates_of_loaded source cacheable loaded,
          candidates_of_loaded source.logged cacheable loaded]
        exact ⟨index, log, t, rfl, rfl, recalls.again key label⟩
      | none =>
        have unloaded := (recalls.loaded key).trans known
        rw [candidates_of_unloaded source cacheable unloaded,
          candidates_of_unloaded source.logged cacheable unloaded]
        exact ⟨_, _, _, rfl, rfl, recalls.receive known label _⟩

theorem grows_uses (source : CandidateSource σ) (uses : List Use) (before : Index × σ) :
    before.1.Grows (uses.foldl (Use.after source) before).1 := by
  induction uses generalizing before with
  | nil => exact .refl _
  | cons use rest ih =>
    have first : before.1.Grows (use.after source before).1 := by
      cases use with
      | ask key label => exact grows_candidates
      | record cls c => exact grows_recordMinted _ cls c
    exact first.trans (ih _)

end Steps

/-- What an index gives for a key begins with what it gave for the key before. -/
theorem givenAfter_prefix {source : CandidateSource σ} (cacheable : source.isCacheable)
    {uses between : List Use} {s : σ} {key : CandidateKey} {label other : String}
    {found found' : List Candidate}
    (first : givenAfter source uses s key label = .ok found)
    (second : givenAfter source (uses ++ .ask key label :: between) s key other = .ok found') :
    found <+: found' := by
  rw [givenAfter, afterUses, List.foldl_append, List.foldl_cons, ← afterUses] at second
  generalize reached : afterUses source uses s = before at second
  obtain ⟨index, t⟩ := before
  rw [givenAfter, reached] at first
  rcases asked : index.candidates source key label t with ⟨given, asker, u⟩
  obtain rfl : given = .ok found := by rwa [asked] at first
  obtain ⟨answered, answer, rfl⟩ := candidates_eq_ok asked
  have kept : asker.loaded.lookup key = some answered := by
    have kept : (index.answer source key label t).2.1.loaded.lookup key = some answered :=
      lookup_answer cacheable (congrArg Prod.fst answer)
    rwa [answer] at kept
  have names : asker.mintedFor key.cls = index.mintedFor key.cls := by
    have names : (index.answer source key label t).2.1.mintedFor key.cls =
        index.mintedFor key.cls := answer_mintedFor key.cls
    rwa [answer] at names
  have start : Use.after source (index, t) (.ask key label) = (asker, u) :=
    congrArg Prod.snd asked
  have grows := grows_uses source between (asker, u)
  rw [start, candidates_of_loaded source cacheable (grows.loaded key answered kept)] at second
  obtain rfl := Except.ok.inj second
  rw [List.prefix_append_right_inj, ← names]
  exact grows.minted key.cls

/-- However an index has been used from the start on, with a source whose answers serve all labels
and whose lookups may fail at any time: nothing was looked up for a key once a lookup for it had
succeeded. When it is asked for a key, a lookup is made exactly if none has succeeded for the key.
It gives what the first success for the key gave and then the names recorded so far for the class,
each once and in order; if there is no success it gives the failure and is left as it was. So what
it gives for a key begins with what it gave for the key before. -/
theorem looked_up_until_first_success (source : CandidateSource σ) (cacheable : source.isCacheable)
    (uses : List Use) (s : σ) :
    ∃ index log t, afterUses source uses s = (index, t) ∧
      afterUses source.logged uses ([], s) = (index, log, t) ∧
      (∀ earlier lookup later, log = earlier ++ lookup :: later →
        firstSuccess? earlier lookup.key = none) ∧
      ∀ key label,
        let looked := source.lookup key label t
        let call := index.candidates source.logged key label (log, t)
        (call.2.2 = if (firstSuccess? log key).isSome then (log, t)
          else (log ++ [⟨key, label, looked.1⟩], looked.2)) ∧
        (∀ found, call.1 = .ok found ↔ ∃ first, firstSuccess? call.2.2.1 key = some first ∧
          found = first ++ recordedFor uses key.cls) ∧
        (∀ e, call.1 = .error e → looked.1 = .error e ∧ call.2.1 = index) ∧
        ∀ between other found found', givenAfter source uses s key label = .ok found →
          givenAfter source (uses ++ .ask key label :: between) s key other = .ok found' →
          found <+: found' := by
  obtain ⟨index, log, t, reached, logged, recalls⟩ := recalls_afterUses cacheable uses s
  refine ⟨index, log, t, reached, logged, recalls.unanswered, fun key label => ?_⟩
  intro looked call
  have grows : ∀ between other found found', givenAfter source uses s key label = .ok found →
      givenAfter source (uses ++ .ask key label :: between) s key other = .ok found' →
      found <+: found' := fun between other found found' => givenAfter_prefix cacheable
  cases known : firstSuccess? log key with
  | some first =>
    have called : call = (.ok (first ++ index.mintedFor key.cls), index, log, t) :=
      candidates_of_loaded source.logged cacheable ((recalls.loaded key).trans known)
    rw [called, recalls.minted]
    exact ⟨rfl, fun found => by simp [known, eq_comm], fun e failed => by simp at failed, grows⟩
  | none =>
    have called : call = (looked.1.map (· ++ index.mintedFor key.cls),
        index.receive key looked.1, log ++ [⟨key, label, looked.1⟩], looked.2) :=
      candidates_of_unloaded source.logged cacheable ((recalls.loaded key).trans known)
    have last : firstSuccess? (log ++ [⟨key, label, looked.1⟩]) key = looked.1.toOption := by
      rw [firstSuccess?_concat, known, Option.none_or, if_pos rfl]
    rw [called, recalls.minted, last]
    refine ⟨rfl, ?_, ?_, grows⟩
    · intro found
      cases looked.1 with
      | error e => simp [Except.map, Except.toOption]
      | ok first => simp [Except.map, Except.toOption, eq_comm]
    · cases looked.1 with
      | error e => exact fun _ failed => ⟨failed, rfl⟩
      | ok first => exact fun _ failed => by simp [Except.map] at failed

/-- A source that gives answers in order, whatever it is asked for. -/
def wavering : CandidateSource (List (Except RemoteError (List Candidate))) where
  isCacheable := true
  lookup _ _ answers := (answers.headD (.ok []), answers.drop 1)

/-- Lookups for two keys of one class, the first of which fails, between names recorded for the
class and for another one. -/
def mixedUses : List Use :=
  [.record "ex:Agent" ⟨"ex:b", "B"⟩, .ask ⟨"ex:Agent", none⟩ "A",
    .ask ⟨"ex:Agent", some "ex:Person"⟩ "A", .record "ex:Work" ⟨"ex:w", "W"⟩,
    .ask ⟨"ex:Agent", none⟩ "B", .record "ex:Agent" ⟨"ex:c", "C"⟩,
    .record "ex:Agent" ⟨"ex:b", "B"⟩]

theorem mixedUses_looked_up_until_success :
    let answers := [.error (.timeout ""), .ok [⟨"ex:p", "P"⟩], .ok [⟨"ex:a", "A"⟩]]
    wavering.isCacheable ∧ ∃ index log, afterUses wavering.logged mixedUses ([], answers) =
        (index, log, []) ∧ log.map (·.answer) = answers ∧
      (index.candidates wavering.logged ⟨"ex:Agent", none⟩ "C" (log, [])).1 =
        .ok [⟨"ex:a", "A"⟩, ⟨"ex:b", "B"⟩, ⟨"ex:c", "C"⟩] ∧
      (index.candidates wavering.logged ⟨"ex:Agent", none⟩ "C" (log, [])).2.2 = (log, []) := by
  intro answers
  have cacheable : wavering.isCacheable := rfl
  obtain ⟨index, log, t, -, logged, -, calls⟩ :=
    looked_up_until_first_success wavering cacheable mixedUses answers
  obtain ⟨lookups, given, -⟩ := calls ⟨"ex:Agent", none⟩ "C"
  obtain ⟨kept, rfl⟩ : log = [⟨⟨"ex:Agent", none⟩, "A", .error (.timeout "")⟩,
      ⟨⟨"ex:Agent", some "ex:Person"⟩, "A", .ok [⟨"ex:p", "P"⟩]⟩,
      ⟨⟨"ex:Agent", none⟩, "B", .ok [⟨"ex:a", "A"⟩]⟩] ∧ t = [] :=
    ⟨(congrArg (·.2.1) logged).symm, (congrArg (·.2.2) logged).symm⟩
  have first : firstSuccess? log ⟨"ex:Agent", none⟩ = some [⟨"ex:a", "A"⟩] := by rw [kept]; rfl
  rw [first] at lookups
  refine ⟨cacheable, index, log, logged, by rw [kept]; rfl, ?_, lookups⟩
  rw [given, lookups]
  exact ⟨_, first, rfl⟩

end Index
end CatalogGraph.Identity
