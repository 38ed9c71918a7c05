import CatalogGraph.Proofs.CommonSubsequences
import CatalogGraph.Proofs.MintedNames

/-!
Converging names: whatever is asked in between, an entity of the same class with the same label
gets the same name again. An index only grows at its ends, so that what was found first for a label
is found first ever after.
-/
namespace CatalogGraph.Identity
variable {σ : Type}

namespace Index

/-- An index keeps its answers, and the names minted for a class come behind those before. -/
structure Grows (before after : Index) : Prop where
  loaded : ∀ key found, before.loaded.lookup key = some found →
    after.loaded.lookup key = some found
  minted : ∀ cls, before.mintedFor cls <+: after.mintedFor cls

theorem Grows.refl (index : Index) : index.Grows index where
  loaded _ _ known := known
  minted _ := List.prefix_rfl

theorem Grows.trans {a b c : Index} (first : a.Grows b) (second : b.Grows c) : a.Grows c where
  loaded key found known := second.loaded key found (first.loaded key found known)
  minted cls := (first.minted cls).trans (second.minted cls)

theorem mintedFor_recordMinted {index : Index} {cls other : String} {c : Candidate} :
    (index.recordMinted cls c).mintedFor other =
      if other = cls ∧ c ∉ index.mintedFor cls then index.mintedFor other ++ [c]
      else index.mintedFor other := by
  unfold recordMinted
  dsimp only
  split
  next known =>
    have known : c ∈ index.mintedFor cls := by simpa using known
    simp [known]
  next fresh =>
    have fresh : c ∉ index.mintedFor cls := by simpa using fresh
    unfold mintedFor at fresh ⊢
    rw [Entries.get?_insert]
    by_cases same : other = cls
    · subst same
      simp [fresh]
    · simp [same]

theorem grows_recordMinted (index : Index) (cls : String) (c : Candidate) :
    index.Grows (index.recordMinted cls c) where
  loaded key found known := by
    unfold recordMinted
    dsimp only
    split <;> exact known
  minted other := by
    rw [mintedFor_recordMinted]
    split
    next => exact List.prefix_append _ _
    next => exact List.prefix_rfl

section Answers
variable {source : CandidateSource σ} {key : CandidateKey} {label : String} {index : Index} {s : σ}

theorem answer_mintedFor (cls : String) :
    (index.answer source key label s).2.1.mintedFor cls = index.mintedFor cls := by
  have kept : (index.answer source key label s).2.1.minted = index.minted := answer_minted
  rw [mintedFor, kept, mintedFor]

theorem grows_answer : index.Grows (index.answer source key label s).2.1 where
  loaded other found known := by
    unfold answer
    split
    next =>
      split
      next => exact known
      next unasked =>
        split
        next =>
          have differ : other ≠ key := by
            rintro rfl
            simp [unasked] at known
          rw [List.lookup_cons, beq_false_of_ne differ]
          exact known
        next => exact known
    next => exact known
  minted cls := (answer_mintedFor cls).symm ▸ List.prefix_rfl

/-- The answer of a source whose answers serve all labels is kept. -/
theorem lookup_answer {found : List Candidate} (cacheable : source.isCacheable)
    (answered : (index.answer source key label s).1 = .ok found) :
    (index.answer source key label s).2.1.loaded.lookup key = some found := by
  unfold answer at answered ⊢
  rw [if_pos cacheable] at answered ⊢
  cases known : index.loaded.lookup key with
  | some kept =>
    rw [known] at answered
    cases answered
    exact known
  | none =>
    rw [known] at answered
    rcases asked : source.lookup key label s with ⟨e | new, t⟩
    · simp [asked] at answered
    · simp only [asked, Except.ok.injEq] at answered ⊢
      simp [answered]

theorem answer_of_lookup {found : List Candidate} (cacheable : source.isCacheable)
    (known : index.loaded.lookup key = some found) :
    (index.answer source key label s).1 = .ok found := by
  simp [answer, cacheable, known]

theorem candidates_eq_ok {found : List Candidate} {later : Index} {t : σ}
    (given : index.candidates source key label s = (.ok found, later, t)) :
    ∃ answered, index.answer source key label s = (.ok answered, later, t) ∧
      found = answered ++ index.mintedFor key.cls := by
  have names : (index.answer source key label s).2.1.mintedFor key.cls =
      index.mintedFor key.cls := answer_mintedFor key.cls
  unfold candidates at given
  split at given
  next answered _ _ asked =>
    cases given
    refine ⟨answered, asked, ?_⟩
    rw [asked] at names
    rw [← names]
  next => cases given

theorem grows_candidates : index.Grows (index.candidates source key label s).2.1 := by
  have grows : index.Grows (index.answer source key label s).2.1 := grows_answer
  unfold candidates
  split
  next asked => rwa [asked] at grows
  next asked => rwa [asked] at grows

end Answers
end Index

/-- The first candidate that a label names. -/
def Settings.firstNamed? (settings : Settings) (label : String) (candidates : List Candidate) :
    Option Candidate :=
  candidates.find? fun c => settings.policy.accepts c.label label

/-- The asking for a name of an entity of a class by its label. -/
structure Call (σ : Type) where
  cls : String
  entity : Term
  label : String
  before : State σ

namespace Call

def key (call : Call σ) : CandidateKey := keyFor call.before.graph call.cls call.entity

def outcome (settings : Settings) (source : CandidateSource σ) (call : Call σ) :
    Except IdentityError Assertion :=
  (resolveOrMint settings source call.cls call.entity call.label call.before).1

def after (settings : Settings) (source : CandidateSource σ) (call : Call σ) : State σ :=
  (resolveOrMint settings source call.cls call.entity call.label call.before).2

/-- The candidates of the source for the call and the index that is left, if the source gives
any. -/
def answer (source : CandidateSource σ) (call : Call σ) :
    Except RemoteError (List Candidate) × Index × σ :=
  call.before.index.answer source call.key call.label call.before.source

/-- The source has a candidate that the label names. -/
def IsOffered (settings : Settings) (source : CandidateSource σ) (call : Call σ) : Prop :=
  ∃ found, (call.answer source).1 = .ok found ∧
    ∃ c ∈ found, settings.policy.accepts c.label call.label

end Call

section Calls
variable {settings : Settings} {source : CandidateSource σ} {call : Call σ} {a : Assertion}

theorem Settings.firstNamed?_append (label : String) (xs ys : List Candidate) :
    settings.firstNamed? label (xs ++ ys) =
      (settings.firstNamed? label xs).or (settings.firstNamed? label ys) :=
  List.find?_append

/-- What is named first stays so when candidates come behind. -/
theorem Settings.firstNamed?_of_prefix {label : String} {xs ys : List Candidate} {c : Candidate}
    (start : xs <+: ys) (found : settings.firstNamed? label xs = some c) :
    settings.firstNamed? label ys = some c := by
  obtain ⟨rest, rfl⟩ := start
  rw [settings.firstNamed?_append, found, Option.some_or]

theorem Settings.firstNamed?_eq_none_iff {label : String} {candidates : List Candidate} :
    settings.firstNamed? label candidates = none ↔
      ∀ c ∈ candidates, settings.policy.accepts c.label label = false := by
  simp [firstNamed?]

theorem choose_eq_ok {cls label : String} {entity : Term} {s : State σ} {choice : Choice}
    {index : Index} {t : σ}
    (chosen : choose settings source cls entity label s = (.ok choice, index, t)) :
    ∃ found later, s.index.candidates source (keyFor s.graph cls entity) label s.source =
        (.ok found, later, t) ∧
      match settings.firstNamed? label found with
      | some c => choice = .known c ∧ index = later
      | none => choice = .fresh (settings.mintedIri cls label) ∧
        index = later.recordMinted cls ⟨settings.mintedIri cls label, label⟩ := by
  unfold choose at chosen
  split at chosen
  next => cases chosen
  next =>
    split at chosen
    next => cases chosen
    next =>
      split at chosen
      next => cases chosen
      next found later _ asked =>
        split at chosen
        next c first =>
          cases chosen
          refine ⟨found, _, asked, ?_⟩
          rw [show settings.firstNamed? label found = some c from first]
          exact ⟨rfl, rfl⟩
        next none =>
          cases chosen
          refine ⟨found, _, asked, ?_⟩
          rw [show settings.firstNamed? label found = .none from none]
          exact ⟨rfl, rfl⟩

theorem grows_choose {cls label : String} {entity : Term} {s : State σ} :
    s.index.Grows (choose settings source cls entity label s).2.1 := by
  have grows : s.index.Grows
      (s.index.candidates source (keyFor s.graph cls entity) label s.source).2.1 :=
    Index.grows_candidates
  unfold choose
  split
  next => exact .refl _
  next =>
    split
    next => exact .refl _
    next =>
      split
      next asked => rwa [asked] at grows
      next asked =>
        rw [asked] at grows
        split
        next => exact grows
        next => exact grows.trans (Index.grows_recordMinted _ _ _)

/-- Where a name is given, the source has answered: the name is that of the first candidate that
the label names, of the source or minted before, or else it is minted and kept. -/
theorem Call.outcome_eq_ok (given : call.outcome settings source = .ok a) :
    ∃ found, (call.answer source).1 = .ok found ∧
      match settings.firstNamed? call.label (found ++ call.before.index.mintedFor call.cls) with
      | some c => a.canonical = .iri c.iri ∧
        (call.after settings source).index = (call.answer source).2.1
      | none => a.canonical = .iri (settings.mintedIri call.cls call.label) ∧
        (call.after settings source).index = (call.answer source).2.1.recordMinted call.cls
          ⟨settings.mintedIri call.cls call.label, call.label⟩ := by
  unfold Call.outcome resolveOrMint at given
  unfold Call.after resolveOrMint
  rcases chosen : choose settings source call.cls call.entity call.label call.before with
    ⟨e | choice, index, t⟩
  · simp [chosen] at given
  · rw [chosen] at given
    cases given
    obtain ⟨found, later, asked, first⟩ := choose_eq_ok chosen
    obtain ⟨answered, answer, rfl⟩ := Index.candidates_eq_ok asked
    have same : call.answer source = (.ok answered, later, t) := answer
    refine ⟨answered, by rw [same], ?_⟩
    rw [same]
    have cls : (keyFor call.before.graph call.cls call.entity).cls = call.cls := rfl
    rw [cls] at first
    split at first
    next =>
      obtain ⟨rfl, rfl⟩ := first
      exact ⟨rfl, rfl⟩
    next =>
      obtain ⟨rfl, rfl⟩ := first
      exact ⟨rfl, rfl⟩

theorem Call.grows_after : call.before.index.Grows (call.after settings source).index := by
  rw [Call.after, resolveOrMint_index]
  exact grows_choose

/-- A source has an answer for all labels of a key, or else answers the same key and label always
alike. -/
def CandidateSource.IsSteady (source : CandidateSource σ) : Prop :=
  source.isCacheable ∨ ∀ key label s t found found',
    (source.lookup key label s).1 = .ok found → (source.lookup key label t).1 = .ok found' →
      found = found'

/-- What the source gives for a label of a key it gives again. -/
theorem Call.answers_alike (steady : source.IsSteady) {first second : Call σ}
    (grows : (first.answer source).2.1.Grows second.before.index) (key : first.key = second.key)
    (label : first.label = second.label) {found found' : List Candidate}
    (given : (first.answer source).1 = .ok found)
    (given' : (second.answer source).1 = .ok found') : found = found' := by
  by_cases cacheable : source.isCacheable
  · have kept : second.before.index.loaded.lookup second.key = some found := by
      rw [← key]
      exact grows.loaded _ _ (Index.lookup_answer cacheable given)
    have again : (second.answer source).1 = .ok found := Index.answer_of_lookup cacheable kept
    rw [again] at given'
    exact Except.ok.inj given'
  · have alike := steady.resolve_left cacheable
    simp only [Call.answer, Index.answer, cacheable, Bool.false_eq_true, if_false] at given given'
    rw [key, label] at given
    exact alike _ _ _ _ _ _ given given'

/-- After a call for a label of which the source has nothing, its name is the first one minted for
the class that the label names. -/
theorem Call.named_after (attainable : settings.policy.IsAttainable)
    (given : call.outcome settings source = .ok a) {found : List Candidate}
    (answered : (call.answer source).1 = .ok found)
    (nothing : settings.firstNamed? call.label found = none) :
    ∃ c, settings.firstNamed? call.label
        ((call.after settings source).index.mintedFor call.cls) = some c ∧
      a.canonical = .iri c.iri := by
  have names : (call.answer source).2.1.mintedFor call.cls =
      call.before.index.mintedFor call.cls := Index.answer_mintedFor call.cls
  obtain ⟨found', answered', first⟩ := Call.outcome_eq_ok given
  obtain rfl : found' = found := Except.ok.inj (answered'.symm.trans answered)
  rw [settings.firstNamed?_append, nothing, Option.none_or] at first
  cases known : settings.firstNamed? call.label (call.before.index.mintedFor call.cls) with
  | some c =>
    rw [known] at first
    refine ⟨c, ?_, first.1⟩
    rw [first.2, names, known]
  | none =>
    -- the label names the minted candidate, and none of those before, so that this one is new
    rw [known] at first
    have own : settings.policy.accepts call.label call.label := attainable.accepts_self call.label
    have fresh : ⟨settings.mintedIri call.cls call.label, call.label⟩ ∉
        call.before.index.mintedFor call.cls := by
      intro member
      have refused := Settings.firstNamed?_eq_none_iff.mp known _ member
      rw [own] at refused
      cases refused
    refine ⟨⟨settings.mintedIri call.cls call.label, call.label⟩, ?_, first.1⟩
    rw [first.2, Index.mintedFor_recordMinted, names, if_pos ⟨rfl, fresh⟩,
      settings.firstNamed?_append, known, Option.none_or]
    simp [Settings.firstNamed?, own]

/-- What is minted comes into question only behind what the source has. -/
theorem Call.named_before (given : call.outcome settings source = .ok a) {found : List Candidate}
    (answered : (call.answer source).1 = .ok found) {c : Candidate}
    (first : (settings.firstNamed? call.label found).or
      (settings.firstNamed? call.label (call.before.index.mintedFor call.cls)) = some c) :
    a.canonical = .iri c.iri := by
  obtain ⟨found', answered', named⟩ := Call.outcome_eq_ok given
  obtain rfl : found' = found := Except.ok.inj (answered'.symm.trans answered)
  rw [settings.firstNamed?_append, first] at named
  exact named.1

theorem Call.firstNamed?_of_not_offered (unoffered : ¬ call.IsOffered settings source)
    {found : List Candidate} (answered : (call.answer source).1 = .ok found) :
    settings.firstNamed? call.label found = none := by
  rw [Settings.firstNamed?_eq_none_iff]
  intro c hc
  by_contra accepted
  exact unoffered ⟨found, answered, c, hc, by simpa using accepted⟩

/-- Two calls for a label of a class get one name, where the source is asked for the same key, or
has nothing for either. -/
theorem Call.canonical_eq (steady : source.IsSteady) (attainable : settings.policy.IsAttainable)
    {first second : Call σ}
    (grows : (first.after settings source).index.Grows second.before.index)
    (cls : first.cls = second.cls) (label : first.label = second.label) {a b : Assertion}
    (given : first.outcome settings source = .ok a)
    (given' : second.outcome settings source = .ok b)
    (alike : first.key = second.key ∨
      ¬ first.IsOffered settings source ∧ ¬ second.IsOffered settings source) :
    a.canonical = b.canonical := by
  obtain ⟨found, answered, named⟩ := Call.outcome_eq_ok given
  obtain ⟨found', answered', -⟩ := Call.outcome_eq_ok given'
  have grown : (first.answer source).2.1.Grows second.before.index := by
    refine Index.Grows.trans ?_ grows
    split at named
    next => rw [named.2]; exact .refl _
    next => rw [named.2]; exact Index.grows_recordMinted _ _ _
  have same : settings.firstNamed? first.label found =
      settings.firstNamed? second.label found' := by
    rcases alike with key | ⟨unoffered, unoffered'⟩
    · rw [Call.answers_alike steady grown key label answered answered', label]
    · rw [Call.firstNamed?_of_not_offered unoffered answered,
        Call.firstNamed?_of_not_offered unoffered' answered']
  cases offered : settings.firstNamed? first.label found with
  | some c =>
    rw [Call.named_before given answered (c := c) (by rw [offered]; rfl),
      Call.named_before given' answered' (c := c) (by rw [← same, offered]; rfl)]
  | none =>
    obtain ⟨c, minted, name⟩ := Call.named_after attainable given answered offered
    have later : settings.firstNamed? second.label
        (second.before.index.mintedFor second.cls) = some c := by
      rw [← cls, ← label]
      exact Settings.firstNamed?_of_prefix (grows.minted first.cls) minted
    rw [name, Call.named_before given' answered' (c := c) (by rw [← same, offered, later]; rfl)]

end Calls

/-- The calls for the entities of a list in turn. -/
def eachCall (settings : Settings) (source : CandidateSource σ) (cls : String) :
    List (Term × String) → State σ → List (Call σ)
  | [], _ => []
  | (entity, label) :: rest, s =>
    let call : Call σ := ⟨cls, entity, label, s⟩
    call :: eachCall settings source cls rest (call.after settings source)

/-- The calls of a pass over the classes in turn. -/
def passCalls (settings : Settings) (source : CandidateSource σ) :
    List String → State σ → List (Call σ)
  | [], _ => []
  | cls :: rest, s =>
    eachCall settings source cls (labelledEntities settings s.graph cls) s ++
      passCalls settings source rest (resolveClass settings source {} s cls).2

/-- What a service of identities is used for: to name one entity of a graph, or for a pass. -/
inductive Use where
  | single (graph : Graph) (cls : String) (entity : Term) (label : String)
  | pass (graph : Graph) (classes : List String)

namespace Use

/-- The calls of a use, from what is known before it. -/
def calls (settings : Settings) (source : CandidateSource σ) (index : Index) (s : σ) :
    Use → List (Call σ)
  | .single graph cls entity label => [⟨cls, entity, label, { graph, index, source := s }⟩]
  | .pass graph classes =>
    if classes.all isClassName then
      passCalls settings source classes { graph, index, source := s }
    else []

/-- What is known after a use. -/
def after (settings : Settings) (source : CandidateSource σ) (index : Index) (s : σ) :
    Use → State σ
  | .single graph cls entity label =>
    (resolveOrMint settings source cls entity label { graph, index, source := s }).2
  | .pass graph classes =>
    (deduplicate settings source classes { graph, index, source := s }).2

end Use

/-- The calls of several uses in turn, whatever graphs they are about. -/
def callsOf (settings : Settings) (source : CandidateSource σ) :
    List Use → Index → σ → List (Call σ)
  | [], _, _ => []
  | use :: rest, index, s =>
    let next := use.after settings source index s
    use.calls settings source index s ++ callsOf settings source rest next.index next.source

/-- Calls of which each begins in the state that the one before has left. -/
inductive Successive (settings : Settings) (source : CandidateSource σ) :
    State σ → List (Call σ) → State σ → Prop
  | nil (s : State σ) : Successive settings source s [] s
  | cons (call : Call σ) {rest : List (Call σ)} {last : State σ} :
    Successive settings source (call.after settings source) rest last →
      Successive settings source call.before (call :: rest) last

/-- Calls of which each begins with the index that the one before has left. -/
inductive Chain (settings : Settings) (source : CandidateSource σ) :
    Index → List (Call σ) → Index → Prop
  | nil (index : Index) : Chain settings source index [] index
  | cons (call : Call σ) {rest : List (Call σ)} {last : Index} :
    Chain settings source (call.after settings source).index rest last →
      Chain settings source call.before.index (call :: rest) last

section Chains
variable {settings : Settings} {source : CandidateSource σ} {index middle last : Index}
  {calls more : List (Call σ)}

theorem Chain.append (front : Chain settings source index calls middle)
    (back : Chain settings source middle more last) :
    Chain settings source index (calls ++ more) last := by
  induction front with
  | nil => exact back
  | cons call _ ih => exact .cons call (ih back)

theorem Chain.grows (chain : Chain settings source index calls last) :
    ∀ call ∈ calls, index.Grows call.before.index := by
  induction chain with
  | nil => simp
  | cons call _ ih =>
    intro later member
    rcases List.mem_cons.mp member with rfl | member
    · exact .refl _
    · exact call.grows_after.trans (ih later member)

theorem Chain.pairwise (chain : Chain settings source index calls last) :
    calls.Pairwise fun first second =>
      (first.after settings source).index.Grows second.before.index := by
  induction chain with
  | nil => exact .nil
  | cons call rest ih => exact .cons rest.grows ih

theorem Successive.append {s t u : State σ} (front : Successive settings source s calls t)
    (back : Successive settings source t more u) :
    Successive settings source s (calls ++ more) u := by
  induction front with
  | nil => exact back
  | cons call _ ih => exact .cons call (ih back)

theorem Successive.chain {s t : State σ} (successive : Successive settings source s calls t) :
    Chain settings source s.index calls t.index := by
  induction successive with
  | nil => exact .nil _
  | cons call _ ih => exact .cons call ih

theorem successive_eachCall {cls : String} (entities : List (Term × String)) (report : Report)
    (s : State σ) : Successive settings source s (eachCall settings source cls entities s)
      (resolveEach settings source cls entities report s).2 := by
  induction entities generalizing report s with
  | nil => exact .nil _
  | cons pair rest ih => exact .cons ⟨cls, pair.1, pair.2, s⟩ (ih _ _)

theorem successive_passCalls (classes : List String) (report : Report) (s : State σ) :
    Successive settings source s (passCalls settings source classes s)
      (classes.foldl (fun (report, s) cls => resolveClass settings source report s cls)
        (report, s)).2 := by
  induction classes generalizing report s with
  | nil => exact .nil _
  | cons cls rest ih =>
    rw [passCalls, resolveClass_state {} report, List.foldl_cons]
    exact (successive_eachCall _ _ s).append (ih (resolveClass settings source report s cls).1 _)

theorem Use.chain (use : Use) (index : Index) (s : σ) : Chain settings source index
    (use.calls settings source index s) (use.after settings source index s).index := by
  cases use with
  | single graph cls entity label =>
    exact .cons ⟨cls, entity, label, { graph, index, source := s }⟩ (.nil _)
  | pass graph classes =>
    rw [Use.calls, Use.after, deduplicate]
    split
    next valid =>
      have known : classes.find? (fun cls => !isClassName cls) = none := by
        simpa [List.find?_eq_none] using valid
      rw [known]
      exact (successive_passCalls classes {} { graph, index, source := s }).chain
    next invalid =>
      have found : ∃ cls, classes.find? (fun cls => !isClassName cls) = some cls := by
        rw [← Option.isSome_iff_exists, List.find?_isSome]
        simpa using invalid
      obtain ⟨cls, found⟩ := found
      rw [found]
      exact .nil _

theorem chain_callsOf (uses : List Use) (index : Index) (s : σ) :
    ∃ last, Chain settings source index (callsOf settings source uses index s) last := by
  induction uses generalizing index s with
  | nil => exact ⟨index, .nil index⟩
  | cons use rest ih =>
    obtain ⟨last, later⟩ := ih (use.after settings source index s).index
      (use.after settings source index s).source
    exact ⟨last, (use.chain index s).append later⟩

theorem map_eachCall {cls : String} (entities : List (Term × String)) (s : State σ) :
    (eachDecision settings source cls entities s).map (·.assertion) =
      (eachCall settings source cls entities s).filterMap
        fun call => (call.outcome settings source).toOption := by
  induction entities generalizing s with
  | nil => rfl
  | cons pair rest ih =>
    obtain ⟨entity, label⟩ := pair
    have first : (Call.outcome settings source ⟨cls, entity, label, s⟩).toOption =
        (decision? settings source cls entity label s).map (·.assertion) :=
      resolveOrMint_fst entity label
    rw [eachDecision, eachCall, List.map_append, List.filterMap_cons, first]
    cases decision? settings source cls entity label s with
    | none => exact ih _
    | some d => exact congrArg _ (ih _)

theorem map_passCalls (classes : List String) (s : State σ) :
    (passDecisions settings source classes s).map (·.assertion) =
      (passCalls settings source classes s).filterMap
        fun call => (call.outcome settings source).toOption := by
  induction classes generalizing s with
  | nil => rfl
  | cons cls rest ih =>
    rw [passDecisions, passCalls, List.map_append, List.filterMap_append, map_eachCall, ih]

end Chains

/-- However a service is used, for single entities or for passes over any graphs, two calls for
entities of one class with one label get the same name, if their second class is the same too, or
if the source has no candidate for either that the label names. A pass asserts what its calls
give. -/
theorem same_label_same_name {settings : Settings} {source : CandidateSource σ}
    (steady : source.IsSteady) (attainable : settings.policy.IsAttainable) (uses : List Use)
    (index : Index) (s : σ) :
    (callsOf settings source uses index s).Pairwise (fun first second =>
      first.cls = second.cls → first.label = second.label → ∀ a b,
        first.outcome settings source = .ok a → second.outcome settings source = .ok b →
        first.key = second.key ∨
          ¬ first.IsOffered settings source ∧ ¬ second.IsOffered settings source →
        a.canonical = b.canonical) ∧
    ∀ classes u report t, deduplicate settings source classes u = (.ok report, t) →
      report.assertions = (passCalls settings source classes u).filterMap
        fun call => (call.outcome settings source).toOption := by
  obtain ⟨last, chain⟩ : ∃ last, Chain settings source index
      (callsOf settings source uses index s) last := chain_callsOf uses index s
  refine ⟨?_, ?_⟩
  · refine chain.pairwise.imp ?_
    intro first second grows cls label a b given given' alike
    exact Call.canonical_eq steady attainable grows cls label given given' alike
  · intro classes u report t passed
    rw [deduplicate_assertions passed, map_passCalls]

/-- Two authors with one label, of whom the second is a person too, and one with a longer label in
between. -/
def hawthornes : List Use :=
  [.single {} "ex:Author" (.blank "a") "Hawthorne",
    .single {} "ex:Author" (.blank "b") "Nathaniel Hawthorne",
    .single (.ofTriples [⟨.blank "c", .iri Vocabulary.rdfType, .iri "ex:Person"⟩]) "ex:Author"
      (.blank "c") "Hawthorne"]

theorem not_offered_of_answer {call : Call Unit} (label : call.label = "Hawthorne")
    (answered : (call.answer authors).1 =
      .ok [⟨"http://names.org/melville", "Herman Melville (1819-1891)"⟩]) :
    ¬ call.IsOffered {} authors := by
  rintro ⟨found, again, c, hc, accepted⟩
  obtain rfl := Except.ok.inj (answered.symm.trans again)
  obtain rfl := List.mem_singleton.mp hc
  rw [label] at accepted
  revert accepted
  decide +kernel

theorem hawthornes_same_name :
    authors.IsSteady ∧ ({} : Settings).policy.IsAttainable ∧
    ∃ first between second a b,
      callsOf {} authors hawthornes {} () = [first, between, second] ∧
      first.key ≠ second.key ∧
      first.outcome {} authors = .ok a ∧ second.outcome {} authors = .ok b ∧
      a.resolution ≠ b.resolution ∧ a.canonical = b.canonical := by
  have steady : authors.IsSteady := .inl rfl
  have attainable : ({} : Settings).policy.IsAttainable := trivial
  have pairs := (same_label_same_name steady attainable hawthornes {} ()).1
  refine ⟨steady, attainable, _, _, _,
    ⟨.blank "a", .iri "http://example.org/ex-author/hawthorne", "Hawthorne", .minted⟩,
    ⟨.blank "c", .iri "http://example.org/ex-author/hawthorne", "Hawthorne", .matched⟩,
    rfl, by decide +kernel, by decide +kernel, by decide +kernel, by decide, ?_⟩
  refine (List.pairwise_cons.mp pairs).1 _ (.tail _ (.head _)) rfl rfl _ _ (by decide +kernel)
    (by decide +kernel) (.inr ⟨?_, ?_⟩)
  · exact not_offered_of_answer rfl (by decide +kernel)
  · exact not_offered_of_answer rfl (by decide +kernel)

end CatalogGraph.Identity
