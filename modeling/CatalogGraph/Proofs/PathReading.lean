import CatalogGraph.Proofs.PathGrammar

/-!
Reading paths: the reader takes from tokens exactly the paths that the tokens derive.
-/
namespace CatalogGraph.XPath
variable {namespaces : Entries String}

section Outcomes
variable {ε α β γ : Type} {x : Except ε α} {a : α} {b : β}

theorem bind_of_ok {f : α → Except ε β} (given : x = .ok a) : (x >>= f) = f a := by
  rw [given]
  rfl

theorem map_of_ok {f : α → β} (given : x = .ok a) : x.map f = .ok (f a) := by
  rw [given]
  rfl

theorem exists_of_bind {f : α → Except ε β} (given : (x >>= f) = .ok b) :
    ∃ a, x = .ok a ∧ f a = .ok b := by
  cases x with
  | error => cases given
  | ok a => exact ⟨a, rfl, given⟩

theorem exists_of_map {x : Except ε (α × γ)} {f : α → β} {left : γ}
    (given : (x.map fun (a, left) => (f a, left)) = .ok (b, left)) :
    ∃ a, x = .ok (a, left) ∧ f a = b := by
  cases x with
  | error => cases given
  | ok read =>
    cases given
    exact ⟨read.1, rfl, rfl⟩

end Outcomes

section Turns
variable {fuel : Nat} {tokens rest : List Token} {c : Condition}

theorem predicates_end (stops : rest.head? ≠ some .openBracket) :
    predicates namespaces (fuel + 1) rest = .ok ([], rest) := by
  unfold predicates
  split <;> simp_all

theorem predicates_filter {left : List Token} {ps : List Predicate}
    (begins : tokens.head?.any Token.begins)
    (condition : disjunction namespaces fuel tokens = .ok (c, .closeBracket :: left))
    (more : predicates namespaces fuel left = .ok (ps, rest)) :
    predicates namespaces (fuel + 1) (.openBracket :: tokens) = .ok (.filter c :: ps, rest) := by
  unfold predicates
  split
  next same =>
    obtain ⟨_, rfl⟩ := List.cons.inj same
    cases begins
  next same =>
    obtain ⟨_, rfl⟩ := List.cons.inj same
    rw [bind_of_ok condition]
    exact map_of_ok more
  next other => exact absurd rfl (other _)

theorem moreConjuncts_end (stops : rest.head? ≠ some (.name "and")) :
    moreConjuncts namespaces (fuel + 1) c rest = .ok (c, rest) := by
  unfold moreConjuncts
  split <;> simp_all

theorem moreAlternatives_end (stops : rest.head? ≠ some (.name "or")) :
    moreAlternatives namespaces (fuel + 1) c rest = .ok (c, rest) := by
  unfold moreAlternatives
  split <;> simp_all

theorem steps_end {s : Step} (first : step namespaces fuel tokens = .ok (s, rest))
    (stops : rest.head?.any Token.joins = false) :
    steps namespaces (fuel + 1) tokens = .ok ([s], rest) := by
  unfold steps
  rw [bind_of_ok first]
  cases rest with
  | nil => rfl
  | cons t rest => cases t <;> first | rfl | cases stops

theorem locationPath_relative {ss : List Step} (starts : tokens.head?.any Token.startsStep)
    (read : steps namespaces fuel tokens = .ok (ss, rest)) :
    locationPath namespaces (fuel + 1) tokens = .ok (.mk false ss, rest) := by
  unfold locationPath
  split
  next => cases starts
  next => cases starts
  next => exact map_of_ok read

/-- What a comparison makes of a path and of what follows it. -/
def compared (p : LocationPath) : List Token → Except Fault (Condition × List Token)
  | .equals :: rest => (literal rest).map fun (s, left) => (.equals p s, left)
  | .differs :: rest => (literal rest).map fun (s, left) => (.differs p s, left)
  | rest => .ok (.present p, rest)

theorem comparison_of_path {p : LocationPath} {left : List Token}
    (read : locationPath namespaces fuel tokens = .ok (p, left))
    (begins : tokens.head?.any Token.beginsPath)
    (positive : ∀ more, tokens ≠ .name "not" :: .openParenthesis :: more) :
    comparison namespaces (fuel + 1) tokens = compared p left := by
  unfold comparison
  split
  next => exact absurd rfl (positive _)
  next => cases begins
  next =>
    rw [bind_of_ok read]
    cases left with
    | nil => rfl
    | cons t left => cases t <;> rfl

theorem literal_of_isLiteral {value : String} {t : Token} (isLiteral : IsLiteral value t) :
    literal (t :: rest) = .ok (value, rest) := by
  cases isLiteral <;> rfl

end Turns

section Completeness
variable {ts us : List Token}

/-- The reader takes a phrase from its tokens, whatever follows that does not belong to it. The
readers of conjunctions and disjunctions so come to the place where they look for more of them. -/
def Reads (namespaces : Entries String) : Phrase → List Token → Prop
  | .path p, ts => ∀ fuel rest, 8 * ts.length + 2 ≤ fuel → Ends Token.joins ts rest →
      locationPath namespaces fuel (ts ++ rest) = .ok (p, rest)
  | .steps ss, ts => ∀ fuel rest, 8 * ts.length + 1 ≤ fuel → rest.head?.any Token.joins = false →
      steps namespaces fuel (ts ++ rest) = .ok (ss, rest)
  | .step s, ts => ∀ fuel rest, 8 * ts.length ≤ fuel → rest.head?.any Token.opens = false →
      step namespaces fuel (ts ++ rest) = .ok (s, rest)
  | .predicates ps, ts => ∀ fuel rest, 8 * ts.length + 1 ≤ fuel →
      rest.head?.any Token.opens = false →
      predicates namespaces fuel (ts ++ rest) = .ok (ps, rest)
  | .comparison c, ts => ∀ fuel rest, 8 * ts.length + 3 ≤ fuel → Ends Token.compares ts rest →
      comparison namespaces fuel (ts ++ rest) = .ok (c, rest)
  | .conjunction c, ts => ∀ fuel rest, 8 * ts.length + 4 ≤ fuel → Ends Token.compares ts rest →
      ∃ left, fuel ≤ left + ts.length ∧
        conjunction namespaces fuel (ts ++ rest) = moreConjuncts namespaces left c rest
  | .disjunction c, ts => ∀ fuel rest, 8 * ts.length + 5 ≤ fuel → Ends Token.compares ts rest →
      rest.head? ≠ some (.name "and") →
      ∃ left, fuel ≤ left + ts.length ∧
        disjunction namespaces fuel (ts ++ rest) = moreAlternatives namespaces left c rest

theorem exists_succ {n fuel : Nat} (bound : n + 1 ≤ fuel) : ∃ k, fuel = k + 1 ∧ n ≤ k :=
  ⟨fuel - 1, by omega, by omega⟩

theorem length_pos_of_head {p : Token → Bool} (head : ts.head?.any p) : 0 < ts.length := by
  cases ts with
  | nil => cases head
  | cons => simp

theorem not_opens_of_joins {rest : List Token} (stops : rest.head?.any Token.joins = false) :
    rest.head?.any Token.opens = false := by
  cases rest with
  | nil => rfl
  | cons t rest => cases t <;> first | rfl | cases stops

theorem Reads.conjunction_whole {c : Condition} (reads : Reads namespaces (.conjunction c) ts)
    {fuel : Nat} {rest : List Token} (bound : 8 * ts.length + 4 ≤ fuel)
    (ends : Ends Token.compares ts rest) (stops : rest.head? ≠ some (.name "and")) :
    conjunction namespaces fuel (ts ++ rest) = .ok (c, rest) := by
  obtain ⟨left, enough, read⟩ := reads fuel rest bound ends
  obtain ⟨left, rfl, _⟩ := exists_succ (show 0 + 1 ≤ left by omega)
  rw [read, moreConjuncts_end stops]

theorem Reads.disjunction_whole {c : Condition} (reads : Reads namespaces (.disjunction c) ts)
    {fuel : Nat} {t : Token} {rest : List Token} (bound : 8 * ts.length + 5 ≤ fuel)
    (closes : t = .closeBracket ∨ t = .closeParenthesis) :
    disjunction namespaces fuel (ts ++ t :: rest) = .ok (c, t :: rest) := by
  have ends : Ends Token.compares ts (t :: rest) := by
    rcases closes with rfl | rfl <;> exact ⟨rfl, fun _ => rfl⟩
  have stops : (t :: rest).head? ≠ some (.name "and") := by rcases closes with rfl | rfl <;> simp
  obtain ⟨left, enough, read⟩ := reads fuel (t :: rest) bound ends stops
  obtain ⟨left, rfl, _⟩ := exists_succ (show 0 + 1 ≤ left by omega)
  rw [read, moreAlternatives_end (by rcases closes with rfl | rfl <;> simp)]

theorem reads_relative {ss : List Step} (steps : Derives namespaces (.steps ss) ts)
    (reads : Reads namespaces (.steps ss) ts) : Reads namespaces (.path (.mk false ss)) ts := by
  intro fuel rest bound ends
  obtain ⟨fuel, rfl, _⟩ := exists_succ bound
  exact locationPath_relative (head_append steps.steps_start)
    (reads fuel rest (by omega) ends.stops)

theorem reads_root : Reads namespaces (.path (.mk true [])) [.slash] := by
  intro fuel rest bound ends
  obtain ⟨fuel, rfl, _⟩ := exists_succ bound
  have alone : ¬ rest.head?.any Token.startsStep = true := by simp [ends.apart rfl]
  rw [List.singleton_append, locationPath, if_neg alone]

theorem reads_absolute {ss : List Step} (steps : Derives namespaces (.steps ss) ts)
    (reads : Reads namespaces (.steps ss) ts) :
    Reads namespaces (.path (.mk true ss)) (.slash :: ts) := by
  intro fuel rest bound ends
  rw [List.length_cons] at bound
  obtain ⟨fuel, rfl, _⟩ := exists_succ bound
  rw [List.cons_append, locationPath, if_pos (head_append steps.steps_start)]
  exact map_of_ok (reads fuel rest (by omega) ends.stops)

theorem reads_anywhere {ss : List Step} (reads : Reads namespaces (.steps ss) ts) :
    Reads namespaces (.path (.mk true (.descendants :: ss))) (.doubleSlash :: ts) := by
  intro fuel rest bound ends
  rw [List.length_cons] at bound
  obtain ⟨fuel, rfl, _⟩ := exists_succ bound
  exact map_of_ok (reads fuel rest (by omega) ends.stops)

theorem reads_last {s : Step} (reads : Reads namespaces (.step s) ts) :
    Reads namespaces (.steps [s]) ts := by
  intro fuel rest bound stops
  obtain ⟨fuel, rfl, _⟩ := exists_succ bound
  exact steps_end (reads fuel rest (by omega) (not_opens_of_joins stops)) stops

theorem reads_slash {s : Step} {ss : List Step} (first : Reads namespaces (.step s) ts)
    (more : Reads namespaces (.steps ss) us) :
    Reads namespaces (.steps (s :: ss)) (ts ++ .slash :: us) := by
  intro fuel rest bound stops
  rw [List.length_append, List.length_cons] at bound
  obtain ⟨fuel, rfl, _⟩ := exists_succ bound
  rw [List.append_assoc, List.cons_append, steps,
    bind_of_ok (first fuel (.slash :: (us ++ rest)) (by omega) rfl)]
  exact map_of_ok (more fuel rest (by omega) stops)

theorem reads_doubleSlash {s : Step} {ss : List Step} (first : Reads namespaces (.step s) ts)
    (more : Reads namespaces (.steps ss) us) :
    Reads namespaces (.steps (s :: .descendants :: ss)) (ts ++ .doubleSlash :: us) := by
  intro fuel rest bound stops
  rw [List.length_append, List.length_cons] at bound
  obtain ⟨fuel, rfl, _⟩ := exists_succ bound
  rw [List.append_assoc, List.cons_append, steps,
    bind_of_ok (first fuel (.doubleSlash :: (us ++ rest)) (by omega) rfl)]
  exact map_of_ok (more fuel rest (by omega) stops)

theorem reads_step {axis : Axis} {test : NodeTest} {ps : List Predicate}
    (head : IsHead namespaces axis test ts) (predicates : Derives namespaces (.predicates ps) us)
    (reads : Reads namespaces (.predicates ps) us) :
    Reads namespaces (.step (.mk axis test ps)) (ts ++ us) := by
  intro fuel rest bound stops
  have filled := length_pos_of_head head.starts
  rw [List.length_append] at bound
  obtain ⟨fuel, rfl, _⟩ := exists_succ (show 0 + 1 ≤ fuel by omega)
  rw [List.append_assoc, step,
    bind_of_ok (stepHead_of_isHead head (predicates.predicates_begin stops))]
  dsimp only
  rw [bind_of_ok (reads fuel rest (by omega) stops)]

theorem reads_noPredicate : Reads namespaces (.predicates []) [] := by
  intro fuel rest bound stops
  obtain ⟨fuel, rfl, _⟩ := exists_succ bound
  rw [List.nil_append]
  refine predicates_end fun next => ?_
  rw [next] at stops
  cases stops

theorem reads_position {n : Nat} {ps : List Predicate} (positive : n ≠ 0)
    (reads : Reads namespaces (.predicates ps) ts) :
    Reads namespaces (.predicates (.position n :: ps))
      (.openBracket :: .number n :: .closeBracket :: ts) := by
  intro fuel rest bound stops
  simp only [List.length_cons] at bound
  obtain ⟨fuel, rfl, _⟩ := exists_succ bound
  simp only [List.cons_append, predicates, if_neg positive]
  exact map_of_ok (reads fuel rest (by omega) stops)

theorem reads_filter {c : Condition} {ps : List Predicate}
    (condition : Derives namespaces (.disjunction c) ts)
    (reads : Reads namespaces (.disjunction c) ts) (more : Reads namespaces (.predicates ps) us) :
    Reads namespaces (.predicates (.filter c :: ps))
      (.openBracket :: (ts ++ .closeBracket :: us)) := by
  intro fuel rest bound stops
  simp only [List.length_cons, List.length_append] at bound
  obtain ⟨fuel, rfl, _⟩ := exists_succ bound
  rw [List.cons_append, List.append_assoc, List.cons_append]
  exact predicates_filter (head_append (condition.condition_begins trivial))
    (reads.disjunction_whole (by omega) (.inl rfl)) (more fuel rest (by omega) stops)

theorem reads_compared {p : LocationPath} (path : Derives namespaces (.path p) ts)
    (reads : Reads namespaces (.path p) ts) {fuel : Nat} {rest : List Token}
    (bound : 8 * ts.length + 3 ≤ fuel) (ends : Ends Token.joins ts rest) :
    comparison namespaces fuel (ts ++ rest) = compared p rest := by
  obtain ⟨fuel, rfl, _⟩ := exists_succ bound
  exact comparison_of_path (reads fuel rest (by omega) ends) (head_append path.path_begins)
    (path.not_negation (not_opens_of_joins ends.stops))

theorem reads_present {p : LocationPath} (path : Derives namespaces (.path p) ts)
    (reads : Reads namespaces (.path p) ts) : Reads namespaces (.comparison (.present p)) ts := by
  intro fuel rest bound ends
  rw [reads_compared path reads bound (ends.mono fun t joins => by simp [Token.compares, joins])]
  have stops := ends.stops
  cases rest with
  | nil => rfl
  | cons t rest => cases t <;> first | rfl | cases stops

theorem reads_equals {p : LocationPath} {value : String} {t : Token}
    (path : Derives namespaces (.path p) ts) (reads : Reads namespaces (.path p) ts)
    (isLiteral : IsLiteral value t) :
    Reads namespaces (.comparison (.equals p value)) (ts ++ [.equals, t]) := by
  intro fuel rest bound _
  rw [List.length_append] at bound
  rw [List.append_assoc, reads_compared path reads (by omega) ⟨rfl, fun _ => rfl⟩]
  exact map_of_ok (literal_of_isLiteral isLiteral)

theorem reads_differs {p : LocationPath} {value : String} {t : Token}
    (path : Derives namespaces (.path p) ts) (reads : Reads namespaces (.path p) ts)
    (isLiteral : IsLiteral value t) :
    Reads namespaces (.comparison (.differs p value)) (ts ++ [.differs, t]) := by
  intro fuel rest bound _
  rw [List.length_append] at bound
  rw [List.append_assoc, reads_compared path reads (by omega) ⟨rfl, fun _ => rfl⟩]
  exact map_of_ok (literal_of_isLiteral isLiteral)

theorem reads_not {c : Condition} (reads : Reads namespaces (.disjunction c) ts) :
    Reads namespaces (.comparison (.not c))
      (.name "not" :: .openParenthesis :: (ts ++ [.closeParenthesis])) := by
  intro fuel rest bound _
  simp only [List.length_cons, List.length_append] at bound
  obtain ⟨fuel, rfl, _⟩ := exists_succ bound
  rw [List.cons_append, List.cons_append, List.append_assoc, comparison]
  rw [List.singleton_append, bind_of_ok (reads.disjunction_whole (by omega) (.inr rfl))]

theorem reads_parentheses {c : Condition} (reads : Reads namespaces (.disjunction c) ts) :
    Reads namespaces (.comparison c) (.openParenthesis :: (ts ++ [.closeParenthesis])) := by
  intro fuel rest bound _
  simp only [List.length_cons, List.length_append] at bound
  obtain ⟨fuel, rfl, _⟩ := exists_succ bound
  rw [List.cons_append, List.append_assoc, comparison]
  rw [List.singleton_append, bind_of_ok (reads.disjunction_whole (by omega) (.inr rfl))]

theorem reads_conjunct {c : Condition} (comparison : Derives namespaces (.comparison c) ts)
    (reads : Reads namespaces (.comparison c) ts) : Reads namespaces (.conjunction c) ts := by
  intro fuel rest bound ends
  have filled := length_pos_of_head (comparison.condition_begins trivial)
  obtain ⟨fuel, rfl, _⟩ := exists_succ bound
  exact ⟨fuel, by omega, by rw [conjunction, bind_of_ok (reads fuel rest (by omega) ends)]⟩

theorem reads_and {l r : Condition} (left : Reads namespaces (.conjunction l) ts)
    (apart : ts.getLast? ≠ some .slash) (right : Reads namespaces (.comparison r) us) :
    Reads namespaces (.conjunction (.and l r)) (ts ++ .name "and" :: us) := by
  intro fuel rest bound ends
  rw [List.length_append, List.length_cons] at bound ⊢
  -- The conjuncts on the left are read up to the connective, where the search for more goes on.
  obtain ⟨fuel', enough, read⟩ := left fuel (.name "and" :: (us ++ rest)) (by omega)
    ⟨rfl, fun last => absurd last apart⟩
  obtain ⟨fuel', rfl, _⟩ := exists_succ (show 0 + 1 ≤ fuel' by omega)
  have behind : Ends Token.compares us rest := by
    rw [← List.singleton_append, ← List.append_assoc] at ends
    exact ends.right
  refine ⟨fuel', by omega, ?_⟩
  rw [List.append_assoc, List.cons_append, read, moreConjuncts,
    bind_of_ok (right fuel' rest (by omega) behind)]

theorem reads_alternative {c : Condition} (conjunction : Derives namespaces (.conjunction c) ts)
    (reads : Reads namespaces (.conjunction c) ts) : Reads namespaces (.disjunction c) ts := by
  intro fuel rest bound ends stops
  have filled := length_pos_of_head (conjunction.condition_begins trivial)
  obtain ⟨fuel, rfl, _⟩ := exists_succ bound
  refine ⟨fuel, by omega, ?_⟩
  rw [disjunction, bind_of_ok (reads.conjunction_whole (by omega) ends stops)]

theorem reads_or {l r : Condition} (left : Reads namespaces (.disjunction l) ts)
    (apart : ts.getLast? ≠ some .slash) (right : Reads namespaces (.conjunction r) us) :
    Reads namespaces (.disjunction (.or l r)) (ts ++ .name "or" :: us) := by
  intro fuel rest bound ends stops
  rw [List.length_append, List.length_cons] at bound ⊢
  obtain ⟨fuel', enough, read⟩ := left fuel (.name "or" :: (us ++ rest)) (by omega)
    ⟨rfl, fun last => absurd last apart⟩ (by simp)
  obtain ⟨fuel', rfl, _⟩ := exists_succ (show 0 + 1 ≤ fuel' by omega)
  have behind : Ends Token.compares us rest := by
    rw [← List.singleton_append, ← List.append_assoc] at ends
    exact ends.right
  refine ⟨fuel', by omega, ?_⟩
  rw [List.append_assoc, List.cons_append, read, moreAlternatives,
    bind_of_ok (right.conjunction_whole (by omega) behind stops)]

theorem Derives.reads {phrase : Phrase} (h : Derives namespaces phrase ts) :
    Reads namespaces phrase ts := by
  induction h with
  | relative steps ih => exact reads_relative steps ih
  | root => exact reads_root
  | absolute steps ih => exact reads_absolute steps ih
  | anywhere _ ih => exact reads_anywhere ih
  | last _ ih => exact reads_last ih
  | slash _ _ first more => exact reads_slash first more
  | doubleSlash _ _ first more => exact reads_doubleSlash first more
  | step head predicates ih => exact reads_step head predicates ih
  | noPredicate => exact reads_noPredicate
  | position positive _ ih => exact reads_position positive ih
  | filter condition _ first more => exact reads_filter condition first more
  | present path ih => exact reads_present path ih
  | equals path isLiteral ih => exact reads_equals path ih isLiteral
  | differs path isLiteral ih => exact reads_differs path ih isLiteral
  | not _ ih => exact reads_not ih
  | parentheses _ ih => exact reads_parentheses ih
  | conjunct comparison ih => exact reads_conjunct comparison ih
  | and _ apart _ left right => exact reads_and left apart right
  | alternative conjunction ih => exact reads_alternative conjunction ih
  | or _ apart _ left right => exact reads_or left apart right

/-- The path that tokens derive is read. -/
theorem parseTokens_of_derives {p : LocationPath} (h : Derives namespaces (.path p) ts) :
    parseTokens namespaces ts = .ok p := by
  have read := h.reads (readingSteps ts) [] (by simp [readingSteps]) ⟨rfl, fun _ => rfl⟩
  rw [List.append_nil] at read
  rw [parseTokens, bind_of_ok read]
  rfl

end Completeness

section Soundness
variable {ts us tokens rest : List Token} {fuel : Nat}

theorem last_append (first : ts.getLast? ≠ some .slash) (second : us.getLast? ≠ some .slash) :
    (ts ++ us).getLast? ≠ some .slash := by
  rw [List.getLast?_append]
  cases last : us.getLast? with
  | none => exact first
  | some t => rwa [last] at second

theorem last_behind {t : Token} (filled : us ≠ []) : (ts ++ t :: us).getLast? = us.getLast? := by
  rw [List.getLast?_append, List.getLast?_cons_of_ne_nil filled]
  exact Option.or_of_isSome (by simpa using filled)

theorem Derives.predicates_last {ps : List Predicate} (h : Derives namespaces (.predicates ps) ts) :
    ts.getLast? ≠ some .slash := by
  generalize same : Phrase.predicates ps = phrase at h
  induction h generalizing ps with
  | noPredicate => simp
  | @position n _ ts _ _ ih =>
    have last : [Token.openBracket, .number n, .closeBracket].getLast? ≠ some .slash := by simp
    exact last_append last (ih rfl)
  | @filter _ _ ts us _ _ _ ih =>
    have last : (.openBracket :: ts ++ [.closeBracket] : List Token).getLast? ≠ some .slash := by
      rw [List.getLast?_concat]
      simp
    simpa using last_append last (ih rfl)
  | _ => cases same

theorem Derives.step_last {s : Step} (h : Derives namespaces (.step s) ts) :
    ts.getLast? ≠ some .slash := by
  cases h with
  | step head predicates => exact last_append (by cases head <;> simp) predicates.predicates_last

/-- Steps do not end in a slash, whatever stands in front of them. -/
theorem Derives.steps_last {ss : List Step} (h : Derives namespaces (.steps ss) ts)
    (before : List Token) : (before ++ ts).getLast? ≠ some .slash := by
  generalize same : Phrase.steps ss = phrase at h
  induction h generalizing ss before with
  | @last _ ts step =>
    cases last : ts.getLast? with
    | none =>
      have starts := step.step_starts
      rw [List.getLast?_eq_none_iff.mp last] at starts
      cases starts
    | some t =>
      have parted := step.step_last
      rw [List.getLast?_append, last]
      rwa [last] at parted
  | @slash _ _ ts us _ _ _ ih =>
    rw [← List.singleton_append, ← List.append_assoc, ← List.append_assoc]
    exact ih _ rfl
  | @doubleSlash _ _ ts us _ _ _ ih =>
    rw [← List.singleton_append, ← List.append_assoc, ← List.append_assoc]
    exact ih _ rfl
  | _ => cases same

/-- Tokens begin with those of a phrase, which a slash at its end ends in front of the rest. -/
def Found (namespaces : Entries String) (phrase : Phrase) (tokens rest : List Token) : Prop :=
  ∃ ts, tokens = ts ++ rest ∧ Derives namespaces phrase ts ∧
    (ts.getLast? = some .slash → rest.head?.any Token.startsStep = false)

/-- With such fuel, the readers find what they give. -/
structure Sound (namespaces : Entries String) (fuel : Nat) : Prop where
  path {tokens rest : List Token} {p : LocationPath} :
    locationPath namespaces fuel tokens = .ok (p, rest) → Found namespaces (.path p) tokens rest
  steps {tokens rest : List Token} {ss : List Step} :
    steps namespaces fuel tokens = .ok (ss, rest) → Found namespaces (.steps ss) tokens rest
  step {tokens rest : List Token} {s : Step} :
    step namespaces fuel tokens = .ok (s, rest) → Found namespaces (.step s) tokens rest
  predicates {tokens rest : List Token} {ps : List Predicate} :
    predicates namespaces fuel tokens = .ok (ps, rest) →
    Found namespaces (.predicates ps) tokens rest
  comparison {tokens rest : List Token} {c : Condition} :
    comparison namespaces fuel tokens = .ok (c, rest) → Found namespaces (.comparison c) tokens rest
  conjunction {tokens rest : List Token} {c : Condition} :
    conjunction namespaces fuel tokens = .ok (c, rest) →
    Found namespaces (.conjunction c) tokens rest
  moreConjuncts {tokens left rest : List Token} {l c : Condition} :
    Found namespaces (.conjunction l) tokens left →
    moreConjuncts namespaces fuel l left = .ok (c, rest) →
    Found namespaces (.conjunction c) tokens rest
  disjunction {tokens rest : List Token} {c : Condition} :
    disjunction namespaces fuel tokens = .ok (c, rest) →
    Found namespaces (.disjunction c) tokens rest
  moreAlternatives {tokens left rest : List Token} {l c : Condition} :
    Found namespaces (.disjunction l) tokens left →
    moreAlternatives namespaces fuel l left = .ok (c, rest) →
    Found namespaces (.disjunction c) tokens rest

theorem found_path {p : LocationPath} (sound : Sound namespaces fuel)
    (read : locationPath namespaces (fuel + 1) tokens = .ok (p, rest)) :
    Found namespaces (.path p) tokens rest := by
  unfold locationPath at read
  split at read
  next =>
    split at read
    next =>
      obtain ⟨ss, found, rfl⟩ := exists_of_map read
      obtain ⟨ts, rfl, steps, _⟩ := sound.steps found
      exact ⟨_, rfl, .absolute steps, fun last => absurd last (steps.steps_last [.slash])⟩
    next alone =>
      cases read
      exact ⟨[.slash], rfl, .root, fun _ => by simpa using alone⟩
  next =>
    obtain ⟨ss, found, rfl⟩ :=
      exists_of_map (f := fun ss => LocationPath.mk true (.descendants :: ss)) read
    obtain ⟨ts, rfl, steps, _⟩ := sound.steps found
    exact ⟨_, rfl, .anywhere steps, fun last => absurd last (steps.steps_last [.doubleSlash])⟩
  next =>
    obtain ⟨ss, found, rfl⟩ := exists_of_map read
    obtain ⟨ts, rfl, steps, _⟩ := sound.steps found
    exact ⟨_, rfl, .relative steps, fun last => absurd last (steps.steps_last [])⟩

theorem found_steps {ss : List Step} (sound : Sound namespaces fuel)
    (read : steps namespaces (fuel + 1) tokens = .ok (ss, rest)) :
    Found namespaces (.steps ss) tokens rest := by
  unfold steps at read
  obtain ⟨⟨s, left⟩, first, more⟩ := exists_of_bind read
  obtain ⟨ts, rfl, step, _⟩ := sound.step first
  dsimp only at more
  split at more
  next =>
    obtain ⟨ss, found, rfl⟩ := exists_of_map more
    obtain ⟨us, rfl, steps, _⟩ := sound.steps found
    have all := Derives.slash step steps
    exact ⟨_, by simp, all, fun last => absurd last (all.steps_last [])⟩
  next =>
    obtain ⟨ss, found, rfl⟩ := exists_of_map (f := fun ss => s :: .descendants :: ss) more
    obtain ⟨us, rfl, steps, _⟩ := sound.steps found
    have all := Derives.doubleSlash step steps
    exact ⟨_, by simp, all, fun last => absurd last (all.steps_last [])⟩
  next =>
    cases more
    have all := Derives.last step
    exact ⟨_, rfl, all, fun last => absurd last (all.steps_last [])⟩

theorem found_step {s : Step} (sound : Sound namespaces fuel)
    (read : step namespaces (fuel + 1) tokens = .ok (s, rest)) :
    Found namespaces (.step s) tokens rest := by
  unfold step at read
  obtain ⟨⟨⟨axis, test⟩, left⟩, head, more⟩ := exists_of_bind read
  obtain ⟨ts, rfl, isHead⟩ := isHead_of_stepHead head
  obtain ⟨⟨ps, left⟩, found, same⟩ := exists_of_bind more
  cases same
  obtain ⟨us, rfl, predicates, _⟩ := sound.predicates found
  have all := Derives.step isHead predicates
  exact ⟨_, (List.append_assoc ..).symm, all, fun last => absurd last all.step_last⟩

theorem found_predicates {ps : List Predicate} (sound : Sound namespaces fuel)
    (read : predicates namespaces (fuel + 1) tokens = .ok (ps, rest)) :
    Found namespaces (.predicates ps) tokens rest := by
  unfold predicates at read
  split at read
  next =>
    split at read
    next => cases read
    next positive =>
      obtain ⟨ps, found, rfl⟩ := exists_of_map read
      obtain ⟨ts, rfl, predicates, _⟩ := sound.predicates found
      have all := Derives.position positive predicates
      exact ⟨_, rfl, all, fun last => absurd last all.predicates_last⟩
  next =>
    obtain ⟨⟨c, left⟩, first, more⟩ := exists_of_bind read
    obtain ⟨ts, rfl, condition, _⟩ := sound.disjunction first
    dsimp only at more
    split at more
    next =>
      obtain ⟨ps, found, rfl⟩ := exists_of_map more
      obtain ⟨us, rfl, predicates, _⟩ := sound.predicates found
      have all := Derives.filter condition predicates
      exact ⟨_, by simp, all, fun last => absurd last all.predicates_last⟩
    next => cases more
  next =>
    cases read
    exact ⟨[], rfl, .noPredicate, fun last => by cases last⟩

theorem isLiteral_of_literal {value : String} (read : literal tokens = .ok (value, rest)) :
    ∃ t, tokens = t :: rest ∧ IsLiteral value t := by
  unfold literal at read
  split at read
  next =>
    cases read
    exact ⟨_, rfl, .text _⟩
  next =>
    cases read
    exact ⟨_, rfl, .number _⟩
  next => cases read

theorem found_comparison {c : Condition} (sound : Sound namespaces fuel)
    (read : comparison namespaces (fuel + 1) tokens = .ok (c, rest)) :
    Found namespaces (.comparison c) tokens rest := by
  unfold comparison at read
  split at read
  next =>
    obtain ⟨⟨inner, left⟩, first, more⟩ := exists_of_bind read
    obtain ⟨ts, rfl, condition, _⟩ := sound.disjunction first
    dsimp only at more
    split at more
    next =>
      cases more
      exact ⟨_, by simp, .not condition, fun last => by simp [List.getLast?_cons] at last⟩
    next => cases more
  next =>
    obtain ⟨⟨inner, left⟩, first, more⟩ := exists_of_bind read
    obtain ⟨ts, rfl, condition, _⟩ := sound.disjunction first
    dsimp only at more
    split at more
    next =>
      cases more
      exact ⟨_, by simp, .parentheses condition, fun last => by simp [List.getLast?_cons] at last⟩
    next => cases more
  next =>
    obtain ⟨⟨p, left⟩, first, more⟩ := exists_of_bind read
    obtain ⟨ts, rfl, path, apart⟩ := sound.path first
    dsimp only at more
    split at more
    next =>
      obtain ⟨value, found, rfl⟩ := exists_of_map more
      obtain ⟨t, rfl, isLiteral⟩ := isLiteral_of_literal found
      exact ⟨_, by simp, .equals path isLiteral, fun last => by cases isLiteral <;> simp at last⟩
    next =>
      obtain ⟨value, found, rfl⟩ := exists_of_map more
      obtain ⟨t, rfl, isLiteral⟩ := isLiteral_of_literal found
      exact ⟨_, by simp, .differs path isLiteral, fun last => by cases isLiteral <;> simp at last⟩
    next =>
      cases more
      exact ⟨ts, rfl, .present path, apart⟩

theorem found_conjunction {c : Condition} (sound : Sound namespaces fuel)
    (read : conjunction namespaces (fuel + 1) tokens = .ok (c, rest)) :
    Found namespaces (.conjunction c) tokens rest := by
  unfold conjunction at read
  obtain ⟨⟨l, left⟩, first, more⟩ := exists_of_bind read
  obtain ⟨ts, rfl, comparison, apart⟩ := sound.comparison first
  exact sound.moreConjuncts ⟨ts, rfl, .conjunct comparison, apart⟩ more

theorem found_moreConjuncts {left : List Token} {l c : Condition} (sound : Sound namespaces fuel)
    (before : Found namespaces (.conjunction l) tokens left)
    (read : moreConjuncts namespaces (fuel + 1) l left = .ok (c, rest)) :
    Found namespaces (.conjunction c) tokens rest := by
  unfold moreConjuncts at read
  split at read
  next =>
    obtain ⟨⟨r, left⟩, second, more⟩ := exists_of_bind read
    obtain ⟨ts, rfl, conjunction, apart⟩ := before
    obtain ⟨us, rfl, comparison, apart'⟩ := sound.comparison second
    -- A slash at the end of what was read would have taken the connective for a step.
    have parted : ts.getLast? ≠ some .slash := fun last => by cases apart last
    refine sound.moreConjuncts ⟨_, by simp, .and conjunction parted comparison, ?_⟩ more
    intro last
    rw [last_behind (comparison.condition_ne_nil trivial)] at last
    exact apart' last
  next =>
    cases read
    exact before

theorem found_disjunction {c : Condition} (sound : Sound namespaces fuel)
    (read : disjunction namespaces (fuel + 1) tokens = .ok (c, rest)) :
    Found namespaces (.disjunction c) tokens rest := by
  unfold disjunction at read
  obtain ⟨⟨l, left⟩, first, more⟩ := exists_of_bind read
  obtain ⟨ts, rfl, conjunction, apart⟩ := sound.conjunction first
  exact sound.moreAlternatives ⟨ts, rfl, .alternative conjunction, apart⟩ more

theorem found_moreAlternatives {left : List Token} {l c : Condition}
    (sound : Sound namespaces fuel) (before : Found namespaces (.disjunction l) tokens left)
    (read : moreAlternatives namespaces (fuel + 1) l left = .ok (c, rest)) :
    Found namespaces (.disjunction c) tokens rest := by
  unfold moreAlternatives at read
  split at read
  next =>
    obtain ⟨⟨r, left⟩, second, more⟩ := exists_of_bind read
    obtain ⟨ts, rfl, disjunction, apart⟩ := before
    obtain ⟨us, rfl, conjunction, apart'⟩ := sound.conjunction second
    have parted : ts.getLast? ≠ some .slash := fun last => by cases apart last
    refine sound.moreAlternatives ⟨_, by simp, .or disjunction parted conjunction, ?_⟩ more
    intro last
    rw [last_behind (conjunction.condition_ne_nil trivial)] at last
    exact apart' last
  next =>
    cases read
    exact before

theorem sound_readers (namespaces : Entries String) (fuel : Nat) : Sound namespaces fuel := by
  induction fuel with
  | zero =>
    -- Without fuel every reader fails.
    constructor <;> intros <;> contradiction
  | succ fuel ih =>
    exact {
      path := found_path ih
      steps := found_steps ih
      step := found_step ih
      predicates := found_predicates ih
      comparison := found_comparison ih
      conjunction := found_conjunction ih
      moreConjuncts := found_moreConjuncts ih
      disjunction := found_disjunction ih
      moreAlternatives := found_moreAlternatives ih }

/-- The reader takes from tokens the path that they derive, and no other. -/
theorem parseTokens_eq_ok_iff {p : LocationPath} :
    parseTokens namespaces tokens = .ok p ↔ Derives namespaces (.path p) tokens := by
  refine ⟨fun read => ?_, parseTokens_of_derives⟩
  obtain ⟨⟨p, rest⟩, found, whole⟩ := exists_of_bind read
  obtain ⟨ts, rfl, path, _⟩ := (sound_readers namespaces _).path found
  dsimp only at whole
  split at whole
  next nothing =>
    cases whole
    rwa [List.isEmpty_iff.mp nothing, List.append_nil]
  next => cases whole

end Soundness

end CatalogGraph.XPath
