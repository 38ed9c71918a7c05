import CatalogGraph.Harvest.Listing
import CatalogGraph.Proofs.GraphStatements

/-!
Pages of a listing: what a harvest has after some pages, behind which pages it ends, and which
requests it makes for them.
-/
namespace CatalogGraph.Harvest
variable {σ : Type}

section Pages

/-- The identifiers of pages, each once, in the order in which they are listed first. -/
def identifiersOf (pages : List ListingPage) : List String :=
  (pages.flatMap (·.identifiers)).eraseDups

/-- The size of the listing as it was stated last. -/
def declaredTotal? (pages : List ListingPage) : Option Nat :=
  pages.reverse.findSome? (·.size)

def lastToken? (pages : List ListingPage) : Option String :=
  pages.getLast?.bind (·.token)

/-- There are as many identifiers as were stated last. -/
def ReachesTotal (pages : List ListingPage) : Prop :=
  ∃ total, declaredTotal? pages = some total ∧ total ≤ (identifiersOf pages).length

/-- The last page brings no identifier, and the token that it was asked with. -/
def Repeats (pages : List ListingPage) : Prop :=
  ∃ earlier page token, pages = earlier ++ [page] ∧ lastToken? earlier = some token ∧
    page.token = some token ∧ page.identifiers ⊆ earlier.flatMap (·.identifiers)

/-- Behind these pages a listing ends. -/
def Ends (pages : List ListingPage) : Prop :=
  lastToken? pages = none ∨ ReachesTotal pages ∨ Repeats pages

@[simp] theorem lastToken?_concat (pages : List ListingPage) (page : ListingPage) :
    lastToken? (pages ++ [page]) = page.token := by
  simp [lastToken?]

theorem lastToken?_take_succ {pages : List ListingPage} {k : Nat}
    (short : k < pages.length) :
    lastToken? (pages.take (k + 1)) = pages[k].token := by
  rw [List.take_succ_eq_append_getElem short, lastToken?_concat]

theorem declaredTotal?_concat (pages : List ListingPage) (page : ListingPage) :
    declaredTotal? (pages ++ [page]) = page.size.or (declaredTotal? pages) := by
  cases h : page.size <;> simp [declaredTotal?, h]

theorem lastToken?_cons (page : ListingPage) {rest : List ListingPage} (more : rest ≠ []) :
    lastToken? (page :: rest) = lastToken? rest := by
  rw [← List.dropLast_concat_getLast more, ← List.cons_append, lastToken?_concat,
    lastToken?_concat]

theorem repeats_concat {pages : List ListingPage} {page : ListingPage} :
    Repeats (pages ++ [page]) ↔ ∃ token, lastToken? pages = some token ∧
      page.token = some token ∧ page.identifiers ⊆ pages.flatMap (·.identifiers) := by
  constructor
  · rintro ⟨earlier, last, token, same, asked, again, known⟩
    obtain ⟨rfl, rfl⟩ : pages = earlier ∧ page = last := by simpa using List.append_inj' same rfl
    exact ⟨token, asked, again, known⟩
  · rintro ⟨token, asked, again, known⟩
    exact ⟨pages, page, token, rfl, asked, again, known⟩

theorem not_repeats_singleton (page : ListingPage) : ¬ Repeats [page] := by
  intro again
  obtain ⟨token, asked, _⟩ := repeats_concat.mp (show Repeats ([] ++ [page]) from again)
  cases asked

/-- What a state lists has no repeats, and is what it knows. -/
structure HarvestState.IsCoherent (state : HarvestState) : Prop where
  nodup : state.identifiers.Nodup
  contains_iff : ∀ identifier, state.contains identifier ↔ identifier ∈ state.identifiers

theorem HarvestState.IsCoherent.identifiers_add {state : HarvestState}
    (coherent : state.IsCoherent) (identifier : String) :
    (state.add identifier).identifiers = (state.identifiers ++ [identifier]).eraseDups := by
  rw [eraseDups_concat, eraseDups_of_nodup coherent.nodup, add]
  by_cases listed : identifier ∈ state.identifiers <;> simp [coherent.contains_iff, listed]

theorem HarvestState.IsCoherent.add {state : HarvestState} (coherent : state.IsCoherent)
    (identifier : String) : (state.add identifier).IsCoherent where
  nodup := by
    rw [coherent.identifiers_add]
    exact nodup_eraseDups _
  contains_iff other := by
    have known : other ∈ state.seen ↔ other ∈ state.identifiers := by
      simpa [contains] using coherent.contains_iff other
    unfold HarvestState.add
    split
    · exact coherent.contains_iff other
    · simp [contains, known, or_comm]

theorem HarvestState.IsCoherent.foldl_add {state : HarvestState} (coherent : state.IsCoherent)
    (identifiers : List String) : (identifiers.foldl HarvestState.add state).IsCoherent ∧
      (identifiers.foldl HarvestState.add state).identifiers =
        (state.identifiers ++ identifiers).eraseDups := by
  induction identifiers generalizing state with
  | nil => exact ⟨coherent, by rw [List.append_nil, eraseDups_of_nodup coherent.nodup]; rfl⟩
  | cons identifier rest ih =>
    obtain ⟨coherent', listed⟩ := ih (coherent.add identifier)
    refine ⟨coherent', ?_⟩
    rw [List.foldl_cons, listed, coherent.identifiers_add,
      eraseDups_append_congr (eraseDups_eraseDups _) rfl, List.append_assoc, List.singleton_append]

theorem seen_foldl_add {state : HarvestState} (reversed : state.seen = state.identifiers.reverse)
    (identifiers : List String) : (identifiers.foldl HarvestState.add state).seen =
      (identifiers.foldl HarvestState.add state).identifiers.reverse := by
  induction identifiers generalizing state with
  | nil => exact reversed
  | cons identifier rest ih =>
    apply ih
    rw [HarvestState.add]
    split
    · exact reversed
    · simp [reversed]

/-- A harvest is in a state after it has taken up pages. -/
structure Took (state : HarvestState) (pages : List ListingPage) : Prop where
  identifiers : state.identifiers = identifiersOf pages
  seen : state.seen = state.identifiers.reverse
  token : state.token = lastToken? pages
  total : state.total = declaredTotal? pages
  count : state.pages = pages.length

theorem Took.isCoherent {state : HarvestState} {pages : List ListingPage}
    (took : Took state pages) : state.IsCoherent where
  nodup := by
    rw [took.identifiers]
    exact nodup_eraseDups _
  contains_iff identifier := by simp [HarvestState.contains, took.seen]

theorem Took.absorb {state : HarvestState} {pages : List ListingPage} (took : Took state pages)
    (page : ListingPage) : Took (state.absorb page) (pages ++ [page]) where
  identifiers := by
    have added := (took.isCoherent.foldl_add page.identifiers).2
    rw [took.identifiers, identifiersOf,
      eraseDups_append_congr (eraseDups_eraseDups _) rfl] at added
    rw [identifiersOf, List.flatMap_append, List.flatMap_singleton, ← added]
    rfl
  seen := seen_foldl_add took.seen page.identifiers
  token := by simp [HarvestState.absorb]
  total := by rw [declaredTotal?_concat, HarvestState.absorb, took.total]
  count := by simp [HarvestState.absorb, took.count]

theorem Took.phase {state : HarvestState} {pages : List ListingPage} (took : Took state pages)
    (phase : Phase) : Took { state with phase } pages :=
  ⟨took.identifiers, took.seen, took.token, took.total, took.count⟩

theorem took_nil (phase : Phase) : Took { phase } [] :=
  ⟨rfl, rfl, rfl, rfl, rfl⟩

theorem Took.hasReachedTotal_iff {state : HarvestState} {pages : List ListingPage}
    (took : Took state pages) : state.hasReachedTotal ↔ ReachesTotal pages := by
  unfold HarvestState.hasReachedTotal ReachesTotal
  rw [took.total, took.identifiers]
  cases declaredTotal? pages <;> simp

theorem Took.nextToken?_eq_none_iff {state : HarvestState} {pages : List ListingPage}
    (took : Took state pages) :
    state.nextToken? = none ↔ lastToken? pages = none ∨ ReachesTotal pages := by
  unfold HarvestState.nextToken?
  rw [← took.hasReachedTotal_iff, ← took.token]
  by_cases reached : state.hasReachedTotal <;> simp [reached]

theorem Took.nextToken?_eq_some_iff {state : HarvestState} {pages : List ListingPage}
    {token : String} (took : Took state pages) :
    state.nextToken? = some token ↔ lastToken? pages = some token ∧ ¬ ReachesTotal pages := by
  unfold HarvestState.nextToken?
  rw [← took.token, ← took.hasReachedTotal_iff]
  by_cases reached : state.hasReachedTotal <;> simp [reached]

theorem Took.isStuck_iff {state : HarvestState} {pages : List ListingPage} {token : String}
    (took : Took state pages) (asked : lastToken? pages = some token) (page : ListingPage) :
    isStuck state ({ state with phase := .resuming }.absorb page) token ↔
      Repeats (pages ++ [page]) := by
  have next := (took.phase .resuming).absorb page
  unfold isStuck
  rw [next.identifiers, next.token, took.identifiers, Bool.and_eq_true, beq_iff_eq, beq_iff_eq,
    repeats_concat, identifiersOf, identifiersOf, List.flatMap_append,
    length_eraseDups_append_eq_iff]
  simp [asked, and_comm]

end Pages

section Runs
variable {repository : Repository σ} {state : HarvestState} {token : String} {s t : σ}
  {left : Nat} {page : ListingPage} {cause : HarvestError}

theorem resumeListing_done (none : state.nextToken? = none) :
    resumeListing repository (left + 1) state s = (.ok state, s) := by
  simp [resumeListing, none]

theorem resumeListing_cancelled (some : state.nextToken? = some token)
    (stopped : repository.isCancelled s = true) :
    resumeListing repository (left + 1) state s = (.error (.cancelled state), s) := by
  simp [resumeListing, some, stopped]

theorem resumeListing_refused (some : state.nextToken? = some token)
    (going : repository.isCancelled s = false)
    (answer : repository.list (.resume token) s = (.error cause, t)) :
    resumeListing repository (left + 1) state s =
      (.error (.page (state.pages + 1) { state with phase := .resuming } cause), t) := by
  simp [resumeListing, some, going, fetchPage, answer]

theorem resumeListing_stuck (some : state.nextToken? = some token)
    (going : repository.isCancelled s = false)
    (answer : repository.list (.resume token) s = (.ok page, t))
    (stuck : isStuck state ({ state with phase := .resuming }.absorb page) token = true) :
    resumeListing repository (left + 1) state s =
      (.ok ({ state with phase := .resuming }.absorb page), t) := by
  simp [resumeListing, some, going, fetchPage, answer, stuck]

theorem resumeListing_next (some : state.nextToken? = some token)
    (going : repository.isCancelled s = false)
    (answer : repository.list (.resume token) s = (.ok page, t))
    (moving : isStuck state ({ state with phase := .resuming }.absorb page) token = false) :
    resumeListing repository (left + 1) state s =
      resumeListing repository left ({ state with phase := .resuming }.absorb page) t := by
  simp [resumeListing, some, going, fetchPage, answer, moving]

variable {options : HarvestOptions} {choose : Chooser}

theorem harvest_refused
    (answer : repository.list (.first options.metadataPrefix options.set) s = (.error cause, t)) :
    harvest repository options choose s = (.error (.page 1 { phase := .listing } cause), t) := by
  simp [harvest, fetchPage, answer]

theorem harvest_listed
    (answer : repository.list (.first options.metadataPrefix options.set) s = (.ok page, t)) :
    harvest repository options choose s =
      ((resumeListing repository repository.pages
        (({ phase := .listing } : HarvestState).absorb page) t).1.map (finish options choose),
      (resumeListing repository repository.pages
        (({ phase := .listing } : HarvestState).absorb page) t).2) := by
  simp only [harvest, fetchPage, answer]
  rcases resumeListing repository repository.pages _ t with ⟨_ | _, _⟩ <;> rfl

end Runs

/-- Requests for pages in order, each with its answer. -/
abbrev Log := List (ListRequest × Except HarvestError ListingPage)

namespace Repository

/-- The repository that grants a number of pages behind the first. -/
def granting (repository : Repository σ) (pages : Nat) : Repository σ := { repository with pages }

/-- A repository that keeps the requests for pages that it gets, each with its answer. -/
def logged (repository : Repository σ) : Repository (Log × σ) where
  list request s :=
    let answer := repository.list request s.2
    (answer.1, s.1 ++ [(request, answer.1)], answer.2)
  record identifier metadataPrefix s :=
    let answer := repository.record identifier metadataPrefix s.2
    (answer.1, s.1, answer.2)
  isCancelled s := repository.isCancelled s.2
  pages := repository.pages

end Repository

/-- A repository answers a request with a page, and each request with the token of a page with the
next page, without a sign to stop. -/
inductive Serves (repository : Repository σ) : ListRequest → σ → List ListingPage → σ → Prop
  | last {request : ListRequest} {s t : σ} {page : ListingPage}
      (given : repository.list request s = (.ok page, t)) : Serves repository request s [page] t
  | next {request : ListRequest} {s t u : σ} {page : ListingPage} {rest : List ListingPage}
      {token : String} (given : repository.list request s = (.ok page, t))
      (asked : page.token = some token) (going : repository.isCancelled t = false)
      (later : Serves repository (.resume token) t rest u) :
      Serves repository request s (page :: rest) u

theorem Serves.ne_nil {repository : Repository σ} {request : ListRequest} {s t : σ}
    {pages : List ListingPage} (serves : Serves repository request s pages t) : pages ≠ [] := by
  cases serves <;> simp

theorem Serves.concat {repository : Repository σ} {request : ListRequest} {s t u : σ}
    {pages : List ListingPage} {token : String} {page : ListingPage}
    (serves : Serves repository request s pages t) (asked : lastToken? pages = some token)
    (going : repository.isCancelled t = false)
    (given : repository.list (.resume token) t = (.ok page, u)) :
    Serves repository request s (pages ++ [page]) u := by
  induction serves with
  | last given' => exact .next given' (by simpa [lastToken?] using asked) going (.last given)
  | @next _ _ _ _ _ _ _ given' asked' going' later ih =>
    rw [lastToken?_cons _ later.ne_nil] at asked
    exact .next given' asked' going' (ih asked going given)

section Served
variable {repository : Repository σ} {request : ListRequest} {s t : σ} {pages : List ListingPage}

theorem Serves.first (serves : Serves repository request s pages t) :
    ∃ page u, repository.list request s = (.ok page, u) ∧ pages.head? = some page := by
  cases serves with
  | last given => exact ⟨_, _, given, rfl⟩
  | next given => exact ⟨_, _, given, rfl⟩

theorem Serves.answered (serves : Serves repository request s pages t) {k : Nat} (positive : 0 < k)
    (short : k < pages.length) : ∃ token u, lastToken? (pages.take k) = some token ∧
      (repository.list (.resume token) u).1 = .ok pages[k] := by
  induction serves generalizing k with
  | last => simp only [List.length_singleton] at short; omega
  | @next _ s t _ page rest token given asked _ later ih =>
    obtain ⟨k, rfl⟩ := Nat.exists_eq_succ_of_ne_zero (Nat.ne_of_gt positive)
    have short : k < rest.length := by simpa using short
    rw [List.take_succ_cons]
    rcases Nat.eq_zero_or_pos k with rfl | positive
    · refine ⟨token, t, by simp [lastToken?, asked], ?_⟩
      obtain ⟨following, u, given', head⟩ := later.first
      rw [List.head?_eq_getElem?, List.getElem?_eq_getElem short, Option.some_inj] at head
      rw [given', List.getElem_cons_succ, head]
    · have more : rest.take k ≠ [] := by
        intro none
        rcases List.take_eq_nil_iff.mp none with zero | empty
        · omega
        · simp [empty] at short
      rw [lastToken?_cons page more]
      exact ih positive short

theorem Serves.given (serves : Serves repository request s pages t) {page : ListingPage}
    (listed : page ∈ pages) : ∃ asked u, (repository.list asked u).1 = .ok page := by
  induction serves with
  | @last request s _ _ given =>
    obtain rfl := List.mem_singleton.mp listed
    exact ⟨request, s, by rw [given]⟩
  | @next request s _ _ _ _ _ given _ _ _ ih =>
    rcases List.mem_cons.mp listed with rfl | later
    · exact ⟨request, s, by rw [given]⟩
    · exact ih later

theorem Serves.take (serves : Serves repository request s pages t) {k : Nat} (positive : 0 < k) :
    ∃ u, Serves repository request s (pages.take k) u := by
  induction serves generalizing k with
  | last given =>
    obtain ⟨k, rfl⟩ := Nat.exists_eq_succ_of_ne_zero (Nat.ne_of_gt positive)
    exact ⟨_, by simpa using .last given⟩
  | next given asked going later ih =>
    obtain ⟨k, rfl⟩ := Nat.exists_eq_succ_of_ne_zero (Nat.ne_of_gt positive)
    rw [List.take_succ_cons]
    rcases Nat.eq_zero_or_pos k with rfl | positive
    · exact ⟨_, .last given⟩
    · obtain ⟨u, served⟩ := ih positive
      exact ⟨u, .next given asked going served⟩

end Served

section Logs
variable {repository : Repository σ} {options : HarvestOptions}

theorem logged_list {request : ListRequest} {s t : σ} {answer : Except HarvestError ListingPage}
    (given : repository.list request s = (answer, t)) (log : Log) :
    repository.logged.list request (log, s) = (answer, log ++ [(request, answer)], t) := by
  simp [Repository.logged, given]

/-- To keep the requests changes nothing about a listing. -/
theorem resumeListing_logged (left : Nat) (state : HarvestState) (log : Log) (s : σ) :
    (resumeListing repository.logged left state (log, s)).1 =
      (resumeListing repository left state s).1 ∧
    (resumeListing repository.logged left state (log, s)).2.2 =
      (resumeListing repository left state s).2 := by
  induction left generalizing state log s with
  | zero => exact ⟨rfl, rfl⟩
  | succ left ih =>
    cases next : state.nextToken? with
    | none => simp [resumeListing_done next]
    | some token =>
      cases stopped : repository.isCancelled s with
      | true =>
        have stopped' : repository.logged.isCancelled (log, s) = true := stopped
        simp [resumeListing_cancelled next stopped, resumeListing_cancelled next stopped']
      | false =>
        have going : repository.logged.isCancelled (log, s) = false := stopped
        rcases given : repository.list (.resume token) s with ⟨cause | page, t⟩
        · simp [resumeListing_refused next stopped given,
            resumeListing_refused next going (logged_list given log)]
        · cases stuck : isStuck state ({ state with phase := .resuming }.absorb page) token with
          | true =>
            simp [resumeListing_stuck next stopped given stuck,
              resumeListing_stuck next going (logged_list given log) stuck]
          | false =>
            rw [resumeListing_next next stopped given stuck,
              resumeListing_next next going (logged_list given log) stuck]
            exact ih _ _ t

theorem harvest_logged (repository : Repository σ) (options : HarvestOptions) (choose : Chooser)
    (log : Log) (s : σ) :
    (harvest repository.logged options choose (log, s)).1 =
      (harvest repository options choose s).1 ∧
    (harvest repository.logged options choose (log, s)).2.2 =
      (harvest repository options choose s).2 := by
  rcases given : repository.list (.first options.metadataPrefix options.set) s with
    ⟨cause | page, t⟩
  · simp [harvest_refused given, harvest_refused (logged_list given log)]
  · rw [harvest_listed given, harvest_listed (logged_list given log)]
    obtain ⟨same, same'⟩ := resumeListing_logged repository.pages
      (({ phase := .listing } : HarvestState).absorb page)
      (log ++ [(.first options.metadataPrefix options.set, .ok page)]) t
    exact ⟨congrArg (Except.map (finish options choose)) same, same'⟩

/-- What a harvest has received from `s` on, and what it has asked for: the first page by the
options, and each other with the token of the page before it, behind which the listing does not
end. -/
structure Listed (repository : Repository σ) (options : HarvestOptions) (s : σ) (log : Log)
    (pages : List ListingPage) (t : σ) : Prop where
  served : Serves repository (.first options.metadataPrefix options.set) s pages t
  answers : log.map (·.2) = pages.map .ok
  requests : ∃ tokens : List String, pages.dropLast.map (·.token) = tokens.map some ∧
    log.map (·.1) = .first options.metadataPrefix options.set :: tokens.map .resume
  going : ∀ k, 0 < k → k < pages.length → ¬ Ends (pages.take k)

theorem listed_first {s t : σ} {page : ListingPage}
    (given : repository.list (.first options.metadataPrefix options.set) s = (.ok page, t)) :
    Listed repository options s [(.first options.metadataPrefix options.set, .ok page)] [page]
      t where
  served := .last given
  answers := rfl
  requests := ⟨[], rfl, rfl⟩
  going k positive short := by
    simp only [List.length_singleton] at short
    omega

theorem Listed.length_eq {s t : σ} {log : Log} {pages : List ListingPage}
    (listed : Listed repository options s log pages t) : log.length = pages.length := by
  simpa using congrArg List.length listed.answers

theorem Listed.next {s t u : σ} {log : Log} {pages : List ListingPage} {token : String}
    {page : ListingPage} (listed : Listed repository options s log pages t) (more : ¬ Ends pages)
    (asked : lastToken? pages = some token) (going : repository.isCancelled t = false)
    (given : repository.list (.resume token) t = (.ok page, u)) :
    Listed repository options s (log ++ [(.resume token, .ok page)]) (pages ++ [page]) u where
  served := listed.served.concat asked going given
  answers := by simp [listed.answers]
  requests := by
    obtain ⟨tokens, asked', requests⟩ := listed.requests
    obtain ⟨last, found, last_token⟩ := Option.bind_eq_some_iff.mp asked
    refine ⟨tokens ++ [token], ?_, by simp [requests]⟩
    rw [List.dropLast_concat, ← List.dropLast_append_getLast? last found, List.map_append, asked']
    simp [last_token]
  going := by
    intro k positive short
    rw [List.length_append, List.length_singleton] at short
    rcases Nat.lt_or_ge k pages.length with shorter | same
    · rw [List.take_append_of_le_length (Nat.le_of_lt shorter)]
      exact listed.going k positive shorter
    · have whole : k = pages.length := by omega
      rw [List.take_append_of_le_length (Nat.le_of_eq whole), List.take_of_length_le same]
      exact more

/-- How a listing comes to its end, and what was asked and answered up to there. -/
inductive Concludes (repository : Repository σ) (options : HarvestOptions) (s : σ) :
    Except HarvestError HarvestState → Log → Prop
  | listed {state : HarvestState} {log : Log} {pages : List ListingPage} {t : σ}
      (listed : Listed repository options s log pages t) (took : Took state pages)
      (ends : Ends pages) : Concludes repository options s (.ok state) log
  | refused {state : HarvestState} {log : Log} {pages : List ListingPage} {t : σ} {token : String}
      {cause : HarvestError} (listed : Listed repository options s log pages t)
      (took : Took state pages) (more : ¬ Ends pages) (asked : lastToken? pages = some token) :
      Concludes repository options s (.error (.page (state.pages + 1) state cause))
        (log ++ [(.resume token, .error cause)])
  | cancelled {state : HarvestState} {log : Log} {pages : List ListingPage} {t : σ}
      (listed : Listed repository options s log pages t) (took : Took state pages)
      (more : ¬ Ends pages) : Concludes repository options s (.error (.cancelled state)) log
  | unended {state : HarvestState} {log : Log} {pages : List ListingPage} {t : σ}
      (listed : Listed repository options s log pages t) (took : Took state pages)
      (all : pages.length = repository.pages + 1) :
      Concludes repository options s (.error (.tooManyPages state)) log

/-- What holds of the pages received is passed on from page to page. -/
theorem resumeListing_concludes {left : Nat} {state : HarvestState} {log : Log}
    {pages : List ListingPage} {s t : σ} (listed : Listed repository options s log pages t)
    (took : Took state pages) (moving : ¬ Repeats pages)
    (room : pages.length + left = repository.pages + 1) :
    Concludes repository options s (resumeListing repository.logged left state (log, t)).1
      (resumeListing repository.logged left state (log, t)).2.1 := by
  -- `listed` is about the requests and their answers, `took` about the state made of them: both
  -- grow by one page with each request.
  induction left generalizing state log pages t with
  | zero => exact .unended listed took room
  | succ left ih =>
    cases next : state.nextToken? with
    | none =>
      rw [resumeListing_done next]
      refine .listed listed took ?_
      rcases took.nextToken?_eq_none_iff.mp next with last | total
      · exact .inl last
      · exact .inr (.inl total)
    | some token =>
      obtain ⟨asked, open_⟩ := took.nextToken?_eq_some_iff.mp next
      have more : ¬ Ends pages := by
        rintro (last | total | again)
        · simp [asked] at last
        · exact open_ total
        · exact moving again
      cases stopped : repository.isCancelled t with
      | true =>
        have stopped' : repository.logged.isCancelled (log, t) = true := stopped
        rw [resumeListing_cancelled next stopped']
        exact .cancelled listed took more
      | false =>
        have going : repository.logged.isCancelled (log, t) = false := stopped
        rcases given : repository.list (.resume token) t with ⟨cause | page, u⟩
        · rw [resumeListing_refused next going (logged_list given log)]
          exact .refused listed (took.phase .resuming) more asked
        · have listed' := listed.next more asked stopped given
          have took' := (took.phase .resuming).absorb page
          have stuck_iff := took.isStuck_iff asked page
          cases stuck : isStuck state ({ state with phase := .resuming }.absorb page) token with
          | true =>
            rw [resumeListing_stuck next going (logged_list given log) stuck]
            exact .listed listed' took' (.inr (.inr (stuck_iff.mp stuck)))
          | false =>
            rw [resumeListing_next next going (logged_list given log) stuck]
            refine ih listed' took' ?_ ?_
            · intro again
              simp [stuck_iff.mpr again] at stuck
            · simp only [List.length_append, List.length_singleton]
              omega

theorem harvest_concludes (choose : Chooser) {page : ListingPage} {s t : σ}
    (given : repository.list (.first options.metadataPrefix options.set) s = (.ok page, t)) :
    ∃ result log u, Concludes repository options s result log ∧
      harvest repository.logged options choose ([], s) =
        (result.map (finish options choose), log, u) := by
  refine ⟨_, _, _, ?_, harvest_listed (logged_list given [])⟩
  have took : Took (({ phase := .listing } : HarvestState).absorb page) [page] :=
    (took_nil .listing).absorb page
  apply resumeListing_concludes (listed_first given) took (not_repeats_singleton page)
  exact Nat.add_comm 1 repository.pages

end Logs

section Service
variable {repository : Repository σ}

theorem resumeListing_page {state : HarvestState} {pages : List ListingPage} {token : String}
    {page : ListingPage} {s t : σ} (took : Took state pages) (below : ¬ ReachesTotal pages)
    (asked : lastToken? pages = some token) (going : repository.isCancelled s = false)
    (given : repository.list (.resume token) s = (.ok page, t))
    (moving : ¬ Repeats (pages ++ [page])) (n left : Nat) :
    resumeListing (repository.granting n) (left + 1) state s =
      resumeListing (repository.granting n) left
        ({ state with phase := .resuming }.absorb page) t := by
  have next : state.nextToken? = some token := took.nextToken?_eq_some_iff.mpr ⟨asked, below⟩
  have onward : isStuck state ({ state with phase := .resuming }.absorb page) token = false := by
    rw [← Bool.not_eq_true, took.isStuck_iff asked page]
    exact moving
  have going' : (repository.granting n).isCancelled s = false := going
  exact resumeListing_next next going' given onward

/-- A listing takes up the pages that it is served, as long as it does not end behind them. -/
theorem resumeListing_serves {request : ListRequest} {s t : σ} {more : List ListingPage}
    (serves : Serves repository request s more t) {token : String}
    (resumed : request = .resume token) {state : HarvestState} {pages : List ListingPage}
    (took : Took state pages) (asked : lastToken? pages = some token)
    (going : repository.isCancelled s = false)
    (open_ : ∀ k < more.length, ¬ Ends (pages ++ more.take k))
    (moving : ¬ Repeats (pages ++ more)) :
    ∃ final, Took final (pages ++ more) ∧ ∀ n left,
      resumeListing (repository.granting n) (left + more.length) state s =
        resumeListing (repository.granting n) left final t := by
  induction serves generalizing token state pages with
  | last given =>
    subst resumed
    have below : ¬ ReachesTotal pages := fun total =>
      open_ 0 Nat.one_pos (by simpa using .inr (.inl total))
    exact ⟨_, (took.phase .resuming).absorb _,
      resumeListing_page took below asked going given moving⟩
  | @next _ _ _ _ page rest following given asked' going' later ih =>
    subst resumed
    have below : ¬ ReachesTotal pages := fun total =>
      open_ 0 (by simp) (by simpa using .inr (.inl total))
    have behind : ¬ Ends (pages ++ [page]) := by
      have positive : 0 < rest.length := by cases later <;> simp
      simpa using open_ 1 (by simpa using positive)
    have took' : Took ({ state with phase := .resuming }.absorb page) (pages ++ [page]) :=
      (took.phase .resuming).absorb page
    have following' : lastToken? (pages ++ [page]) = some following := by
      rw [lastToken?_concat, asked']
    have open' (k : Nat) (short : k < rest.length) :
        ¬ Ends ((pages ++ [page]) ++ rest.take k) := by
      simpa using open_ (k + 1) (by simpa using short)
    obtain ⟨final, tookAll, onward⟩ := ih rfl took' following' going' open' (by simpa using moving)
    refine ⟨final, by simpa using tookAll, ?_⟩
    intro n left
    have moving' : ¬ Repeats (pages ++ [page]) := fun again => behind (.inr (.inr again))
    rw [List.length_cons, ← Nat.add_assoc, resumeListing_page took below asked going given moving']
    exact onward n left

/-- A harvest takes up the pages that it is served, and goes on with those that are granted. -/
theorem harvest_serves {options : HarvestOptions} (choose : Chooser) {s t : σ}
    {pages : List ListingPage}
    (serves : Serves repository (.first options.metadataPrefix options.set) s pages t)
    (open_ : ∀ k, 0 < k → k < pages.length → ¬ Ends (pages.take k)) (moving : ¬ Repeats pages) :
    ∃ final, Took final pages ∧ ∀ n left, n + 1 = left + pages.length →
      harvest (repository.granting n) options choose s =
        ((resumeListing (repository.granting n) left final t).1.map (finish options choose),
        (resumeListing (repository.granting n) left final t).2) := by
  cases serves with
  | @last _ _ _ page given =>
    refine ⟨_, (took_nil .listing).absorb page, ?_⟩
    intro n left room
    have given' : (repository.granting n).list _ s = _ := given
    obtain rfl : n = left := by simpa using room
    exact harvest_listed given'
  | @next _ _ _ _ page rest token given asked going later =>
    have took : Took (({ phase := .listing } : HarvestState).absorb page) [page] :=
      (took_nil .listing).absorb page
    have open' (k : Nat) (short : k < rest.length) : ¬ Ends ([page] ++ rest.take k) := by
      simpa using open_ (k + 1) (by omega) (by simpa using short)
    obtain ⟨final, tookAll, onward⟩ := resumeListing_serves later rfl took
      (by simpa [lastToken?] using asked) going open' moving
    refine ⟨final, tookAll, ?_⟩
    intro n left room
    have given' : (repository.granting n).list _ s = _ := given
    have granted : (repository.granting n).pages = left + rest.length := by
      simp only [List.length_cons] at room
      exact Nat.succ.inj room
    rw [harvest_listed given', granted, onward]

end Service

end CatalogGraph.Harvest
