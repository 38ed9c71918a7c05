import CatalogGraph.Proofs.NestedMaps
import CatalogGraph.Remote.Scripted
import Mathlib.Order.WellFounded

/-!
Queries asked page by page: on a store that gives a short page in the end, a run has one outcome as
soon as enough pages are granted.
-/
namespace CatalogGraph.Engine
variable {σ α β : Type}

/-- A store comes from one state into another by queries. -/
def Later (store : Option (TripleStore σ)) : σ → σ → Prop :=
  Relation.ReflTransGen fun a b =>
    ∃ service, store = some service ∧ ∃ text, b = (service.query text a).2

/-- Where the pages of a query are asked in turn, whatever else is asked in between, one of them is
not full. -/
def PagesEnd (service : TripleStore σ) (config : Config) (query : String) (ctx : Context)
    (start : σ) : Prop :=
  ∀ (states : Nat → RunState σ) (pages : Nat → List Binding × RunState σ),
    Later (some service) start (states 0).store →
    (∀ k, outcome (queryPage service query
      (pageContext query ctx (k * pageSize config) (pageSize config))) (states k) =
        (.ok (pages k).1, (pages k).2)) →
    (∀ k, Later (some service) (pages k).2.store (states (k + 1)).store) →
    ∃ k, (pages k).1.length < pageSize config

/-- Every paged query of the mapping gives a page in the end that is not full. -/
def QueriesEnd (engine : Engine σ) (start : σ) : Prop :=
  ∀ service, engine.store = some service → ∀ m ∈ engine.mapping.maps,
    ∀ source, m.logicalSource = some source → ∀ query, source.query = some query →
      ∀ ctx, isPaged query ctx → PagesEnd service engine.config query ctx start

/-- With enough pages granted a step has one outcome, which is not that pages ran out. -/
def SettlesAt (store : Option (TripleStore σ)) (step : Nat → Run σ α) (s : RunState σ) : Prop :=
  ∃ enough result, (∀ n, enough ≤ n → outcome (step n) s = result) ∧
    Later store s.store result.2.store ∧ ∀ iri, result.1 ≠ .error (.tooManyPages iri)

theorem settlesAt_bind {store : Option (TripleStore σ)} {step : Nat → Run σ α}
    {next : Nat → α → Run σ β} {s : RunState σ} (first : SettlesAt store step s)
    (second : ∀ a t, (∃ n, outcome (step n) s = (.ok a, t)) → Later store s.store t.store →
      SettlesAt store (fun n => next n a) t) :
    SettlesAt store (fun n => step n >>= next n) s := by
  obtain ⟨enough, ⟨r, t⟩, same, later, fault⟩ := first
  cases r with
  | error e =>
    refine ⟨enough, (.error e, t), ?_, later, ?_⟩
    · exact fun n hn => outcome_bind_error (same n hn)
    · rintro iri ⟨⟩
      exact fault iri rfl
  | ok a =>
    obtain ⟨enough', result, same', later', fault'⟩ := second a t ⟨enough, same _ le_rfl⟩ later
    refine ⟨max enough enough', result, ?_, later.trans later', fault'⟩
    intro n hn
    have h : enough ≤ n := le_trans (le_max_left _ _) hn
    have h' : enough' ≤ n := le_trans (le_max_right _ _) hn
    rw [outcome_bind_ok (same n h)]
    exact same' n h'

theorem settlesAt_of_eq {store : Option (TripleStore σ)} {step step' : Nat → Run σ α}
    {s : RunState σ} (enough : Nat) (eq : ∀ n, enough ≤ n → step' n = step n)
    (settles : SettlesAt store step s) : SettlesAt store step' s := by
  obtain ⟨enough', result, same, later, fault⟩ := settles
  refine ⟨max enough enough', result, ?_, later, fault⟩
  intro n hn
  have h : enough ≤ n := le_trans (le_max_left _ _) hn
  have h' : enough' ≤ n := le_trans (le_max_right _ _) hn
  rw [eq n h]
  exact same n h'

/-- The store is asked, and pages do not run out. -/
def asking (store : Option (TripleStore σ)) : Bound σ where
  moves s t := Later store s.store t.store
  fails e := ∀ iri, e ≠ .tooManyPages iri
  refl _ := .refl
  trans first second := first.trans second

theorem admits_asking (store : Option (TripleStore σ)) : Admits (asking store) store where
  quiet s t h := by
    change Later store s.store t.store
    rw [h.2.2]
    exact .refl
  counted _ _ _ _ := .refl
  committed _ _ := .refl
  asked service hservice _ text := .single ⟨service, hservice, text, rfl⟩
  faults _ fault := fault.2.2

theorem settlesAt_of_within {store : Option (TripleStore σ)} {step : Run σ α}
    (within : Within (asking store) step) (s : RunState σ) :
    SettlesAt store (fun _ => step) s := by
  refine ⟨0, outcome step s, fun _ _ => rfl, (within s).1, ?_⟩
  intro iri failed
  exact (within s).2 _ failed iri rfl

/-- To settle from every state that a store reaches is a law. -/
def settling (store : Option (TripleStore σ)) (start : σ) : Law σ where
  holds step := ∀ s : RunState σ, Later store start s.store → SettlesAt store step s
  bind first second s later :=
    settlesAt_bind (first s later) fun a t _ later' => second a t (later.trans later')
  quiet within s _ := settlesAt_of_within ((admits_asking store).of_quiet within) s
  counts s _ := settlesAt_of_within ((admits_asking store).law.counts 0) s
  skips s _ := settlesAt_of_within ((admits_asking store).law.skips 0) s
  commits triples s _ := settlesAt_of_within ((admits_asking store).law.commits triples 0) s
  faults fault s _ := settlesAt_of_within ((admits_asking store).law.faults fault 0) s

/-- From page `k` of a paged query in one state a full page leads to the next in another. -/
def NextPage (service : TripleStore σ) (config : Config) (query : String) (ctx : Context)
    (after before : Nat × RunState σ) : Prop :=
  after.1 = before.1 + 1 ∧ isPaged query ctx ∧ ∃ rows t,
    outcome (queryPage service query
      (pageContext query ctx (before.1 * pageSize config) (pageSize config))) before.2 =
        (.ok rows, t) ∧
    pageSize config ≤ rows.length ∧ Later (some service) t.store after.2.store

theorem acc_nextPage {service : TripleStore σ} {config : Config} {query : String} {ctx : Context}
    {start : σ} (ends : isPaged query ctx → PagesEnd service config query ctx start)
    {s : RunState σ} (later : Later (some service) start s.store) :
    Acc (NextPage service config query ctx) (0, s) := by
  -- An infinite descent would be an infinite sequence of full pages.
  by_contra endless
  obtain ⟨f, first, step⟩ := not_acc_iff_exists_descending_chain.mp endless
  have number (k : Nat) : (f k).1 = k := by
    induction k with
    | zero => rw [first]
    | succ k ih => rw [(step k).1, ih]
  choose _ paged rows t asked full next using step
  obtain ⟨k, short⟩ := ends (paged 0) (fun k => (f k).2) (fun k => (rows k, t k))
    (by rw [first]; exact later) (fun k => by simpa [number] using asked k) next
  have := full k
  dsimp only at short
  omega

theorem settlesAt_queryPages {service : TripleStore σ} {config : Config} {query : String}
    {ctx : Context} {start : σ} {m : TriplesMap} {apply : Nat → Node → Run σ (Option Term)}
    (row : ∀ node, (settling (some service) start).holds fun n => apply n node)
    {page : Nat × RunState σ} (acc : Acc (NextPage service config query ctx) page)
    (later : Later (some service) start page.2.store) :
    SettlesAt (some service) (fun n => queryPages config service (apply n) m query ctx
      (n - page.1) (page.1 * pageSize config)) page.2 := by
  induction acc with
  | intro page _ ih =>
    obtain ⟨k, s⟩ := page
    dsimp only at later ⊢
    -- One page is asked of those granted, so that `n - (k + 1)` are left for the next.
    apply settlesAt_of_eq (k + 1)
    · intro n hn
      rw [show n - k = n - (k + 1) + 1 by omega, queryPages]
    have asked := settlesAt_of_within (within_queryPage (admits_asking (some service)).asks query
      (pageContext query ctx (k * pageSize config) (pageSize config))) s
    refine settlesAt_bind asked ?_
    rintro rows t ⟨_, answer⟩ laterPage
    have rows' := (settling (some service) start).applyRows row (rows.map .binding) t
      (later.trans laterPage)
    refine settlesAt_bind rows' ?_
    intro subjects u _ laterRows
    split
    next => exact settlesAt_of_within (within_pure _) u
    next more =>
      simp only [Bool.or_eq_true, Bool.not_eq_true', decide_eq_true_eq, not_or, Nat.not_lt,
        Bool.not_eq_false] at more
      have next := ih (k + 1, u) ⟨rfl, more.1, rows, t, answer, more.2, laterRows⟩
        ((later.trans laterPage).trans laterRows)
      have offset : (k + 1) * pageSize config = k * pageSize config + pageSize config := by
        rw [Nat.add_mul, Nat.one_mul]
      rw [offset] at next
      exact settlesAt_bind next fun _ v _ _ => settlesAt_of_within (within_pure _) v

theorem settling_queries {engine : Engine σ} {start : σ} (ends : QueriesEnd engine start)
    {m : TriplesMap} (hm : m ∈ engine.mapping.maps) :
    (settling engine.store start).Queries engine m := by
  intro source hs service hservice query hq apply row ctx s later
  rw [hservice] at row later ⊢
  have acc := acc_nextPage (ends service hservice m hm source hs query hq ctx) later
  simpa using settlesAt_queryPages (m := m) row acc later

theorem store_of_queryPage {service : TripleStore σ} {query : String} {ctx : Context}
    {s t : RunState σ} {rows : List Binding}
    (answered : outcome (queryPage service query ctx) s = (.ok rows, t)) :
    ∃ text, service.query text s.store = (.ok rows, t.store) := by
  have kept := within_expand (fun name => allows_quiet.resolveNamed (σ := σ) ctx name) query s
  rcases ht : outcome (Template.expand (resolveNamed ctx) query) s with ⟨e | r, u⟩
  · rw [queryPage, outcome_bind_error ht] at answered
    cases answered
  · rw [ht] at kept
    rw [queryPage, outcome_bind_ok ht] at answered
    rw [← kept.1.2.2]
    cases r with
    | error name => cases answered
    | ok text =>
      refine ⟨text, ?_⟩
      rw [outcome_bind, outcome_modifyGet] at answered
      rcases hq : service.query text u.store with ⟨e | given, after⟩
      · simp only [hq, outcome_throw] at answered
        cases answered
      · simp only [hq, outcome_bind, outcome_modify, outcome_pure] at answered
        cases answered
        rfl

/-- Prepared answers are used up one by one. -/
theorem scripted_later {a b : Scripted (List Binding) String}
    (later : Later (some .scripted) a b) : b.answers.length ≤ a.answers.length := by
  induction later with
  | refl => exact le_rfl
  | tail _ step ih =>
    obtain ⟨_, ⟨⟩, text, rfl⟩ := step
    refine le_trans ?_ ih
    simp [TripleStore.scripted, Scripted.next]

/-- A store with prepared answers gives an empty page once they are used up. -/
theorem scripted_pagesEnd (config : Config) (query : String) (ctx : Context)
    (start : Scripted (List Binding) String) :
    PagesEnd .scripted config query ctx start := by
  intro states pages later asked next
  have left (k : Nat) : (states k).store.answers.length ≤ start.answers.length - k := by
    induction k with
    | zero => exact scripted_later later
    | succ k ih =>
      obtain ⟨text, answer⟩ := store_of_queryPage (asked k)
      have used : (pages k).2.store.answers.length = (states k).store.answers.length - 1 := by
        rw [← (Prod.mk.inj answer).2]
        simp
      have := scripted_later (next k)
      omega
  have none : (states start.answers.length).store.answers = [] := by
    have := left start.answers.length
    exact List.eq_nil_of_length_eq_zero (by omega)
  obtain ⟨text, answer⟩ := store_of_queryPage (asked start.answers.length)
  refine ⟨start.answers.length, ?_⟩
  have empty : (pages start.answers.length).1 = [] := by
    simpa [TripleStore.scripted, Scripted.next, none, eq_comm] using (Prod.mk.inj answer).1
  simp [empty, pageSize]

end CatalogGraph.Engine
