import CatalogGraph.Proofs.MapSteps
import CatalogGraph.Text.Numeral
import Mathlib.Data.List.TakeDrop

/-!
Windows of rows: a query that names an offset and a limit is asked for one window of the rows after
another. It goes through the rows once and in order exactly if the limit is the page size or all
rows fit into one page.
-/
namespace CatalogGraph

namespace Engine
open Template (names)
variable {σ α β : Type}

section Windows
variable {α : Type}

/-- The windows of a list that begin at the offsets. -/
def windows (limit : Nat) (rows : List α) (offsets : List Nat) : List α :=
  offsets.flatMap fun offset => (rows.drop offset).take limit

/-- Windows one behind the other cover the list. -/
theorem windows_adjacent {size count offset : Nat} {rows : List α}
    (enough : rows.length < offset + count * size) :
    windows size rows (List.range' offset count size) = rows.drop offset := by
  induction count generalizing offset with
  | zero => simpa [windows] using (show rows.length ≤ offset by omega)
  | succ count ih =>
    have rest : windows size rows (List.range' (offset + size) count size) =
        rows.drop (offset + size) := ih (by rw [Nat.add_mul] at enough; omega)
    have split : (rows.drop offset).take size ++ (rows.drop offset).drop size = rows.drop offset :=
      List.take_append_drop size _
    rw [List.drop_drop] at split
    unfold windows at rest ⊢
    rw [List.range'_succ, List.flatMap_cons, rest, split]

/-- Windows that overlap leave no element out. -/
theorem sublist_windows {size limit count offset : Nat} {rows : List α} (overlap : size ≤ limit)
    (enough : rows.length < offset + count * size) :
    (rows.drop offset).Sublist (windows limit rows (List.range' offset count size)) := by
  rw [← windows_adjacent enough]
  induction List.range' offset count size with
  | nil => exact List.nil_sublist _
  | cons offset rest ih =>
    have first : ((rows.drop offset).take size).Sublist ((rows.drop offset).take limit) :=
      (List.take_prefix_take_left overlap).sublist
    exact first.append ih

/-- How many windows are asked for: a limit below the page size gives no full page, and otherwise
the last page is the first that ends behind the rows. -/
def windowCount (limit size left : Nat) : Nat :=
  if limit < size then 1 else left / size + 1

theorem windowCount_pos (limit size left : Nat) : 0 < windowCount limit size left := by
  unfold windowCount
  split
  next => exact Nat.one_pos
  next => exact Nat.succ_pos _

theorem windowCount_of_short {limit size left : Nat} (positive : 0 < size)
    (short : min limit left < size) : windowCount limit size left = 1 := by
  unfold windowCount
  split
  next => rfl
  next =>
    have : left / size = 0 := (Nat.div_eq_zero_iff_lt positive).mpr (by omega)
    omega

theorem windowCount_of_full {limit size left : Nat} (positive : 0 < size)
    (full : size ≤ min limit left) :
    windowCount limit size left = windowCount limit size (left - size) + 1 := by
  have limited : ¬ limit < size := by omega
  have step : left / size = (left - size) / size + 1 :=
    Nat.div_eq_sub_div positive (by omega)
  simp only [windowCount, limited, if_false, step]

theorem rows_before_end {size : Nat} (rows : List α) (positive : 0 < size) :
    rows.length < 0 + (rows.length / size + 1) * size := by
  have := Nat.lt_mul_div_succ rows.length positive
  rw [Nat.mul_comm] at this
  omega

/-- The windows that are asked for make up the list exactly if the limit is the page size or the
list fits into one page. -/
theorem windows_eq_iff {limit size : Nat} {rows : List α} (positive : 0 < size) :
    windows limit rows (List.range' 0 (windowCount limit size rows.length) size) = rows ↔
      limit = size ∨ rows.length ≤ min limit size := by
  have below := rows_before_end rows positive
  rcases Nat.lt_trichotomy limit size with less | rfl | more
  · -- One window is asked for, and what lies behind it is lost.
    have one : windowCount limit size rows.length = 1 := windowCount_of_short positive (by omega)
    have whole : rows.take limit = rows ↔ rows.length ≤ limit := List.take_eq_self_iff rows
    rw [one]
    simp only [windows, List.range'_one, List.flatMap_cons, List.drop_zero, List.flatMap_nil,
      List.append_nil, whole]
    omega
  · have all := windows_adjacent below
    simp only [windowCount, Nat.lt_irrefl, if_false, all, List.drop_zero, true_or]
  · -- The second window begins within the first, so it must be empty.
    have several : ¬ limit < size := by omega
    have behind : rows.length < 0 + size + rows.length / size * size := by
      rw [Nat.add_mul] at below
      omega
    have rest := (sublist_windows (Nat.le_of_lt more) behind).length_le
    rw [List.length_drop] at rest
    simp only [windowCount, several, if_false, List.range'_succ]
    unfold windows at rest ⊢
    rw [List.flatMap_cons, List.drop_zero]
    constructor
    · intro whole
      have length := congrArg List.length whole
      rw [List.length_append, List.length_take] at length
      omega
    · intro fits
      have few : rows.length ≤ size := by omega
      have taken : rows.take limit = rows := List.take_of_length_le (by omega)
      have none : (List.range' (0 + size) (rows.length / size) size).flatMap
          (fun offset => (rows.drop offset).take limit) = [] := by
        rw [List.flatMap_eq_nil_iff]
        intro offset ho
        have := (List.mem_range'.mp ho)
        have : size ≤ offset := by omega
        rw [List.drop_of_length_le (by omega), List.take_nil]
      rw [taken, none, List.append_nil]

end Windows

/-- The context that names an offset and a limit. -/
def windowContext (ctx : Context) (offset limit : Nat) : Context :=
  (ctx.set "offset" (toString offset)).set "limit" (toString limit)

/-- A store answers a query that names an offset and a limit with that window of fixed rows. -/
def ServesWindows (service : TripleStore σ) (query : String) (ctx : Context) (limit : Nat)
    (rows : List Binding) : Prop :=
  ∀ offset (s t : RunState σ) text,
    outcome (Template.expand (resolveNamed (windowContext ctx offset limit)) query) s =
      (.ok (.ok text), t) →
    ∀ state, (service.query text state).1 = .ok ((rows.drop offset).take limit)

/-- A map asks a query that names offset and limit; the context leaves the offset open and fixes
every other name, but perhaps the limit. -/
structure AsksWindows (engine : Engine σ) (service : TripleStore σ) (m : TriplesMap)
    (query : String) (ctx : Context) : Prop where
  store : engine.store = some service
  source : ∃ source, m.logicalSource = some source ∧ source.formulation = .sparql ∧
    source.query = some query
  offset : "offset" ∈ names query
  limit : "limit" ∈ names query
  unset : Entries.get? "offset" ctx = none
  known : ∀ name ∈ names query, name ≠ "offset" → name ≠ "limit" → Entries.contains name ctx

/-- The limit that queries are asked with: the one of the context, or else the page size. -/
def LimitedTo (config : Config) (ctx : Context) (limit : Nat) : Prop :=
  Entries.get? "limit" ctx = none ∧ limit = pageSize config ∨
    Entries.get? "limit" ctx = some (.text (toString limit))

/-- What is done with a query: a window is asked for, or the map is applied to a row. -/
inductive PageStep where
  | ask (offset limit : Nat)
  | apply (row : Binding)

namespace PageStep

def row? : PageStep → Option Binding
  | .apply row => some row
  | .ask _ _ => none

def window? : PageStep → Option (Nat × Nat)
  | .ask offset limit => some (offset, limit)
  | .apply _ => none

end PageStep

/-- The rows that the map is applied to, in order. -/
def rowsApplied (steps : List PageStep) : List Binding := steps.filterMap PageStep.row?

/-- The offsets and limits that are asked for, in order. -/
def windowsAsked (steps : List PageStep) : List (Nat × Nat) := steps.filterMap PageStep.window?

def takeStep (service : TripleStore σ) (query : String) (ctx : Context)
    (apply : Node → Run σ (Option Term)) : PageStep → Run σ (List Term)
  | .ask offset limit => do
    let _ ← queryPage service query (windowContext ctx offset limit)
    return []
  | .apply row => do
    let subject ← apply (.binding row)
    return subject.toList

/-- Takes steps in order up to the first that fails. -/
def takeSteps (service : TripleStore σ) (query : String) (ctx : Context)
    (apply : Node → Run σ (Option Term)) : List PageStep → Run σ (List Term)
  | [] => return []
  | step :: rest => do
    let subjects ← takeStep service query ctx apply step
    let more ← takeSteps service query ctx apply rest
    return subjects ++ more

/-- The windows at the offsets are asked for, and the map is applied to the rows of each. -/
def pageSteps (limit : Nat) (rows : List Binding) (offsets : List Nat) : List PageStep :=
  offsets.flatMap fun offset => .ask offset limit :: ((rows.drop offset).take limit).map .apply

theorem rowsApplied_pageSteps (limit : Nat) (rows : List Binding) (offsets : List Nat) :
    rowsApplied (pageSteps limit rows offsets) = windows limit rows offsets := by
  have one (rows : List Binding) : (rows.map PageStep.apply).filterMap PageStep.row? = rows := by
    rw [List.filterMap_map]
    exact List.filterMap_some
  induction offsets with
  | nil => rfl
  | cons offset rest ih =>
    unfold rowsApplied pageSteps windows at ih ⊢
    rw [List.flatMap_cons, List.filterMap_append, ih, List.flatMap_cons]
    simp only [List.filterMap_cons, PageStep.row?, one]

theorem windowsAsked_pageSteps (limit : Nat) (rows : List Binding) (offsets : List Nat) :
    windowsAsked (pageSteps limit rows offsets) = offsets.map (·, limit) := by
  have none (rows : List Binding) : (rows.map PageStep.apply).filterMap PageStep.window? = [] := by
    simp [PageStep.window?]
  induction offsets with
  | nil => rfl
  | cons offset rest ih =>
    unfold windowsAsked pageSteps at ih ⊢
    rw [List.flatMap_cons, List.filterMap_append, ih]
    simp only [List.filterMap_cons, PageStep.window?, none, List.map_cons, List.singleton_append]

section Steps
variable {service : TripleStore σ} {query : String} {ctx : Context}
  {apply : Node → Run σ (Option Term)}

theorem takeSteps_append (first second : List PageStep) :
    takeSteps service query ctx apply (first ++ second) = (do
      let subjects ← takeSteps service query ctx apply first
      let more ← takeSteps service query ctx apply second
      return subjects ++ more) := by
  induction first with
  | nil => simp [takeSteps]
  | cons step rest ih =>
    simp only [List.cons_append, takeSteps, ih, bind_assoc, pure_bind, List.append_assoc]

theorem takeSteps_map_apply (rows : List Binding) :
    takeSteps service query ctx apply (rows.map .apply) =
      applyRows apply (rows.map .binding) := by
  induction rows with
  | nil => rfl
  | cons row rest ih => simp [takeSteps, takeStep, applyRows, ih]

theorem resolveNamed_congr {other : Context} {name : String}
    (same : Entries.get? name ctx = Entries.get? name other) :
    (resolveNamed ctx name : Run σ (Option String)) = resolveNamed other name := by
  simp only [resolveNamed, Context.resolve, same]

theorem get?_windowContext (offset limit : Nat) (name : String) :
    Entries.get? name (windowContext ctx offset limit) =
      if name = "limit" then some (.text (toString limit))
      else if name = "offset" then some (.text (toString offset))
      else Entries.get? name ctx := by
  simp only [windowContext, Context.set, Entries.get?_insert]

/-- A page names the window that it asks for. -/
theorem get?_pageContext {engine : Engine σ} {m : TriplesMap} {limit : Nat}
    (asks : AsksWindows engine service m query ctx) (limited : LimitedTo engine.config ctx limit)
    (offset : Nat) (name : String) :
    Entries.get? name (pageContext query ctx offset (pageSize engine.config)) =
      Entries.get? name (windowContext ctx offset limit) := by
  have before : "limit" < "offset" := by decide
  have asksOffset : (names query).contains "offset" = true := by simpa using asks.offset
  have asksLimit : (names query).contains "limit" = true := by simpa using asks.limit
  have unset : Entries.contains "offset" ctx = false := by simp [Entries.contains, asks.unset]
  rw [get?_windowContext]
  rcases limited with ⟨free, rfl⟩ | fixed
  · have open_ : Entries.contains "limit" ctx = false := by simp [Entries.contains, free]
    simp only [pageContext, asksOffset, asksLimit, unset, open_, Context.merged, Context.set,
      Context.empty, Entries.insertAll, Entries.insert, before, if_true, Bool.not_false,
      Bool.and_true, List.foldl_cons, List.foldl_nil, Entries.get?_insert]
    grind
  · have closed : Entries.contains "limit" ctx = true := by simp [Entries.contains, fixed]
    simp only [pageContext, asksOffset, unset, closed, Context.merged, Context.set,
      Context.empty, Entries.insertAll, Entries.insert, if_true, Bool.not_false, Bool.not_true,
      Bool.and_true, Bool.and_false, Bool.false_eq_true, if_false, List.foldl_cons,
      List.foldl_nil, Entries.get?_insert]
    grind

/-- A named hole is filled, and draws what its value draws. -/
theorem resolveNamed_of_named {name : String} {value : ContextValue} {ctx : Context}
    (named : Entries.get? name ctx = some value) (s : RunState σ) :
    outcome (resolveNamed ctx name : Run σ (Option String)) s =
      (.ok (some (value.resolve s.draws).1), { s with draws := (value.resolve s.draws).2 }) := by
  simp only [resolveNamed, outcome_modifyGet, Context.resolve, named]

theorem outcome_fill (parts : List Template.Part) (ctx : Context) (s : RunState σ) :
    (∃ cs t, outcome (Template.fill (resolveNamed ctx) parts) s = (.ok (.ok cs), t) ∧
      ∀ name, .hole name ∈ parts → Entries.get? name ctx ≠ none) ∨
    ∃ name t, outcome (Template.fill (resolveNamed ctx) parts) s = (.ok (.error name), t) ∧
      .hole name ∈ parts ∧ Entries.get? name ctx = none := by
  induction parts generalizing s with
  | nil => exact .inl ⟨[], s, rfl, by simp⟩
  | cons part rest ih =>
    cases part with
    | char c =>
      rw [Template.fill]
      rcases ih s with ⟨cs, t, later, named⟩ | ⟨name, t, later, hole, unnamed⟩
      · rw [outcome_bind_ok later]
        exact .inl ⟨c :: cs, t, rfl, by simpa using named⟩
      · rw [outcome_bind_ok later]
        exact .inr ⟨name, t, rfl, List.mem_cons_of_mem _ hole, unnamed⟩
    | hole name =>
      rw [Template.fill]
      cases found : Entries.get? name ctx with
      | none =>
        have first : outcome (resolveNamed ctx name : Run σ _) s = (.ok none, s) := by
          simp only [resolveNamed, outcome_modifyGet, Context.resolve, found]
        rw [outcome_bind_ok first]
        exact .inr ⟨name, s, rfl, by simp, found⟩
      | some value =>
        rw [outcome_bind_ok (resolveNamed_of_named found s)]
        dsimp only
        rcases ih { s with draws := (value.resolve s.draws).2 } with
          ⟨cs, t, later, named⟩ | ⟨other, t, later, hole, unnamed⟩
        · rw [outcome_bind_ok later]
          refine .inl ⟨(value.resolve s.draws).1.toList ++ cs, t, rfl, fun other hole => ?_⟩
          rcases List.mem_cons.mp hole with same | hole
          · cases same
            simp [found]
          · exact named other hole
        · rw [outcome_bind_ok later]
          exact .inr ⟨other, t, rfl, List.mem_cons_of_mem _ hole, unnamed⟩

/-- A query is expanded to a text if its holes are named, and misses the value of one that is
not. -/
theorem outcome_expand (query : String) (ctx : Context) (s : RunState σ) :
    (∃ text t, outcome (Template.expand (resolveNamed ctx) query) s = (.ok (.ok text), t) ∧
      ∀ name ∈ names query, Entries.get? name ctx ≠ none) ∨
    ∃ name t, outcome (Template.expand (resolveNamed ctx) query) s = (.ok (.error name), t) ∧
      name ∈ names query ∧ Entries.get? name ctx = none := by
  rw [Template.expand]
  rcases outcome_fill (Template.parts query) ctx s with
    ⟨cs, t, filled, named⟩ | ⟨name, t, filled, hole, unnamed⟩
  · rw [outcome_bind_ok filled]
    exact .inl ⟨String.ofList cs, t, rfl, fun name hn =>
      named name (Template.mem_names_iff.mp hn)⟩
  · rw [outcome_bind_ok filled]
    exact .inr ⟨name, t, rfl, Template.mem_names_iff.mpr hole, unnamed⟩

theorem expand_of_known (known : ∀ name ∈ names query, Entries.contains name ctx)
    (s : RunState σ) :
    ∃ text t, outcome (Template.expand (resolveNamed ctx) query) s = (.ok (.ok text), t) := by
  rcases outcome_expand query ctx s with ⟨text, t, expanded, -⟩ | ⟨name, t, -, hole, unnamed⟩
  · exact ⟨text, t, expanded⟩
  · have named := known name hole
    simp [Entries.contains, unnamed] at named

end Steps

section Asked
variable {engine : Engine σ} {service : TripleStore σ} {m : TriplesMap} {query : String}
  {ctx : Context} {limit : Nat} {rows : List Binding} {apply : Node → Run σ (Option Term)}

/-- A page is asked for as the window that it is. -/
theorem queryPage_pageContext (asks : AsksWindows engine service m query ctx)
    (limited : LimitedTo engine.config ctx limit) (offset : Nat) :
    queryPage service query (pageContext query ctx offset (pageSize engine.config)) =
      queryPage service query (windowContext ctx offset limit) := by
  unfold queryPage
  rw [Template.expand_congr fun name _ => resolveNamed_congr (get?_pageContext asks limited _ name)]

theorem queryPage_window (asks : AsksWindows engine service m query ctx)
    (serves : ServesWindows service query ctx limit rows) (offset : Nat) (s : RunState σ) :
    ∃ t, outcome (queryPage service query (windowContext ctx offset limit)) s =
      (.ok ((rows.drop offset).take limit), t) := by
  have known (name : String) (h : name ∈ names query) :
      Entries.contains name (windowContext ctx offset limit) := by
    unfold Entries.contains
    rw [get?_windowContext]
    split
    next => rfl
    next hl =>
      split
      next => rfl
      next ho => exact asks.known name h ho hl
  obtain ⟨text, t, expanded⟩ := expand_of_known known s
  have answer := serves offset s t text expanded t.store
  rcases asked : service.query text t.store with ⟨given, after⟩
  obtain rfl : given = .ok ((rows.drop offset).take limit) := by simpa [asked] using answer
  refine ⟨{ t with store := after, stats := { t.stats with queries := t.stats.queries + 1 } }, ?_⟩
  rw [queryPage, outcome_bind_ok expanded]
  dsimp only
  rw [outcome_bind, outcome_modifyGet]
  simp only [asked, outcome_bind, outcome_modify, outcome_pure]

theorem isPaged_of_asks (asks : AsksWindows engine service m query ctx) : isPaged query ctx := by
  have asksOffset : (names query).contains "offset" = true := by simpa using asks.offset
  have unset : Entries.contains "offset" ctx = false := by simp [Entries.contains, asks.unset]
  rw [isPaged, asksOffset, unset]
  rfl

/-- Asking page by page is asking for the windows one after another, up to the first that is
smaller than a page. -/
theorem queryPages_eq (asks : AsksWindows engine service m query ctx)
    (limited : LimitedTo engine.config ctx limit)
    (serves : ServesWindows service query ctx limit rows) {left offset : Nat}
    (granted : windowCount limit (pageSize engine.config) (rows.length - offset) ≤ left) :
    queryPages engine.config service apply m query ctx left offset =
      takeSteps service query ctx apply (pageSteps limit rows (List.range' offset
        (windowCount limit (pageSize engine.config) (rows.length - offset))
        (pageSize engine.config))) := by
  have positive : 0 < pageSize engine.config := by unfold pageSize; omega
  have least := windowCount_pos limit (pageSize engine.config) (rows.length - offset)
  induction left generalizing offset with
  | zero => omega
  | succ left ih =>
    refine eq_of_outcome fun s => ?_
    have paged := isPaged_of_asks asks
    obtain ⟨t, asked⟩ := queryPage_window asks serves offset s
    have size : ((rows.drop offset).take limit).length = min limit (rows.length - offset) := by
      rw [List.length_take, List.length_drop]
    have first : outcome (takeStep service query ctx apply (.ask offset limit)) s =
        (.ok [], t) := by
      rw [takeStep, outcome_bind_ok asked]
      rfl
    rw [queryPages, queryPage_pageContext asks limited, outcome_bind_ok asked, paged, size]
    by_cases short : min limit (rows.length - offset) < pageSize engine.config
    · rw [windowCount_of_short positive short]
      simp only [pageSteps, List.range'_one, List.flatMap_cons, List.flatMap_nil, List.append_nil,
        takeSteps, short]
      rw [outcome_bind_ok first, takeSteps_map_apply]
      simp
    · have full := windowCount_of_full positive (Nat.le_of_not_lt short)
      have next : rows.length - offset - pageSize engine.config =
          rows.length - (offset + pageSize engine.config) := by omega
      rw [next] at full
      rw [full] at granted ⊢
      have more := @ih (offset + pageSize engine.config) (by omega) (windowCount_pos _ _ _)
      have steps : pageSteps limit rows (List.range' offset (windowCount limit
            (pageSize engine.config) (rows.length - (offset + pageSize engine.config)) + 1)
            (pageSize engine.config)) =
          .ask offset limit :: (((rows.drop offset).take limit).map .apply ++
            pageSteps limit rows (List.range' (offset + pageSize engine.config) (windowCount limit
              (pageSize engine.config) (rows.length - (offset + pageSize engine.config)))
              (pageSize engine.config))) := by
        simp only [pageSteps, List.range'_succ, List.flatMap_cons, List.cons_append]
      rw [steps, takeSteps, outcome_bind_ok first, takeSteps_append, takeSteps_map_apply, more]
      simp [short]

theorem runMap_of_asks (asks : AsksWindows engine service m query ctx) (runParent : RunParent σ)
    (node : Node) :
    engine.runMap runParent m node ctx = queryPages engine.config service
      (applyRow engine.config runParent m ctx) m query ctx engine.pages 0 :=
  runMap_of_poses asks.store asks.source runParent node ctx

/-- Where the windows are served, only the application of the map to a row can fail. -/
theorem takeSteps_error {steps : List PageStep} {s t : RunState σ} {e : MappingError}
    (asked : ∀ offset limit, .ask offset limit ∈ steps → ∀ s, ∃ rows t,
      outcome (queryPage service query (windowContext ctx offset limit)) s = (.ok rows, t))
    (failed : outcome (takeSteps service query ctx apply steps) s = (.error e, t)) :
    ∃ done row rest subjects u, steps = done ++ .apply row :: rest ∧
      outcome (takeSteps service query ctx apply done) s = (.ok subjects, u) ∧
      outcome (apply (.binding row)) u = (.error e, t) := by
  induction steps generalizing s with
  | nil => cases failed
  | cons step steps ih =>
    rcases first : outcome (takeStep service query ctx apply step) s with ⟨e' | subjects, u⟩
    · rw [takeSteps, outcome_bind_error first] at failed
      cases failed
      cases step with
      | ask offset limit =>
        obtain ⟨rows, u, answer⟩ := asked offset limit (by simp) s
        rw [takeStep, outcome_bind_ok answer] at first
        cases first
      | apply row =>
        refine ⟨[], row, steps, [], s, rfl, rfl, ?_⟩
        rcases applied : outcome (apply (.binding row)) s with ⟨e' | subject, u⟩
        · rw [takeStep, outcome_bind_error applied] at first
          cases first
          rfl
        · rw [takeStep, outcome_bind_ok applied] at first
          cases first
    · rw [takeSteps, outcome_bind_ok first] at failed
      rcases later : outcome (takeSteps service query ctx apply steps) u with ⟨e' | more, v⟩
      · rw [outcome_bind_error later] at failed
        cases failed
        obtain ⟨done, row, rest, given, w, split, before, applied⟩ :=
          ih (fun offset limit h => asked offset limit (by simp [h])) later
        refine ⟨step :: done, row, rest, subjects ++ given, w, by rw [split]; rfl, ?_, applied⟩
        rw [takeSteps, outcome_bind_ok first, outcome_bind_ok before]
        rfl
      · rw [outcome_bind_ok later] at failed
        cases failed

/-- The steps that a map takes: windows of the limit at the offsets of the pages. -/
def walk (config : Config) (limit : Nat) (rows : List Binding) : List PageStep :=
  pageSteps limit rows (List.range' 0 (windowCount limit (pageSize config) rows.length)
    (pageSize config))

theorem runMap_eq_walk (asks : AsksWindows engine service m query ctx)
    (limited : LimitedTo engine.config ctx limit)
    (serves : ServesWindows service query ctx limit rows)
    (granted : windowCount limit (pageSize engine.config) rows.length ≤ engine.pages)
    (runParent : RunParent σ) (node : Node) :
    engine.runMap runParent m node ctx = takeSteps service query ctx
      (applyRow engine.config runParent m ctx) (walk engine.config limit rows) := by
  rw [runMap_of_asks asks]
  exact queryPages_eq asks limited serves granted

theorem rowsApplied_walk_eq_iff (config : Config) (limit : Nat) (rows : List Binding) :
    rowsApplied (walk config limit rows) = rows ↔
      limit = pageSize config ∨ rows.length ≤ min limit (pageSize config) := by
  have positive : 0 < pageSize config := by unfold pageSize; omega
  rw [walk, rowsApplied_pageSteps]
  exact windows_eq_iff positive

theorem walk_error (asks : AsksWindows engine service m query ctx)
    (serves : ServesWindows service query ctx limit rows) {config : Config} {s t : RunState σ}
    {e : MappingError}
    (failed : outcome (takeSteps service query ctx apply (walk config limit rows)) s =
      (.error e, t)) :
    ∃ done row rest subjects u, walk config limit rows = done ++ .apply row :: rest ∧
      outcome (takeSteps service query ctx apply done) s = (.ok subjects, u) ∧
      outcome (apply (.binding row)) u = (.error e, t) := by
  refine takeSteps_error ?_ failed
  intro offset limit' hs s
  have asked : (offset, limit') ∈ windowsAsked (walk config limit rows) :=
    List.mem_filterMap.mpr ⟨_, hs, rfl⟩
  rw [walk, windowsAsked_pageSteps] at asked
  obtain ⟨_, _, ⟨⟩⟩ := List.mem_map.mp asked
  obtain ⟨t, answer⟩ := queryPage_window asks serves offset s
  exact ⟨_, t, answer⟩

/-- Where the context leaves the limit open, a query is asked for one full page after another, as
often as a page fits into the rows and once more, and the map is applied to every row once and in
order. No step but such an application can fail. -/
theorem open_limit_covers_rows (asks : AsksWindows engine service m query ctx)
    (unset : Entries.get? "limit" ctx = none)
    (serves : ServesWindows service query ctx (pageSize engine.config) rows)
    (granted : rows.length / pageSize engine.config < engine.pages) (runParent : RunParent σ)
    (node : Node) :
    let size := pageSize engine.config
    let apply := applyRow engine.config runParent m ctx
    let steps := walk engine.config size rows
    engine.runMap runParent m node ctx = takeSteps service query ctx apply steps ∧
    rowsApplied steps = rows ∧
    windowsAsked steps = (List.range (rows.length / size + 1)).map (fun k => (k * size, size)) ∧
    ∀ s e t, outcome (engine.runMap runParent m node ctx) s = (.error e, t) →
      ∃ done row rest subjects u, steps = done ++ .apply row :: rest ∧
        outcome (takeSteps service query ctx apply done) s = (.ok subjects, u) ∧
        outcome (apply (.binding row)) u = (.error e, t) := by
  intro size apply steps
  have count : windowCount size size rows.length = rows.length / size + 1 := by simp [windowCount]
  have same : engine.runMap runParent m node ctx = takeSteps service query ctx apply steps :=
    runMap_eq_walk asks (.inl ⟨unset, rfl⟩) serves (count ▸ granted) runParent node
  refine ⟨same, (rowsApplied_walk_eq_iff _ _ _).mpr (.inl rfl), ?_, ?_⟩
  · have offsets : List.range' 0 (rows.length / size + 1) size =
        (List.range (rows.length / size + 1)).map (· * size) := by
      apply List.ext_getElem <;> simp [Nat.mul_comm]
    simp only [steps, walk]
    rw [windowsAsked_pageSteps, count, offsets, List.map_map]
    rfl
  · intro s e t failed
    rw [same] at failed
    exact walk_error asks serves failed

/-- Where the context fixes the limit, pages still begin at the multiples of the page size and end
with the first answer of fewer rows. So the map is applied to every row once and in order exactly if
the limit is the page size or all rows fit into one page; rows behind a smaller limit are lost, and
a larger one loses none. -/
theorem fixed_limit_covers_rows_iff (asks : AsksWindows engine service m query ctx)
    (fixed : Entries.get? "limit" ctx = some (.text (toString limit)))
    (serves : ServesWindows service query ctx limit rows)
    (granted : windowCount limit (pageSize engine.config) rows.length ≤ engine.pages)
    (runParent : RunParent σ) (node : Node) :
    let size := pageSize engine.config
    let apply := applyRow engine.config runParent m ctx
    let steps := walk engine.config limit rows
    engine.runMap runParent m node ctx = takeSteps service query ctx apply steps ∧
    (rowsApplied steps = rows ↔ limit = size ∨ rows.length ≤ min limit size) ∧
    (limit < size → rowsApplied steps = rows.take limit) ∧
    (size ≤ limit → rows.Sublist (rowsApplied steps)) := by
  intro size apply steps
  refine ⟨runMap_eq_walk asks (.inr fixed) serves granted runParent node,
    rowsApplied_walk_eq_iff _ _ _, ?_, ?_⟩
  · intro less
    simp only [steps, walk]
    rw [rowsApplied_pageSteps, windowCount, if_pos less]
    simp [windows]
  · intro more
    have positive : 0 < size := by simp only [size, pageSize]; omega
    have below : rows.length < 0 + (rows.length / size + 1) * size := rows_before_end rows positive
    have several : ¬ limit < size := by omega
    have all := sublist_windows more below
    simp only [steps, walk]
    rw [rowsApplied_pageSteps, windowCount, if_neg several]
    exact all

end Asked
def shelfQuery : String := "LIMIT \x7blimit\x7d OFFSET \x7boffset\x7d"

/-- Works on a shelf, which are asked for in windows. -/
def shelfMap : TriplesMap where
  iri := "works"
  logicalSource := some
    { formulation := .sparql, iterator := some "work", query := some shelfQuery }

def shelfRows : List Binding :=
  [[("work", .uri "w1")], [("work", .uri "w2")], [("work", .uri "w3")]]

def shelfText (limit offset : Nat) : String :=
  "LIMIT " ++ toString limit ++ " OFFSET " ++ toString offset

/-- The store that knows the windows of one limit. -/
def shelfStore (limit : Nat) : TripleStore Unit where
  query text s :=
    (.ok (match (List.range shelfRows.length).find? (shelfText limit · == text) with
      | some offset => (shelfRows.drop offset).take limit
      | none => []), s)
  update _ s := (.ok (), s)

def shelf (size limit : Nat) : Engine Unit where
  mapping := { maps := [shelfMap] }
  config := { pageSize := size }
  store := some (shelfStore limit)

theorem shelf_asks (size limit : Nat) {ctx : Context} (unset : Entries.get? "offset" ctx = none) :
    AsksWindows (shelf size limit) (shelfStore limit) shelfMap shelfQuery ctx := by
  have holes : names shelfQuery = ["limit", "offset"] := by decide +kernel
  refine ⟨rfl, ⟨_, rfl, rfl, rfl⟩, ?_, ?_, unset, ?_⟩
  · simp [holes]
  · simp [holes]
  · intro name h ho hl
    simp [holes, ho, hl] at h

theorem shelfText_inj {limit a b : Nat} (same : shelfText limit a = shelfText limit b) : a = b :=
  Text.toString_inj ((String.append_right_inj _).mp same)

theorem shelf_answers (limit offset : Nat) (s : Unit) :
    ((shelfStore limit).query (shelfText limit offset) s).1 =
      .ok ((shelfRows.drop offset).take limit) := by
  have same (a : Nat) : (shelfText limit a == shelfText limit offset) = (a == offset) := by
    rw [Bool.eq_iff_iff, beq_iff_eq, beq_iff_eq]
    exact ⟨shelfText_inj, fun h => by rw [h]⟩
  match offset with
  | 0 | 1 | 2 => simp [shelfStore, same, shelfRows, List.range_succ]
  | n + 3 => simp [shelfStore, same, shelfRows, List.range_succ]

theorem shelf_serves (limit : Nat) (ctx : Context) :
    ServesWindows (shelfStore limit) shelfQuery ctx limit shelfRows := by
  intro offset s t text expanded state
  have parts : Template.parts shelfQuery =
      [.char 'L', .char 'I', .char 'M', .char 'I', .char 'T', .char ' ', .hole "limit",
        .char ' ', .char 'O', .char 'F', .char 'F', .char 'S', .char 'E', .char 'T', .char ' ',
        .hole "offset"] := by decide +kernel
  have limitNamed : Entries.get? "limit" (windowContext ctx offset limit) =
      some (.text (toString limit)) := by simp [get?_windowContext]
  have offsetNamed : Entries.get? "offset" (windowContext ctx offset limit) =
      some (.text (toString offset)) := by simp [get?_windowContext]
  obtain rfl : shelfText limit offset = text := by
    simp [Template.expand, parts, Template.fill, outcome_bind, resolveNamed, Context.resolve,
      limitNamed, offsetNamed, ContextValue.resolve] at expanded
    rw [← expanded.1]
    apply String.toList_inj.mp
    simp [shelfText]
  exact shelf_answers limit offset state

theorem shelf_read_page_by_page :
    ServesWindows (shelfStore 2) shelfQuery .empty 2 shelfRows ∧
    (shelf 2 2).runMap (fun _ _ _ => pure []) shelfMap .empty .empty =
      takeSteps (shelfStore 2) shelfQuery .empty
        (applyRow (shelf 2 2).config (fun _ _ _ => pure []) shelfMap .empty)
        (walk (shelf 2 2).config 2 shelfRows) ∧
    rowsApplied (walk (shelf 2 2).config 2 shelfRows) = shelfRows ∧
    windowsAsked (walk (shelf 2 2).config 2 shelfRows) = [(0, 2), (2, 2)] := by
  have serves := shelf_serves 2 .empty
  obtain ⟨same, applied, asked, _⟩ := open_limit_covers_rows (shelf_asks 2 2 rfl) rfl serves
    (by decide) (fun _ _ _ => pure []) .empty
  exact ⟨serves, same, applied, asked⟩

/-- Behind a limit of one row per page of two, the other rows are lost. -/
theorem shelf_cut_at_limit :
    ServesWindows (shelfStore 1) shelfQuery (Context.set "limit" "1" .empty) 1 shelfRows ∧
    (shelf 2 1).runMap (fun _ _ _ => pure []) shelfMap .empty (Context.set "limit" "1" .empty) =
      takeSteps (shelfStore 1) shelfQuery (Context.set "limit" "1" .empty)
        (applyRow (shelf 2 1).config (fun _ _ _ => pure []) shelfMap
          (Context.set "limit" "1" .empty))
        (walk (shelf 2 1).config 1 shelfRows) ∧
    rowsApplied (walk (shelf 2 1).config 1 shelfRows) = [[("work", .uri "w1")]] ∧
    rowsApplied (walk (shelf 2 1).config 1 shelfRows) ≠ shelfRows := by
  have serves := shelf_serves 1 (Context.set "limit" "1" .empty)
  obtain ⟨same, covers, cut, _⟩ := fixed_limit_covers_rows_iff (shelf_asks 2 1 (by decide)) rfl
    serves (by decide) (fun _ _ _ => pure []) .empty
  refine ⟨serves, same, cut (by decide), ?_⟩
  intro all
  exact absurd (covers.mp all) (by decide)

/-- With a limit of two rows per page of one, rows are applied twice. -/
theorem shelf_repeats_rows :
    AsksWindows (shelf 1 2) (shelfStore 2) shelfMap shelfQuery (Context.set "limit" "2" .empty) ∧
    ServesWindows (shelfStore 2) shelfQuery (Context.set "limit" "2" .empty) 2 shelfRows ∧
    (outcome ((shelf 1 2).runMap (fun _ _ _ => pure []) shelfMap .empty
        (Context.set "limit" "2" .empty)) (start {} ())).1 =
      .ok [.iri "w1", .iri "w2", .iri "w2", .iri "w3", .iri "w3"] ∧
    ¬ rowsApplied (walk (shelf 1 2).config 2 shelfRows) = shelfRows := by
  refine ⟨shelf_asks 1 2 (by decide), shelf_serves 2 _, by decide +kernel, ?_⟩
  rw [rowsApplied_walk_eq_iff]
  decide

end Engine
end CatalogGraph
