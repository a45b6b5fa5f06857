import SplitHorizon.Proofs.Except
import SplitHorizon.Server.Schedule
/-!
# Steps and orders of steps

What one step of a reload or of a query can do, as a relation with one rule for each outcome, and
the orders of steps that lead from the initial state to a state. An order of steps is kept with the
state that it leads to, so that what is said of the past of a state is said of one list of events.
-/

namespace SplitHorizon.Schedule

/-! ## One step -/

/-- **What a step does.** Every rule names the phase that it is due in. -/
inductive Step (s : State) : Event → State → Prop
  | request : Step s .request { s with reloads := s.reloads ++ [.waiting] }
  | enter {i : Nat} (phase : s.reloads[i]? = some .waiting) (free : s.holder = none) :
      Step s (.enter i) { s.setPhase i .loading with holder := some i }
  | load {i : Nat} {what : Loaded} (phase : s.reloads[i]? = some .loading) :
      Step s (.load i what) (s.setPhase i (.loaded what))
  | build {i : Nat} {what : Loaded} {store : Store} (phase : s.reloads[i]? = some (.loaded what))
      (built : Store.ofLoaded what = .ok store) : Step s (.build i) (s.setPhase i (.built store))
  | fail {i : Nat} {what : Loaded} {why : ConfigFault}
      (phase : s.reloads[i]? = some (.loaded what)) (failed : Store.ofLoaded what = .error why) :
      Step s (.build i) (s.setPhase i .settled)
  | publish {i : Nat} {store : Store} (phase : s.reloads[i]? = some (.built store)) :
      Step s (.publish i) { s.setPhase i .settled with installed := store }
  | leave {i : Nat} (phase : s.reloads[i]? = some .settled) :
      Step s (.leave i) { s.setPhase i .done with holder := none }
  | ask {q : Query} :
      Step s (.ask q) { s with queries := s.queries ++ [⟨q, s.installed, none, none⟩] }
  | look {k : Nat} {q : Query} {store : Store} {targets : Option (List Target)}
      (query : s.queries[k]? = some ⟨q, store, none, targets⟩) :
      Step s (.look k) (s.setQuery k ⟨q, store, some (q.findLocal store), targets⟩)
  | choose {k : Nat} {q : Query} {store : Store}
      (query : s.queries[k]? = some ⟨q, store, some none, none⟩) :
      Step s (.choose k) (s.setQuery k ⟨q, store, some none, some (store.targets q.client)⟩)

/-- A step that comes in its turn is one of those that are listed. -/
theorem step_of_eq_some {s s' : State} {e : Event} (h : s.step e = some s') : Step s e s' := by
  cases e with
  | request =>
    cases h
    exact .request
  | enter i =>
    simp only [State.step] at h
    split at h
    · cases h
      exact .enter ‹_› ‹_›
    · cases h
  | load i what =>
    simp only [State.step] at h
    split at h
    · cases h
      exact .load ‹_›
    · cases h
  | build i =>
    simp only [State.step] at h
    split at h
    · split at h
      · cases h
        exact .build ‹_› ‹_›
      · cases h
        exact .fail ‹_› ‹_›
    · cases h
  | publish i =>
    simp only [State.step] at h
    split at h
    · cases h
      exact .publish ‹_›
    · cases h
  | leave i =>
    simp only [State.step] at h
    split at h
    · cases h
      exact .leave ‹_›
    · cases h
  | ask q =>
    cases h
    exact .ask
  | look k =>
    simp only [State.step] at h
    split at h
    · cases h
      exact .look ‹_›
    · cases h
  | choose k =>
    simp only [State.step] at h
    split at h
    · cases h
      exact .choose ‹_›
    · cases h

/-- Each of the steps that are listed comes in its turn. -/
theorem Step.eq_some {s s' : State} {e : Event} (h : Step s e s') : s.step e = some s' := by
  cases h with
  | request => rfl
  | enter phase free => simp only [State.step, phase, free]
  | load phase => simp only [State.step, phase]
  | build phase built => simp only [State.step, phase, built]
  | fail phase failed => simp only [State.step, phase, failed]
  | publish phase => simp only [State.step, phase]
  | leave phase => simp only [State.step, phase]
  | ask => rfl
  | look query => simp only [State.step, query]
  | choose query => simp only [State.step, query]

/-- **The steps that come in their turn are those that are listed.** -/
theorem step_eq_some_iff {s s' : State} {e : Event} : s.step e = some s' ↔ Step s e s' :=
  ⟨step_of_eq_some, Step.eq_some⟩

/-! ## Orders of steps -/

/-- A run is its first step and the run from there. -/
theorem run_cons_eq_some_iff {s s' : State} {e : Event} {events : List Event} :
    s.run (e :: events) = some s' ↔ ∃ s₁, Step s e s₁ ∧ s₁.run events = some s' := by
  rw [State.run, List.foldlM_cons, Option.bind_eq_bind, Option.bind_eq_some_iff]
  exact exists_congr fun s₁ => and_congr_left' step_eq_some_iff

theorem run_append_eq_some_iff {s s' : State} {before events : List Event} :
    s.run (before ++ events) = some s' ↔
      ∃ s₁, s.run before = some s₁ ∧ s₁.run events = some s' := by
  rw [State.run, List.foldlM_append, Option.bind_eq_bind, Option.bind_eq_some_iff]
  rfl

/-- A list of events in their turn, and the state that it leads to. -/
inductive Reaches : List Event → State → Prop
  | initial : Reaches [] .initial
  | step {events : List Event} {s s' : State} {e : Event} (before : Reaches events s)
      (step : Step s e s') : Reaches (events ++ [e]) s'

/-- More events in their turn lead on. -/
theorem Reaches.run {before events : List Event} {s s' : State} (h : Reaches before s)
    (hrun : s.run events = some s') : Reaches (before ++ events) s' := by
  induction events generalizing before s with
  | nil =>
    cases hrun
    rwa [List.append_nil]
  | cons e events ih =>
    obtain ⟨s₁, hstep, hrun⟩ := run_cons_eq_some_iff.mp hrun
    rw [← List.singleton_append, ← List.append_assoc]
    exact ih (h.step hstep) hrun

/-- What a run comes to can be reached by its steps. -/
theorem reaches_of_run {events : List Event} {s : State} (h : State.initial.run events = some s) :
    Reaches events s :=
  Reaches.initial.run h

/-- What can be reached by steps is what their run comes to. -/
theorem Reaches.run_eq {events : List Event} {s : State} (h : Reaches events s) :
    State.initial.run events = some s := by
  induction h with
  | initial => rfl
  | step before step ih =>
    exact run_append_eq_some_iff.mpr ⟨_, ih, run_cons_eq_some_iff.mpr ⟨_, step, rfl⟩⟩

/-! ## What the events tell -/

/-- The loads among events, in order: the number of the reload and what was read for it. -/
def loads (events : List Event) : List (Nat × Loaded) :=
  events.filterMap fun e =>
    match e with
    | .load i what => some (i, what)
    | _ => none

/-- The reloads that have put a store in place, in order. -/
def publications (events : List Event) : List Nat :=
  events.filterMap fun e =>
    match e with
    | .publish i => some i
    | _ => none

/-- The number of queries that have started. -/
def asked (events : List Event) : Nat :=
  events.countP fun e =>
    match e with
    | .ask _ => true
    | _ => false

/-- The loads of which a store could be built, with that store. -/
def builds (events : List Event) : List (Nat × Store) :=
  (loads events).filterMap fun l => (Store.ofLoaded l.2).toOption.map fun store => (l.1, store)

theorem loads_append (events events' : List Event) :
    loads (events ++ events') = loads events ++ loads events' :=
  List.filterMap_append

/-- An event that is no load reads nothing. -/
theorem loads_concat {e : Event} (h : loads [e] = []) (events : List Event) :
    loads (events ++ [e]) = loads events := by
  rw [loads_append, h, List.append_nil]

theorem publications_append (events events' : List Event) :
    publications (events ++ events') = publications events ++ publications events' :=
  List.filterMap_append

theorem asked_append (events events' : List Event) :
    asked (events ++ events') = asked events + asked events' :=
  List.countP_append

theorem builds_append (events events' : List Event) :
    builds (events ++ events') = builds events ++ builds events' := by
  rw [builds, loads_append, List.filterMap_append]
  rfl

/-- A build comes from a load that was read and built. -/
theorem mem_builds_iff {events : List Event} {i : Nat} {store : Store} :
    (i, store) ∈ builds events ↔
      ∃ what, (i, what) ∈ loads events ∧ Store.ofLoaded what = .ok store := by
  simp only [builds, List.mem_filterMap, Option.map_eq_some_iff, toOption_eq_some_iff,
    Prod.mk.injEq, Prod.exists]
  constructor
  · intro h
    obtain ⟨_, what, hmem, _, hbuilt, rfl, rfl⟩ := h
    exact ⟨what, hmem, hbuilt⟩
  · intro h
    obtain ⟨what, hmem, hbuilt⟩ := h
    exact ⟨i, what, hmem, store, hbuilt, rfl, rfl⟩

/-- What has been read and built was read in that order. -/
theorem builds_sublist (events : List Event) :
    ((builds events).map Prod.fst).Sublist ((loads events).map Prod.fst) := by
  unfold builds
  induction loads events with
  | nil => exact .slnil
  | cons l ls ih =>
    obtain ⟨i, what⟩ := l
    rw [List.filterMap_cons]
    cases Store.ofLoaded what with
    | error why => exact ih.cons i
    | ok store => exact ih.cons_cons i

end SplitHorizon.Schedule
