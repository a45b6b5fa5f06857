import SplitHorizon.Proofs.Server.Lock
/-!
# Reloads one after the other, queries with one store each

What holds after every order of steps of any number of reloads and queries. The stores that could be
built of what was read are put in place in the order of the reads, and only the last of them may
still be under way (`Installed`). A query keeps the store that was in place when it started
(`Asked`).

`consistent_of_run` puts both together with the lock, and ties them to reloads and queries that are
done at once: the loads one after the other leave the same store, and a query comes to the same
answer or to the same walk.
-/

namespace SplitHorizon.Schedule

/-! ## The store in place -/

/-- The store of a reload that is built of what was read, or can be, and is not in place yet. -/
def Phase.unpublished (reload : Nat) : Phase → List (Nat × Store)
  | loaded what => ((Store.ofLoaded what).toOption.map fun store => (reload, store)).toList
  | built store => [(reload, store)]
  | waiting | loading | settled | done => []

/-- The store under way: that of the reload at work. -/
def State.pending (s : State) : List (Nat × Store) :=
  match s.holder with
  | none => []
  | some i => (s.reloads[i]?.map (Phase.unpublished i)).getD []

/-- How the store in place came there: the builds have been put in place in their order, but for the
one that is under way. -/
structure Installed (published : List (Nat × Store)) (events : List Event) (s : State) : Prop where
  builds_eq : builds events = published ++ s.pending
  publications_eq : publications events = published.map Prod.fst
  installed_eq : s.installed = (published.map Prod.snd).getLast?.getD .empty

/-- What is under way is the store of the reload that holds the lock. -/
theorem pending_of_holder {s : State} {i : Nat} {p : Phase} (hholder : s.holder = some i)
    (hi : s.reloads[i]? = some p) : s.pending = p.unpublished i := by
  simp only [State.pending, hholder, hi, Option.map_some, Option.getD_some]

theorem pending_of_free {s : State} (hholder : s.holder = none) : s.pending = [] := by
  simp only [State.pending, hholder]

/-- What a load adds to the builds is what is under way then. -/
theorem builds_load (i : Nat) (what : Loaded) :
    builds [.load i what] = (Phase.loaded what).unpublished i := by
  show List.filterMap _ [(i, what)] = _
  rw [List.filterMap_cons, List.filterMap_nil, Phase.unpublished]
  cases Store.ofLoaded what with
  | error why => rfl
  | ok store => rfl

/-- A step that puts nothing in place. -/
theorem Installed.keep {published : List (Nat × Store)} {events : List Event} {s s' : State}
    {e : Event} (h : Installed published events s) (hpending : s'.pending = s.pending ++ builds [e])
    (hinstalled : s'.installed = s.installed) (hpublications : publications [e] = []) :
    Installed published (events ++ [e]) s' where
  builds_eq := by rw [builds_append, h.builds_eq, hpending, List.append_assoc]
  publications_eq := by
    rw [publications_append, h.publications_eq, hpublications, List.append_nil]
  installed_eq := hinstalled.trans h.installed_eq

/-- A step of the reload that holds the lock, and keeps it. -/
theorem pending_setPhase {events : List Event} {s : State} (h : Locked events s) (s' : State)
    {i : Nat} {p q : Phase} (hi : s.reloads[i]? = some p) (hp : p.isAtWork = true)
    (hreloads : s'.reloads = (s.setPhase i q).reloads) (hholder : s'.holder = s.holder) :
    s.pending = p.unpublished i ∧ s'.pending = q.unpublished i := by
  have hheld := h.holder_of_atWork hi hp
  refine ⟨pending_of_holder hheld hi, pending_of_holder (hholder.trans hheld) ?_⟩
  rw [hreloads, getElem?_setPhase hi, if_pos rfl]

/-- A reload that waits has nothing under way. -/
theorem pending_request {events : List Event} {s : State} (h : Locked events s) (s' : State)
    (hreloads : s'.reloads = s.reloads ++ [.waiting]) (hholder : s'.holder = s.holder) :
    s'.pending = s.pending := by
  cases hheld : s.holder with
  | none => rw [pending_of_free hheld, pending_of_free (hholder.trans hheld)]
  | some i =>
    obtain ⟨p, hi⟩ := h.holds i hheld
    rw [pending_of_holder hheld hi]
    refine pending_of_holder (hholder.trans hheld) ?_
    rw [hreloads, List.getElem?_append_left (List.getElem?_eq_some_iff.mp hi).1, hi]

/-- **Every step keeps the stores in their order.** Only the reload at work adds to them, and what
it puts in place is what was under way. -/
theorem Installed.step {published : List (Nat × Store)} {events : List Event} {s s' : State}
    {e : Event} (h : Installed published events s) (hlock : Locked events s) (hstep : Step s e s') :
    ∃ published', Installed published' (events ++ [e]) s' := by
  cases hstep with
  | request =>
    refine ⟨published, h.keep ?_ rfl rfl⟩
    exact (pending_request hlock { s with reloads := s.reloads ++ [.waiting] } rfl rfl).trans
      (List.append_nil _).symm
  | @enter i phase free =>
    refine ⟨published, h.keep ?_ rfl rfl⟩
    rw [pending_of_free free]
    exact pending_of_holder (s := { s.setPhase i .loading with holder := some i }) rfl
      ((getElem?_setPhase phase .loading i).trans (if_pos rfl))
  | @load i what phase =>
    refine ⟨published, h.keep ?_ rfl rfl⟩
    obtain ⟨hbefore, hafter⟩ :=
      pending_setPhase hlock (s.setPhase i (.loaded what)) phase rfl rfl rfl
    rw [hbefore, hafter, builds_load]
    rfl
  | @build i what store phase built =>
    refine ⟨published, h.keep ?_ rfl rfl⟩
    obtain ⟨hbefore, hafter⟩ :=
      pending_setPhase hlock (s.setPhase i (.built store)) phase rfl rfl rfl
    rw [hbefore, hafter, Phase.unpublished, built]
    rfl
  | @fail i what why phase failed =>
    refine ⟨published, h.keep ?_ rfl rfl⟩
    obtain ⟨hbefore, hafter⟩ :=
      pending_setPhase hlock (s.setPhase i .settled) phase rfl rfl rfl
    rw [hbefore, hafter, Phase.unpublished, failed]
    rfl
  | @publish i store phase =>
    obtain ⟨hbefore, hafter⟩ := pending_setPhase hlock
      { s.setPhase i .settled with installed := store } phase rfl rfl rfl
    refine ⟨published ++ [(i, store)], ?_, ?_, ?_⟩
    · rw [builds_append, h.builds_eq, hbefore, hafter]
      rfl
    · rw [publications_append, h.publications_eq, List.map_append]
      rfl
    · simp only [List.map_append, List.map_cons, List.map_nil, List.getLast?_concat,
        Option.getD_some]
  | @leave i phase =>
    refine ⟨published, h.keep ?_ rfl rfl⟩
    rw [pending_of_holder (hlock.holder_of_atWork phase rfl) phase]
    rfl
  | ask => exact ⟨published, h.keep (List.append_nil _).symm rfl rfl⟩
  | look => exact ⟨published, h.keep (List.append_nil _).symm rfl rfl⟩
  | choose => exact ⟨published, h.keep (List.append_nil _).symm rfl rfl⟩

/-- In all states that can be reached, the store in place came there in the order of the builds. -/
theorem Reaches.installed {events : List Event} {s : State} (h : Reaches events s) :
    ∃ published, Installed published events s := by
  induction h with
  | initial => exact ⟨[], rfl, rfl, rfl⟩
  | step before step ih =>
    obtain ⟨published, h⟩ := ih
    exact h.step before.locked step

/-- The store in place is built of what the last reload to put one in place has read. -/
theorem Installed.last {published : List (Nat × Store)} {events : List Event} {s : State}
    (h : Installed published events s) {i : Nat} (hi : (publications events).getLast? = some i) :
    ∃ text, (i, .ok text) ∈ loads events ∧ Store.build text = .ok s.installed := by
  rw [h.publications_eq, List.getLast?_map, Option.map_eq_some_iff] at hi
  obtain ⟨⟨i, store⟩, hlast, rfl⟩ := hi
  have hinstalled : s.installed = store := by
    rw [h.installed_eq, List.getLast?_map, hlast]
    rfl
  have hmem : (i, store) ∈ builds events := by
    rw [h.builds_eq]
    exact List.mem_append_left _ (List.mem_of_getLast? hlast)
  obtain ⟨what, hload, hbuilt⟩ := mem_builds_iff.mp hmem
  cases what with
  | error why => cases hbuilt
  | ok text => exact ⟨text, hload, hinstalled ▸ hbuilt⟩

/-- Stores are put in place in the order in which they were read. -/
theorem Installed.inOrder {published : List (Nat × Store)} {events : List Event} {s : State}
    (h : Installed published events s) :
    (publications events).Sublist ((loads events).map Prod.fst) := by
  refine List.Sublist.trans ?_ (builds_sublist events)
  rw [h.publications_eq, h.builds_eq, List.map_append]
  exact List.sublist_append_left _ _

/-- With no reload at work, the store is that of the latest load of which one could be built. -/
theorem Installed.latest {published : List (Nat × Store)} {events : List Event} {s : State}
    (h : Installed published events s) (hlock : Locked events s)
    (hidle : ∀ p ∈ s.reloads, p.isAtWork = false) :
    s.installed = ((builds events).map Prod.snd).getLast?.getD .empty := by
  have hfree : s.holder = none := by
    rw [Option.eq_none_iff_forall_not_mem]
    intro i hi
    obtain ⟨p, hp⟩ := hlock.holds i hi
    have hwork := (hlock.atWork i p hp).mpr hi
    rw [hidle p (List.mem_of_getElem? hp)] at hwork
    cases hwork
  rw [h.installed_eq, h.builds_eq, pending_of_free hfree, List.append_nil]

/-- Reloading with one load after the other ends with the last store that could be built. -/
theorem foldl_reload (events : List Event) (store : Store) :
    (loads events).foldl (fun installed l => installed.reload l.2) store =
      ((builds events).map Prod.snd).getLast?.getD store := by
  unfold builds
  induction loads events generalizing store with
  | nil => rfl
  | cons l ls ih =>
    rw [List.foldl_cons, ih, Store.reload, List.filterMap_cons]
    cases Store.ofLoaded l.2 with
    | error why => rfl
    | ok built =>
      simp only [Except.toOption, Option.map_some, List.map_cons, List.getLast?_cons,
        Option.getD_some]
      rfl

/-- With no reload at work, the store is the one that the loads would have left if each reload had
been done at once. -/
theorem Installed.reloaded {published : List (Nat × Store)} {events : List Event} {s : State}
    (h : Installed published events s) (hlock : Locked events s)
    (hidle : ∀ p ∈ s.reloads, p.isAtWork = false) :
    s.installed = (loads events).foldl (fun installed l => installed.reload l.2) .empty := by
  rw [h.latest hlock hidle, foldl_reload]

/-! ## Reloads that fail -/

/-- A reload whose load comes to nothing puts nothing in place. -/
theorem Installed.not_mem_of_failed {published : List (Nat × Store)} {events : List Event}
    {s : State} (h : Installed published events s) (hlock : Locked events s) {i : Nat}
    {what : Loaded} {why : ConfigFault} (hload : (i, what) ∈ loads events)
    (hfailed : Store.ofLoaded what = .error why) : i ∉ publications events := by
  intro hi
  rw [h.publications_eq, List.mem_map] at hi
  obtain ⟨⟨i, store⟩, hmem, rfl⟩ := hi
  have hbuild : (i, store) ∈ builds events := by
    rw [h.builds_eq]
    exact List.mem_append_left _ hmem
  obtain ⟨what', hload', hbuilt⟩ := mem_builds_iff.mp hbuild
  rw [hlock.eq_of_mem_loads hload hload', hbuilt] at hfailed
  cases hfailed

/-- Only the reload that holds the lock puts a store in place, so nothing new is in place after a
reload has taken the lock, as long as it puts nothing there itself and no other takes the lock. -/
theorem installed_eq_of_not_mem {before during : List Event} {s s' : State} {i : Nat}
    (h : Reaches before s) (hholder : ∀ j, s.holder = some j → j = i)
    (henter : ∀ j, .enter j ∉ during) (hi : i ∉ publications during)
    (hrun : s.run during = some s') : s'.installed = s.installed := by
  induction during generalizing before s with
  | nil =>
    cases hrun
    rfl
  | cons e during ih =>
    obtain ⟨s₁, hstep, hrun⟩ := run_cons_eq_some_iff.mp hrun
    rw [← List.singleton_append, publications_append, List.mem_append, not_or] at hi
    have hrest := fun hholder => ih (h.step hstep) hholder
      (fun j hj => henter j (List.mem_cons_of_mem _ hj)) hi.2 hrun
    cases hstep with
    | @enter j => exact absurd (List.mem_cons_self) (henter j)
    | @publish j store phase =>
      have hj := hholder j (h.locked.holder_of_atWork phase rfl)
      exact absurd (List.mem_singleton.mpr hj.symm) hi.1
    | leave => exact hrest fun j hj => by cases hj
    | request => exact hrest hholder
    | load => exact hrest hholder
    | build => exact hrest hholder
    | fail => exact hrest hholder
    | ask => exact hrest hholder
    | look => exact hrest hholder
    | choose => exact hrest hholder

/-- A reload whose load comes to nothing leaves the store as it was when it took the lock, as long
as no other reload takes it. -/
theorem Installed.eq_of_failed {published : List (Nat × Store)} {before during : List Event}
    {s₀ s : State} {i : Nat} {what : Loaded} {why : ConfigFault}
    (h : Installed published (before ++ .enter i :: during) s)
    (hrun : State.initial.run (before ++ .enter i :: during) = some s)
    (hbefore : State.initial.run before = some s₀) (henter : ∀ j, .enter j ∉ during)
    (hload : (i, what) ∈ loads (before ++ .enter i :: during))
    (hfailed : Store.ofLoaded what = .error why) : s.installed = s₀.installed := by
  have hnot := h.not_mem_of_failed (reaches_of_run hrun).locked hload hfailed
  rw [← List.singleton_append, publications_append, publications_append, List.mem_append,
    List.mem_append, not_or, not_or] at hnot
  obtain ⟨s₁, hs₁, hafter⟩ := run_append_eq_some_iff.mp hrun
  obtain rfl : s₀ = s₁ := Option.some.inj (hbefore.symm.trans hs₁)
  obtain ⟨s₂, hstep, hduring⟩ := run_cons_eq_some_iff.mp hafter
  have htaken : s₂.installed = s₀.installed ∧ s₂.holder = some i := by
    cases hstep
    exact ⟨rfl, rfl⟩
  rw [← htaken.1]
  refine installed_eq_of_not_mem ((reaches_of_run hbefore).step hstep) (fun j hj => ?_) henter
    hnot.2.2 hduring
  rw [htaken.2] at hj
  exact (Option.some.inj hj).symm

/-! ## Queries -/

/-- A query started when a store was in place, and how many queries had started before it. -/
def StartedWith (events : List Event) (k : Nat) (q : Query) (store : Store) : Prop :=
  ∃ before after s, events = before ++ .ask q :: after ∧ asked before = k ∧
    State.initial.run before = some s ∧ s.installed = store

/-- A query has a store, and what it has found is what that store has for it. -/
structure Running.Keeps (r : Running) (store : Store) : Prop where
  store_eq : r.store = store
  answer_eq : ∀ answer, r.answer = some answer → answer = r.query.findLocal store
  targets_eq : ∀ targets, r.targets = some targets →
    r.query.findLocal store = none ∧ targets = store.targets r.query.client

/-- What a query has found so far settles what it comes to when it is resolved at once in its store,
whatever is outside. -/
structure Running.Resolves (r : Running) : Prop where
  found_eq : ∀ {m : Type → Type} [Monad m] (out : Outside m) (wire : List UInt8) answer,
    r.answer = some (some answer) →
      r.query.resolve out r.store wire = pure ⟨[], .ok (.found answer)⟩
  relayed_eq : ∀ {m : Type → Type} [Monad m] (out : Outside m) (wire : List UInt8) targets,
    r.targets = some targets → r.query.resolve out r.store wire = (do
      let walked ← Recursion.walk out r.query.protocol wire targets
      pure ⟨walked.calls, walked.result.map .relayed⟩)

/-- The queries so far, each with the store that was in place when it started. -/
structure Asked (events : List Event) (s : State) : Prop where
  count : s.queries.length = asked events
  keeps : ∀ (k : Nat) r, s.queries[k]? = some r →
    ∃ store, StartedWith events k r.query store ∧ r.Keeps store

theorem StartedWith.append {events : List Event} {k : Nat} {q : Query} {store : Store}
    (h : StartedWith events k q store) (e : Event) : StartedWith (events ++ [e]) k q store := by
  obtain ⟨before, after, s, rfl, hk, hrun, hstore⟩ := h
  refine ⟨before, after ++ [e], s, ?_, hk, hrun, hstore⟩
  rw [List.append_assoc, List.cons_append]

/-- A step that leaves the queries as they are. -/
theorem Asked.keep {events : List Event} {s s' : State} {e : Event} (h : Asked events s)
    (hqueries : s'.queries = s.queries) (hasked : asked [e] = 0) : Asked (events ++ [e]) s' where
  count := by rw [hqueries, h.count, asked_append, hasked, Nat.add_zero]
  keeps k r hr := by
    rw [hqueries] at hr
    obtain ⟨store, hstarted, hkeeps⟩ := h.keeps k r hr
    exact ⟨store, hstarted.append e, hkeeps⟩

/-- A query finds something in its store. -/
theorem Asked.setQuery {events : List Event} {s : State} {e : Event} (h : Asked events s) {k : Nat}
    {r r' : Running} (hk : s.queries[k]? = some r) (hquery : r'.query = r.query)
    (hkeeps : ∀ store, r.Keeps store → r'.Keeps store) (hasked : asked [e] = 0) :
    Asked (events ++ [e]) (s.setQuery k r') := by
  have hlt : k < s.queries.length := (List.getElem?_eq_some_iff.mp hk).1
  refine ⟨?_, fun j t ht => ?_⟩
  · rw [State.setQuery, List.length_set, h.count, asked_append, hasked, Nat.add_zero]
  · simp only [State.setQuery, List.getElem?_set, hlt, if_true] at ht
    by_cases hj : k = j
    · subst hj
      rw [if_pos rfl, Option.some.injEq] at ht
      subst ht
      obtain ⟨store, hstarted, hr⟩ := h.keeps k r hk
      exact ⟨store, hquery ▸ hstarted.append e, hkeeps store hr⟩
    · rw [if_neg hj] at ht
      obtain ⟨store, hstarted, hr⟩ := h.keeps j t ht
      exact ⟨store, hstarted.append e, hr⟩

/-- **Every step leaves the queries their stores.** One that starts is given the store in place, and
the others look into the ones that they have. -/
theorem Asked.step {events : List Event} {s s' : State} {e : Event} (h : Asked events s)
    (hrun : State.initial.run events = some s) (hstep : Step s e s') :
    Asked (events ++ [e]) s' := by
  cases hstep with
  | request => exact h.keep rfl rfl
  | enter => exact h.keep rfl rfl
  | load => exact h.keep rfl rfl
  | build => exact h.keep rfl rfl
  | fail => exact h.keep rfl rfl
  | publish => exact h.keep rfl rfl
  | leave => exact h.keep rfl rfl
  | @ask q =>
    refine ⟨?_, fun k r hr => ?_⟩
    · rw [List.length_append, h.count, asked_append]
      rfl
    · rw [List.getElem?_append] at hr
      split at hr
      · obtain ⟨store, hstarted, hkeeps⟩ := h.keeps k r hr
        exact ⟨store, hstarted.append _, hkeeps⟩
      · obtain ⟨hk, hr⟩ := List.getElem?_eq_some_iff.mp hr
        rw [List.length_singleton] at hk
        rw [List.getElem_singleton] at hr
        subst hr
        exact ⟨s.installed, ⟨events, [], s, rfl, h.count.symm.trans (by omega), hrun, rfl⟩, rfl,
          nofun, nofun⟩
  | @look k q store targets query =>
    refine h.setQuery query rfl (fun store' hkeeps => ?_) rfl
    obtain rfl : store = store' := hkeeps.store_eq
    exact ⟨rfl, fun answer hanswer => (Option.some.inj hanswer).symm, hkeeps.targets_eq⟩
  | @choose k q store query =>
    refine h.setQuery query rfl (fun store' hkeeps => ?_) rfl
    obtain rfl : store = store' := hkeeps.store_eq
    exact ⟨rfl, hkeeps.answer_eq, fun targets htargets =>
      ⟨(hkeeps.answer_eq none rfl).symm, (Option.some.inj htargets).symm⟩⟩

/-- In all states that can be reached, each query has the store that it started with. -/
theorem Reaches.asked {events : List Event} {s : State} (h : Reaches events s) :
    Asked events s := by
  induction h with
  | initial => exact ⟨rfl, nofun⟩
  | step before step ih => exact ih.step before.run_eq step

/-- A query that has kept to its store comes to what resolving it at once in that store does. -/
theorem Running.Keeps.resolves {r : Running} {store : Store} (h : r.Keeps store) : r.Resolves := by
  obtain rfl := h.store_eq
  refine ⟨fun out wire answer hanswer => ?_, fun out wire targets htargets => ?_⟩
  · rw [Query.resolve, ← h.answer_eq _ hanswer]
  · obtain ⟨hnone, rfl⟩ := h.targets_eq targets htargets
    rw [Query.resolve, hnone]

/-! ## All of it -/

/-- What can be said of a state from the events that led to it. -/
structure Consistent (events : List Event) (s : State) : Prop where
  /-- Before the first reload has put a store in place, the store is empty. -/
  empty : publications events = [] → s.installed = .empty
  /-- After that it is the one built of what the last reload to put one in place has read. -/
  last : ∀ i, (publications events).getLast? = some i →
    ∃ text, (i, .ok text) ∈ loads events ∧ Store.build text = .ok s.installed
  /-- A reload reads once. -/
  readsOnce : ((loads events).map Prod.fst).Nodup
  /-- Stores are put in place in the order in which they were read. -/
  inOrder : (publications events).Sublist ((loads events).map Prod.fst)
  /-- With no reload at work, the store is that of the latest load of which one could be built. -/
  latest : (∀ p ∈ s.reloads, p.isAtWork = false) →
    s.installed = ((builds events).map Prod.snd).getLast?.getD .empty
  /-- It is then also the one that the loads would have left, had each reload been done at once. -/
  reloaded : (∀ p ∈ s.reloads, p.isAtWork = false) →
    s.installed = (loads events).foldl (fun installed l => installed.reload l.2) .empty
  /-- A reload whose load fails puts no store in place. -/
  failed : ∀ i what why, (i, what) ∈ loads events → Store.ofLoaded what = .error why →
    i ∉ publications events
  /-- From when it takes the lock until another one does, the store is the one that was there. -/
  unchanged : ∀ i what why before during s₀, events = before ++ .enter i :: during →
    (∀ j, .enter j ∉ during) → (i, what) ∈ loads events → Store.ofLoaded what = .error why →
    State.initial.run before = some s₀ → s.installed = s₀.installed
  /-- One reload is at work at most. -/
  exclusive : ∀ (i j : Nat) (p q : Phase), s.reloads[i]? = some p → s.reloads[j]? = some q →
    p.isAtWork = true → q.isAtWork = true → i = j
  /-- Every query that has started is there. -/
  count : s.queries.length = asked events
  /-- A query finds its local answer and its servers in the store that was there when it started. -/
  keeps : ∀ (k : Nat) r, s.queries[k]? = some r →
    ∃ store, StartedWith events k r.query store ∧ r.Keeps store
  /-- It comes to what it would have come to, had it been resolved at once in that store. -/
  resolves : ∀ (k : Nat) r, s.queries[k]? = some r → r.Resolves

/-- **Every order of steps leaves a consistent state**: any number of reloads and of queries, with
any texts or faults read, and with the steps of each between the steps of the others. -/
theorem consistent_of_run (events : List Event) (s : State)
    (h : State.initial.run events = some s) : Consistent events s := by
  have hreach := reaches_of_run h
  have hlock := hreach.locked
  have hasked := hreach.asked
  obtain ⟨published, hinstalled⟩ := hreach.installed
  refine ⟨fun hnone => ?_, fun i hi => hinstalled.last hi, hlock.readsOnce, hinstalled.inOrder,
    hinstalled.latest hlock, hinstalled.reloaded hlock,
    fun i what why hload hfailed => hinstalled.not_mem_of_failed hlock hload hfailed, ?_,
    fun i j p q hi hj hp hq => hlock.eq_of_atWork hi hj hp hq, hasked.count, hasked.keeps,
    fun k r hr => ?_⟩
  · rw [hinstalled.publications_eq, List.map_eq_nil_iff] at hnone
    rw [hinstalled.installed_eq, hnone]
    rfl
  · rintro i what why before during s₀ rfl henter hload hfailed hbefore
    exact hinstalled.eq_of_failed h hbefore henter hload hfailed
  · obtain ⟨store, -, hkeeps⟩ := hasked.keeps k r hr
    exact hkeeps.resolves

/-- Two reloads and a query: the second reload comes first and puts a store in place between the
steps of the query, and the first one then finds no document. -/
def interleaved : List Event :=
  [.request, .request, .enter 1, .ask ⟨.v4 0x0a000001, "a.b", some .a, .udp⟩,
    .load 1 (.ok ("\x7b\"default\":\x7b\"a.b\":\x7b\"TXT\":[\"t\"]\x7d," ++
      "\"recurse\":[\"10.0.0.8\"]\x7d\x7d")),
    .build 1, .look 0, .publish 1, .leave 1, .enter 0, .choose 0,
    .load 0 (.error (.unreadable "answers.json" "No such file or directory")), .build 0, .leave 0]

/-- All of it holds of such an order of steps, in which one store is put in place. -/
theorem consistent_interleaved :
    ∃ s, State.initial.run interleaved = some s ∧ Consistent interleaved s ∧
      publications interleaved = [1] := by
  have hsome : (State.initial.run interleaved).isSome = true := by decide +kernel
  obtain ⟨s, hs⟩ := Option.isSome_iff_exists.mp hsome
  exact ⟨s, hs, consistent_of_run interleaved s hs, rfl⟩

end SplitHorizon.Schedule
