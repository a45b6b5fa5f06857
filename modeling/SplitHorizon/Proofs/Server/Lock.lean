import SplitHorizon.Proofs.Server.Steps
/-!
# The lock of the reloads

After every order of steps, the reload that is at work holds the lock, so there is one at most, and
a reload reads its document once. Both are told by the phases that the reloads are in (`Locked`).
-/

namespace SplitHorizon.Schedule

/-! ## The rules -/

/-- Whether a reload has read its document. -/
def Phase.hasRead : Phase → Bool
  | waiting | loading => false
  | loaded _ | built _ | settled | done => true

/-- The reload that holds the lock is the one at work, and each reload reads once. -/
structure Locked (events : List Event) (s : State) : Prop where
  holds : ∀ i, s.holder = some i → ∃ p, s.reloads[i]? = some p
  atWork : ∀ i p, s.reloads[i]? = some p → (p.isAtWork = true ↔ s.holder = some i)
  hasRead : ∀ i, i ∈ (loads events).map Prod.fst ↔
    ∃ p, s.reloads[i]? = some p ∧ p.hasRead = true
  readsOnce : ((loads events).map Prod.fst).Nodup

/-- A reload at work holds the lock. -/
theorem Locked.holder_of_atWork {events : List Event} {s : State} (h : Locked events s) {i : Nat}
    {p : Phase} (hi : s.reloads[i]? = some p) (hp : p.isAtWork = true) : s.holder = some i :=
  (h.atWork i p hi).mp hp

/-- At first nobody holds the lock and nothing has been read. -/
theorem locked_initial : Locked [] .initial where
  holds := nofun
  atWork := nofun
  hasRead _ := ⟨nofun, fun ⟨_, h, _⟩ => nomatch h⟩
  readsOnce := List.nodup_nil

/-- The phases after one reload has got on. -/
theorem getElem?_setPhase {s : State} {i : Nat} {p : Phase} (hi : s.reloads[i]? = some p)
    (q : Phase) (j : Nat) :
    (s.setPhase i q).reloads[j]? = if i = j then some q else s.reloads[j]? := by
  have hlt : i < s.reloads.length := (List.getElem?_eq_some_iff.mp hi).1
  simp only [State.setPhase, List.getElem?_set, hlt, if_true]

/-- A step that is no load and leaves reloads and the lock as they are leaves the lock's rules. -/
theorem Locked.keep {events : List Event} {s s' : State} {e : Event} (h : Locked events s)
    (hreloads : s'.reloads = s.reloads) (hholder : s'.holder = s.holder) (hloads : loads [e] = []) :
    Locked (events ++ [e]) s' := by
  have hreads := loads_concat hloads events
  exact ⟨by rw [hreloads, hholder]; exact h.holds, by rw [hreloads, hholder]; exact h.atWork,
    by rw [hreloads, hreads]; exact h.hasRead, by rw [hreads]; exact h.readsOnce⟩

/-- One more reload waits. -/
theorem Locked.request {events : List Event} {s : State} (h : Locked events s) :
    Locked (events ++ [.request]) { s with reloads := s.reloads ++ [.waiting] } := by
  have hreads : loads (events ++ [.request]) = loads events := loads_concat rfl events
  have hold : ∀ {i p}, s.reloads[i]? = some p → (s.reloads ++ [.waiting])[i]? = some p :=
    fun hi => by rw [List.getElem?_append_left (List.getElem?_eq_some_iff.mp hi).1, hi]
  -- the new reload is neither at work nor has it read
  have hnew : ∀ {i p}, (s.reloads ++ [Phase.waiting])[i]? = some p →
      s.reloads[i]? = some p ∨ i = s.reloads.length ∧ p = .waiting := by
    intro i p hi
    rw [List.getElem?_append] at hi
    split at hi
    · exact .inl hi
    · rename_i hlt
      obtain ⟨hi', hp⟩ := List.getElem?_eq_some_iff.mp hi
      rw [List.length_singleton] at hi'
      rw [List.getElem_singleton] at hp
      exact .inr ⟨by omega, hp.symm⟩
  have hlength : ∀ p, s.reloads[s.reloads.length]? ≠ some p := fun p hp =>
    absurd (List.getElem?_eq_some_iff.mp hp).1 (Nat.lt_irrefl _)
  refine ⟨fun i hi => ?_, fun i p hi => ?_, fun i => ?_, hreads ▸ h.readsOnce⟩
  · obtain ⟨p, hp⟩ := h.holds i hi
    exact ⟨p, hold hp⟩
  · rcases hnew hi with hi | ⟨rfl, rfl⟩
    · exact h.atWork i p hi
    · refine ⟨nofun, fun hheld => ?_⟩
      obtain ⟨p, hp⟩ := h.holds _ hheld
      exact absurd hp (hlength p)
  · rw [hreads, h.hasRead i]
    constructor
    · intro hparts
      obtain ⟨p, hi, hp⟩ := hparts
      exact ⟨p, hold hi, hp⟩
    · intro hparts
      obtain ⟨p, hi, hp⟩ := hparts
      rcases hnew hi with hi | ⟨rfl, rfl⟩
      · exact ⟨p, hi, hp⟩
      · cases hp

/-- A reload gets on. What it needs to keep the lock's rules is about itself: whether it is at work,
and whether it has read. -/
theorem Locked.setPhase {events : List Event} {s s' : State} {e : Event} (h : Locked events s)
    {i : Nat} {p q : Phase} (hi : s.reloads[i]? = some p)
    (hs' : s'.reloads = (s.setPhase i q).reloads)
    (hwork : q.isAtWork = true ↔ s'.holder = some i)
    (hothers : ∀ j, j ≠ i → (s'.holder = some j ↔ s.holder = some j))
    (hread : i ∈ (loads (events ++ [e])).map Prod.fst ↔ q.hasRead = true)
    (hreads : ∀ j, j ≠ i → (j ∈ (loads (events ++ [e])).map Prod.fst ↔
      j ∈ (loads events).map Prod.fst))
    (honce : ((loads (events ++ [e])).map Prod.fst).Nodup) : Locked (events ++ [e]) s' := by
  have hget := fun j => (congrArg (·[j]?) hs').trans (getElem?_setPhase hi q j)
  have hself : s'.reloads[i]? = some q := (hget i).trans (if_pos rfl)
  have hother : ∀ j, j ≠ i → s'.reloads[j]? = s.reloads[j]? := fun j hj =>
    (hget j).trans (if_neg fun hij => hj hij.symm)
  refine ⟨fun j hj => ?_, fun j r hj => ?_, fun j => ?_, honce⟩
  · by_cases hij : j = i
    · exact ⟨q, hij ▸ hself⟩
    · rw [hother j hij]
      exact h.holds j ((hothers j hij).mp hj)
  · by_cases hij : j = i
    · subst hij
      rw [hself, Option.some.injEq] at hj
      rw [← hj]
      exact hwork
    · rw [hother j hij] at hj
      rw [hothers j hij]
      exact h.atWork j r hj
  · by_cases hij : j = i
    · subst hij
      rw [hself, hread]
      simp only [Option.some.injEq, exists_eq_left']
    · rw [hreads j hij, hother j hij]
      exact h.hasRead j

/-- A reload gets on without reading, and keeps the lock. -/
theorem Locked.advance {events : List Event} {s s' : State} {e : Event} (h : Locked events s)
    {i : Nat} {p q : Phase} (hi : s.reloads[i]? = some p)
    (hs' : s'.reloads = (s.setPhase i q).reloads) (hholder : s'.holder = s.holder)
    (hwork : q.isAtWork = p.isAtWork) (hread : q.hasRead = p.hasRead) (hloads : loads [e] = []) :
    Locked (events ++ [e]) s' := by
  have hkeep := loads_concat hloads events
  refine h.setPhase hi hs' ?_ (fun j _ => by rw [hholder]) ?_ (fun j _ => by rw [hkeep])
    (hkeep ▸ h.readsOnce)
  · rw [hwork, hholder]
    exact h.atWork i p hi
  · rw [hkeep, h.hasRead i, hread, hi]
    simp only [Option.some.injEq, exists_eq_left']

/-! ## Every step keeps them -/

/-- **Every step keeps to the lock**: the reload at work holds it, and each reads once. -/
theorem Locked.step {events : List Event} {s s' : State} {e : Event} (h : Locked events s)
    (hstep : Step s e s') : Locked (events ++ [e]) s' := by
  cases hstep with
  | request => exact h.request
  | @enter i phase free =>
    have hkeep : loads (events ++ [.enter i]) = loads events := loads_concat rfl events
    refine h.setPhase phase rfl (by simp [Phase.isAtWork]) (fun j hj => ?_) ?_
      (fun j _ => by rw [hkeep]) (hkeep ▸ h.readsOnce)
    · rw [free]
      exact ⟨fun hij => absurd (Option.some.inj hij).symm hj, nofun⟩
    · rw [hkeep, h.hasRead i, phase]
      simp [Phase.hasRead]
  | @load i what phase =>
    have hids : (loads (events ++ [.load i what])).map Prod.fst =
        (loads events).map Prod.fst ++ [i] := by
      rw [loads_append, List.map_append]
      rfl
    have hheld : s.holder = some i := h.holder_of_atWork phase rfl
    -- a reload that is reading has not read before
    have hfresh : i ∉ (loads events).map Prod.fst := by
      rw [h.hasRead i, phase]
      simp [Phase.hasRead]
    refine h.setPhase phase rfl (iff_of_true rfl hheld) (fun j _ => .rfl) ?_ (fun j hj => ?_) ?_
    · rw [hids]
      exact iff_of_true (List.mem_append_right _ (List.mem_singleton_self i)) rfl
    · rw [hids, List.mem_append, List.mem_singleton, or_iff_left hj]
    · rw [hids]
      exact List.nodup_append.mpr ⟨h.readsOnce, List.pairwise_singleton _ i, fun a ha b hb => by
        rw [List.mem_singleton.mp hb]
        exact fun hab => hfresh (hab ▸ ha)⟩
  | @build i what store phase built => exact h.advance phase rfl rfl rfl rfl rfl
  | @fail i what why phase failed => exact h.advance phase rfl rfl rfl rfl rfl
  | @publish i store phase => exact h.advance phase rfl rfl rfl rfl rfl
  | @leave i phase =>
    have hkeep : loads (events ++ [.leave i]) = loads events := loads_concat rfl events
    have hheld : s.holder = some i := h.holder_of_atWork phase rfl
    refine h.setPhase phase rfl (by simp [Phase.isAtWork]) (fun j hj => ?_) ?_
      (fun j _ => by rw [hkeep]) (hkeep ▸ h.readsOnce)
    · rw [hheld]
      exact ⟨nofun, fun hij => absurd (Option.some.inj hij).symm hj⟩
    · rw [hkeep, h.hasRead i, phase]
      simp [Phase.hasRead]
  | ask => exact h.keep rfl rfl rfl
  | look => exact h.keep rfl rfl rfl
  | choose => exact h.keep rfl rfl rfl

/-- All states that can be reached keep to the lock. -/
theorem Reaches.locked {events : List Event} {s : State} (h : Reaches events s) :
    Locked events s := by
  induction h with
  | initial => exact locked_initial
  | step _ step ih => exact ih.step step

/-- A reload has read one text, or one fault. -/
theorem Locked.eq_of_mem_loads {events : List Event} {s : State} (h : Locked events s) {i : Nat}
    {what what' : Loaded} (hwhat : (i, what) ∈ loads events) (hwhat' : (i, what') ∈ loads events) :
    what = what' := by
  have honce := h.readsOnce
  generalize loads events = read at hwhat hwhat' honce
  induction read with
  | nil => cases hwhat
  | cons l ls ih =>
    rw [List.map_cons, List.nodup_cons] at honce
    have hnot : ∀ {w}, (l.1, w) ∉ ls := fun hw => honce.1 (List.mem_map.mpr ⟨_, hw, rfl⟩)
    rcases List.mem_cons.mp hwhat with rfl | htail
    · rcases List.mem_cons.mp hwhat' with hhead | htail'
      · exact (Prod.mk.inj hhead).2.symm
      · exact absurd htail' hnot
    · rcases List.mem_cons.mp hwhat' with rfl | htail'
      · exact absurd htail hnot
      · exact ih htail htail' honce.2

/-- Two reloads at work are one. -/
theorem Locked.eq_of_atWork {events : List Event} {s : State} (h : Locked events s) {i j : Nat}
    {p q : Phase} (hi : s.reloads[i]? = some p) (hj : s.reloads[j]? = some q)
    (hp : p.isAtWork = true) (hq : q.isAtWork = true) : i = j :=
  Option.some.inj ((h.holder_of_atWork hi hp).symm.trans (h.holder_of_atWork hj hq))

end SplitHorizon.Schedule
