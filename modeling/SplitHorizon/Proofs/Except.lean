/-!
# Computations that may fail

What a computation that succeeded has done: each of its steps succeeded, and the last one gave the
result. The readers of the library are folds and maps of such steps.
-/

namespace SplitHorizon

/-- A computation in two steps succeeds by both of them. -/
theorem bind_eq_ok_iff {ε α β : Type} {x : Except ε α} {f : α → Except ε β} {b : β} :
    x >>= f = .ok b ↔ ∃ a, x = .ok a ∧ f a = .ok b := by
  cases x with
  | error e =>
    constructor
    · exact nofun
    · intro hparts
      obtain ⟨_, h, _⟩ := hparts
      cases h
  | ok a =>
    constructor
    · intro h
      exact ⟨a, rfl, h⟩
    · intro hparts
      obtain ⟨_, h, h'⟩ := hparts
      cases h
      exact h'

/-- A fold succeeds exactly if its first step does and the rest of it does behind that step. -/
theorem foldlM_cons_eq_ok_iff {ε α β : Type} {f : β → α → Except ε β} {a : α} {as : List α}
    {b b' : β} :
    (a :: as).foldlM f b = .ok b' ↔ ∃ c, f b a = .ok c ∧ as.foldlM f c = .ok b' := by
  rw [List.foldlM_cons, bind_eq_ok_iff]

/-- A state takes items in: what it is after some of them, and which states are in order. A state
that is in order has been so all the while. -/
structure TakesIn {α σ : Type} (after : σ → List α → σ) (inOrder : σ → Prop) : Prop where
  nil : ∀ s, after s [] = s
  cons : ∀ s a as, after s (a :: as) = after (after s [a]) as
  inOrder_of_after : ∀ s as, inOrder (after s as) → inOrder s

/-- A fold that takes one item in at each step, if the item is sound and leaves the state in order,
takes all items in if each is sound and the state after them is in order. The state on the way is
the one after the items so far. -/
theorem TakesIn.foldlM_eq_ok_iff {ε α σ : Type} {after : σ → List α → σ} {inOrder : σ → Prop}
    (htakes : TakesIn after inOrder) {step : σ → α → Except ε σ} {sound : α → Prop}
    (hstep : ∀ s a s', inOrder s →
      (step s a = .ok s' ↔ sound a ∧ inOrder (after s [a]) ∧ s' = after s [a]))
    {as : List α} {s s' : σ} (hs : inOrder s) :
    as.foldlM step s = .ok s' ↔
      (∀ a ∈ as, sound a) ∧ inOrder (after s as) ∧ s' = after s as := by
  induction as generalizing s with
  | nil =>
    rw [htakes.nil]
    constructor
    · intro h
      cases h
      exact ⟨nofun, hs, rfl⟩
    · intro hparts
      obtain ⟨_, _, rfl⟩ := hparts
      rfl
  | cons a as ih =>
    rw [foldlM_cons_eq_ok_iff, List.forall_mem_cons, htakes.cons]
    constructor
    · intro hparts
      obtain ⟨s₁, h₁, h⟩ := hparts
      obtain ⟨ha, hs₁, rfl⟩ := (hstep s a s₁ hs).mp h₁
      obtain ⟨has, hall, rfl⟩ := (ih hs₁).mp h
      exact ⟨⟨ha, has⟩, hall, rfl⟩
    · intro hparts
      obtain ⟨⟨ha, has⟩, hall, rfl⟩ := hparts
      have hs₁ : inOrder (after s [a]) := htakes.inOrder_of_after _ as hall
      exact ⟨_, (hstep s a _ hs).mpr ⟨ha, hs₁, rfl⟩, (ih hs₁).mpr ⟨has, hall, rfl⟩⟩

/-- A computation in two steps fails in the first one, or in the second one behind it. -/
theorem bind_eq_error_iff {ε α β : Type} {x : Except ε α} {f : α → Except ε β} {e : ε} :
    x >>= f = .error e ↔ x = .error e ∨ ∃ a, x = .ok a ∧ f a = .error e := by
  cases x with
  | error e' =>
    constructor
    · intro h
      cases h
      exact .inl rfl
    · rintro (h | ⟨_, h, _⟩)
      · cases h
        rfl
      · cases h
  | ok a =>
    constructor
    · intro h
      exact .inr ⟨a, rfl, h⟩
    · rintro (h | ⟨_, h, h'⟩)
      · cases h
      · cases h
        exact h'

/-- **A fold fails at the first item that can not be taken in**, and with the fault of that item:
all items before it have been taken in, and those behind it are not looked at. -/
theorem foldlM_eq_error_iff {ε α β : Type} {f : β → α → Except ε β} {as : List α} {b : β} {e : ε} :
    as.foldlM f b = .error e ↔ ∃ before a after b', as = before ++ a :: after ∧
      before.foldlM f b = .ok b' ∧ f b' a = .error e := by
  induction as generalizing b with
  | nil =>
    constructor
    · exact nofun
    · rintro ⟨before, a, after, _, has, _⟩
      exact absurd has.symm (by simp)
  | cons a as ih =>
    rw [List.foldlM_cons, bind_eq_error_iff]
    constructor
    · rintro (h | ⟨c, hc, h⟩)
      · exact ⟨[], a, as, b, rfl, rfl, h⟩
      · obtain ⟨before, a', after, b', rfl, hbefore, h⟩ := ih.mp h
        exact ⟨a :: before, a', after, b', rfl, foldlM_cons_eq_ok_iff.mpr ⟨c, hc, hbefore⟩, h⟩
    · rintro ⟨before, a', after, b', has, hbefore, h⟩
      cases before with
      | nil =>
        cases has
        cases hbefore
        exact .inl h
      | cons _ before =>
        cases has
        obtain ⟨c, hc, hbefore⟩ := foldlM_cons_eq_ok_iff.mp hbefore
        exact .inr ⟨c, hc, ih.mpr ⟨before, a', after, b', rfl, hbefore, h⟩⟩

/-- What has been taken in was taken in up to any place. -/
theorem exists_foldlM_take {ε α β : Type} {f : β → α → Except ε β} {as : List α} {b b' : β}
    (h : as.foldlM f b = .ok b') (n : Nat) : ∃ c, (as.take n).foldlM f b = .ok c := by
  rw [← List.take_append_drop n as, List.foldlM_append, bind_eq_ok_iff] at h
  obtain ⟨c, hc, _⟩ := h
  exact ⟨c, hc⟩

/-- A list fails to be read at one of its items. -/
theorem exists_error_of_mapM {ε α β : Type} {f : α → Except ε β} {as : List α} {e : ε}
    (h : as.mapM f = .error e) : ∃ a ∈ as, f a = .error e := by
  induction as with
  | nil => cases h
  | cons a as ih =>
    rw [List.mapM_cons, bind_eq_error_iff] at h
    rcases h with h | ⟨b, _, h⟩
    · exact ⟨a, List.mem_cons_self, h⟩
    · rcases bind_eq_error_iff.mp h with h | ⟨bs, _, h⟩
      · obtain ⟨a', ha', h⟩ := ih h
        exact ⟨a', List.mem_cons_of_mem a ha', h⟩
      · cases h

/-- A fault that is told in other words is one that was there before. -/
theorem mapError_eq_error_iff {ε ε' α : Type} {x : Except ε α} {f : ε → ε'} {e : ε'} :
    x.mapError f = .error e ↔ ∃ e', x = .error e' ∧ f e' = e := by
  cases x with
  | error e' =>
    constructor
    · intro h
      cases h
      exact ⟨e', rfl, rfl⟩
    · rintro ⟨_, h, rfl⟩
      cases h
      rfl
  | ok a => exact ⟨nofun, nofun⟩

theorem map_eq_ok_iff {ε α β : Type} {x : Except ε α} {f : α → β} {b : β} :
    x.map f = .ok b ↔ ∃ a, x = .ok a ∧ f a = b := by
  cases x with
  | error e => exact ⟨nofun, nofun⟩
  | ok a =>
    constructor
    · intro h
      exact ⟨a, rfl, Except.ok.inj h⟩
    · intro hparts
      obtain ⟨_, h, rfl⟩ := hparts
      cases h
      rfl

/-- A check of every item succeeds if each of them does. -/
theorem forM_eq_ok_iff {ε α : Type} {f : α → Except ε Unit} {as : List α} :
    as.forM f = .ok () ↔ ∀ a ∈ as, f a = .ok () := by
  induction as with
  | nil => exact ⟨fun _ => nofun, fun _ => rfl⟩
  | cons a as ih =>
    show (f a >>= fun _ => as.forM f) = _ ↔ _
    rw [bind_eq_ok_iff, List.forall_mem_cons, ← ih]
    constructor
    · intro hparts
      obtain ⟨_, h, h'⟩ := hparts
      exact ⟨h, h'⟩
    · intro hparts
      exact ⟨(), hparts⟩

theorem ok_bind {ε α β : Type} (a : α) (f : α → Except ε β) : Except.ok a >>= f = f a :=
  rfl

theorem throw_bind {ε α β : Type} (e : ε) (f : α → Except ε β) :
    (throw e : Except ε α) >>= f = throw e :=
  rfl

/-- What follows a check is done if the check is passed. -/
theorem ite_throw_eq_ok_iff {ε α : Type} {c : Prop} [Decidable c] {e : ε} {x : Except ε α} {a : α} :
    (if c then throw e else x) = .ok a ↔ ¬ c ∧ x = .ok a := by
  by_cases hc : c
  · rw [if_pos hc]
    exact ⟨nofun, fun h => absurd hc h.1⟩
  · rw [if_neg hc, and_iff_right hc]

theorem toOption_eq_some_iff {ε α : Type} {x : Except ε α} {a : α} :
    x.toOption = some a ↔ x = .ok a := by
  cases x with
  | error e => exact ⟨nofun, nofun⟩
  | ok b => exact ⟨fun h => by cases h; rfl, fun h => by cases h; rfl⟩

theorem mapError_eq_ok_iff {ε ε' α : Type} {x : Except ε α} {f : ε → ε'} {a : α} :
    x.mapError f = .ok a ↔ x = .ok a := by
  cases x with
  | error e => exact ⟨nofun, nofun⟩
  | ok b => exact ⟨fun h => by cases h; rfl, fun h => by cases h; rfl⟩

/-- Two readers that accept the same items for the same results accept the same lists. -/
theorem mapM_eq_ok_iff {ε α β : Type} {f : α → Except ε β} {g : α → Option β}
    (same : ∀ a b, f a = .ok b ↔ g a = some b) (as : List α) (bs : List β) :
    as.mapM f = .ok bs ↔ as.mapM g = some bs := by
  induction as generalizing bs with
  | nil => exact ⟨fun h => by cases h; rfl, fun h => by cases h; rfl⟩
  | cons a as ih =>
    simp only [List.mapM_cons, bind_eq_ok_iff, Option.bind_eq_bind, Option.bind_eq_some_iff, same,
      ih]
    constructor
    · intro hparts
      obtain ⟨b, hb, bs', hbs, h⟩ := hparts
      cases h
      exact ⟨b, hb, bs', hbs, rfl⟩
    · intro hparts
      obtain ⟨b, hb, bs', hbs, h⟩ := hparts
      cases h
      exact ⟨b, hb, bs', hbs, rfl⟩

/-- What comes of a list comes of its items. -/
theorem exists_of_mem_mapM {α β : Type} {f : α → Option β} {as : List α} {bs : List β}
    (h : as.mapM f = some bs) {b : β} (hb : b ∈ bs) : ∃ a ∈ as, f a = some b := by
  induction as generalizing bs with
  | nil =>
    cases h
    cases hb
  | cons a as ih =>
    rw [List.mapM_cons] at h
    obtain ⟨b', hb', h⟩ := Option.bind_eq_some_iff.mp h
    obtain ⟨bs', hbs, h⟩ := Option.bind_eq_some_iff.mp h
    cases h
    rcases List.mem_cons.mp hb with rfl | hb
    · exact ⟨a, List.mem_cons_self, hb'⟩
    · obtain ⟨a', ha', hfa⟩ := ih hbs hb
      exact ⟨a', List.mem_cons_of_mem a ha', hfa⟩

end SplitHorizon
