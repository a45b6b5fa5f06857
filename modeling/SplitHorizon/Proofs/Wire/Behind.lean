import SplitHorizon.Proofs.Wire.Name
/-!
# Bytes behind what is read

A value that is read off the front of bytes is read all the same if more bytes come behind, and
those are left. Names are where this has to be said with care. A name may go on at a place before
it, so that its reader looks at the whole of the message, and the message is a longer one then; but
no pointer leads forward, so what is added behind is not looked at.

`Persists` says it of two readers, of which the second one is given the longer message. A reader
that takes whatever is ahead, up to the end, does not persist. Such readers stand inside of a length
only, and with a length in front the bytes ahead are the same ones as before.
-/

namespace SplitHorizon.Wire

namespace Reader

variable {α β : Type} {r r' : Reader α} {more : List UInt8}

/-- What one reader reads is read by another one with more bytes behind, and those are left. -/
def Persists (more : List UInt8) (r r' : Reader α) : Prop :=
  ∀ offset bytes a c, r ⟨offset, bytes⟩ = some (a, c) →
    r' ⟨offset, bytes ++ more⟩ = some (a, ⟨c.offset, c.rest ++ more⟩)

/-- With nothing behind, the same is read of the same. -/
theorem persists_self (r : Reader α) : Persists [] r r := by
  intro offset bytes a c h
  rw [List.append_nil, List.append_nil]
  exact h

theorem persists_pure (a : α) : Persists more (pure a) (pure a) := by
  intro offset bytes b c h
  cases h
  rfl

theorem persists_fail : Persists more (fail : Reader α) fail := nofun

/-- Readers one after the other persist if each does. -/
theorem Persists.bind {f f' : α → Reader β} (hr : Persists more r r')
    (hf : ∀ a, Persists more (f a) (f' a)) : Persists more (r >>= f) (r' >>= f') := by
  intro offset bytes b c h
  rw [bind_apply] at h ⊢
  obtain ⟨⟨a, c₁⟩, ha, hb⟩ := Option.bind_eq_some_iff.mp h
  rw [hr offset bytes a c₁ ha]
  exact hf a c₁.offset c₁.rest b c hb

theorem persists_take (count : Nat) : Persists more (take count) (take count) := by
  intro offset bytes front c h
  obtain ⟨⟨front', rest⟩, hsplit, h⟩ := Option.map_eq_some_iff.mp h
  cases h
  obtain ⟨hlength, rfl⟩ := splitExactly_eq_some_iff.mp hsplit
  rw [take, splitExactly_eq_some_iff.mpr ⟨hlength, (List.append_assoc _ _ _).symm⟩]
  rfl

theorem persists_number (count : Nat) : Persists more (number count) (number count) :=
  (persists_take count).bind fun _ => persists_pure _

theorem persists_number8 : Persists more number8 number8 :=
  (persists_number 1).bind fun _ => persists_pure _

theorem persists_number16 : Persists more number16 number16 :=
  (persists_number 2).bind fun _ => persists_pure _

theorem persists_number32 : Persists more number32 number32 :=
  (persists_number 4).bind fun _ => persists_pure _

/-- Reading so many values persists if reading one does. -/
theorem Persists.times (hr : Persists more r r') (count : Nat) :
    Persists more (times r count) (times r' count) := by
  induction count with
  | zero => exact persists_pure []
  | succ count ih => exact hr.bind fun a => ih.bind fun as => persists_pure (a :: as)

/-- With its length in front, a value has nothing behind it. -/
theorem Persists.within (hr : Persists [] r r') (count : Nat) :
    Persists more (within count r) (within count r') := by
  intro offset bytes a c h
  obtain ⟨⟨inside, rest⟩, hsplit, h⟩ := Option.bind_eq_some_iff.mp h
  obtain ⟨⟨b, c₁⟩, hb, h⟩ := Option.bind_eq_some_iff.mp h
  obtain ⟨hlength, rfl⟩ := splitExactly_eq_some_iff.mp hsplit
  have hb' := hr offset inside b c₁ hb
  rw [List.append_nil, List.append_nil] at hb'
  show (splitExactly count ((inside ++ rest) ++ more) >>= _) = _
  rw [splitExactly_eq_some_iff.mpr ⟨hlength, (List.append_assoc _ _ _).symm⟩]
  show (r' ⟨offset, inside⟩ >>= _) = _
  rw [hb']
  dsimp only at h ⊢
  split at h
  · cases h
    exact if_pos ‹_›
  · cases h

end Reader

/-! ## Names -/

/-- A run is read all the same with more bytes behind it. -/
theorem readRun_append {bytes : List UInt8} {run : Run} (h : readRun bytes = some run)
    (more : List UInt8) : readRun (bytes ++ more) = some { run with rest := run.rest ++ more } := by
  fun_induction readRun bytes generalizing run with
  | case1 => cases h
  | case2 rest =>
    cases h
    rw [List.cons_append, readRun.eq_def]
    rfl
  | case3 => cases h
  | case4 b rest hb hsmall label rest' hsplit ih =>
    obtain ⟨run', hrun', rfl⟩ := Option.map_eq_some_iff.mp h
    obtain ⟨hlabel, rfl⟩ := splitExactly_eq_some_iff.mp hsplit
    have hsplit' : splitExactly b.toNat (label ++ rest' ++ more) = some (label, rest' ++ more) :=
      splitExactly_eq_some_iff.mpr ⟨hlabel, (List.append_assoc _ _ _).symm⟩
    rw [List.cons_append, readRun.eq_def]
    simp only [hb, hsmall, if_false, if_true]
    split
    · rename_i hnone
      rw [hsplit'] at hnone
      cases hnone
    · rename_i hsome
      rw [hsplit'] at hsome
      cases hsome
      rw [ih hrun']
      rfl
  | case5 => cases h
  | case6 => cases h
  | case7 b hb hsmall hlarge c rest =>
    cases h
    rw [List.cons_append, List.cons_append, readRun.eq_def]
    simp only [hb, hsmall, hlarge, if_false]

/-- Behind a run the labels are the same in a message with more behind it, since pointers lead
backwards. -/
theorem follow_append {message : List UInt8} {start : Nat} {ending : RunEnd}
    {labels : List (List UInt8)} (h : follow message start ending = some labels)
    (behind : List UInt8) : follow (message ++ behind) start ending = some labels := by
  induction start using Nat.strongRecOn generalizing ending labels with
  | ind start ih =>
    cases ending with
    | root =>
      rw [follow] at h ⊢
      exact h
    | pointer target =>
      rw [follow] at h ⊢
      split at h
      · rename_i htarget
        obtain ⟨run, hrun, h⟩ := Option.bind_eq_some_iff.mp h
        -- a run was read there, so the place is one of the message
        have hinside : target ≤ message.length := by
          refine Nat.le_of_not_lt fun hlt => ?_
          rw [List.drop_eq_nil_of_le (Nat.le_of_lt hlt), readRun] at hrun
          cases hrun
        rw [if_pos htarget, List.drop_append_of_le_length hinside, readRun_append hrun behind]
        show (if target + DomainName.span run.labels < start then _ else none) = _
        split at h
        · rename_i hbefore
          obtain ⟨more, hmore, h⟩ := Option.bind_eq_some_iff.mp h
          rw [if_pos hbefore]
          show (follow (message ++ behind) target run.ending >>= _) = _
          rw [ih target htarget hmore]
          exact h
        · cases h
      · cases h

/-- A name is read all the same with more bytes behind it and behind the message. -/
theorem persists_readName (message behind more : List UInt8) :
    Reader.Persists more (readName message) (readName (message ++ behind)) := by
  intro offset bytes name c h
  obtain ⟨run, hrun, h⟩ := Option.bind_eq_some_iff.mp h
  obtain ⟨labels, hlabels, h⟩ := Option.bind_eq_some_iff.mp h
  show (readRun (bytes ++ more) >>= _) = _
  rw [readRun_append hrun more]
  show (follow (message ++ behind) offset run.ending >>= _) = _
  rw [follow_append hlabels behind]
  dsimp only at h
  split at h
  · cases h
    exact if_pos ‹_›
  · cases h

end SplitHorizon.Wire
