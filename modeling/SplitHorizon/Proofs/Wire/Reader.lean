import SplitHorizon.Proofs.Number.Places
import SplitHorizon.Wire.Reader
/-!
# What readers read

Two statements about a reader, each with a rule for every way in which readers are put together.

`Reads r bs a` is about writing first: wherever the bytes `bs` stand and whatever comes behind them,
the reader reads `a` and takes exactly these bytes. `ReadsAll` is the same with nothing behind.

`Ensures offset r P` is about reading alone: whatever the reader reads at an offset, it has taken
bytes from those ahead, and the value and the number of bytes taken are related by `P`.
-/

namespace SplitHorizon.Wire

/-! ## Splitting -/

/-- A front and a rest are split off exactly if they make up the whole, and the front has the
length. -/
theorem splitExactly_eq_some_iff {α : Type} {n : Nat} {xs front rest : List α} :
    splitExactly n xs = some (front, rest) ↔ front.length = n ∧ front ++ rest = xs := by
  induction n generalizing xs front with
  | zero =>
    rw [splitExactly, Option.some.injEq, Prod.mk.injEq, List.length_eq_zero_iff]
    constructor
    · intro hparts
      obtain ⟨rfl, rfl⟩ := hparts
      exact ⟨rfl, rfl⟩
    · intro hparts
      obtain ⟨rfl, h⟩ := hparts
      exact ⟨rfl, h.symm⟩
  | succ n ih =>
    cases xs with
    | nil =>
      refine iff_of_false nofun fun ⟨hlength, h⟩ => ?_
      rw [(List.append_eq_nil_iff.mp h).1] at hlength
      cases hlength
    | cons x xs =>
      rw [splitExactly, Option.map_eq_some_iff]
      constructor
      · intro hparts
        obtain ⟨⟨front', rest'⟩, hsplit, h⟩ := hparts
        obtain ⟨rfl, rfl⟩ := Prod.mk.inj h
        obtain ⟨hlength, happend⟩ := ih.mp hsplit
        exact ⟨congrArg (· + 1) hlength, congrArg (x :: ·) happend⟩
      · intro hparts
        obtain ⟨hlength, h⟩ := hparts
        cases front with
        | nil => cases hlength
        | cons y front =>
          obtain ⟨rfl, happend⟩ := List.cons.inj h
          exact ⟨(front, rest), ih.mpr ⟨Nat.succ.inj hlength, happend⟩, rfl⟩

namespace Reader

variable {α β : Type} {r : Reader α}

theorem bind_apply (f : α → Reader β) (c : Cursor) :
    (r >>= f) c = (r c).bind fun p => f p.1 p.2 := rfl

/-! ## Bytes that were written -/

/-- Wherever bytes stand, they are read as a value, and exactly they are. -/
def Reads (r : Reader α) (bs : List UInt8) (a : α) : Prop :=
  ∀ offset rest, r ⟨offset, bs ++ rest⟩ = some (a, ⟨offset + bs.length, rest⟩)

/-- Bytes with nothing behind them are all read as a value. -/
def ReadsAll (r : Reader α) (bs : List UInt8) (a : α) : Prop :=
  ∀ offset, r ⟨offset, bs⟩ = some (a, ⟨offset + bs.length, []⟩)

theorem reads_pure (a : α) : Reads (pure a) [] a := fun _ _ => rfl

/-- Values that are written one after the other are read one after the other. -/
theorem Reads.bind {bs bs' : List UInt8} {a : α} {f : α → Reader β} {b : β} (hr : Reads r bs a)
    (hf : Reads (f a) bs' b) : Reads (r >>= f) (bs ++ bs') b := by
  intro offset rest
  rw [bind_apply, List.append_assoc, hr, List.length_append, ← Nat.add_assoc]
  exact hf _ rest

/-- A last step that only puts a value together. -/
theorem Reads.map {bs : List UInt8} {a : α} (hr : Reads r bs a) (f : α → β) :
    Reads (r >>= fun a => pure (f a)) bs (f a) := by
  have h := Reads.bind (f := fun a => pure (f a)) hr (reads_pure (f a))
  rwa [List.append_nil] at h

/-- What is read wherever it stands is read with nothing behind it. -/
theorem Reads.readsAll {bs : List UInt8} {a : α} (hr : Reads r bs a) : ReadsAll r bs a := by
  intro offset
  have h := hr offset []
  rwa [List.append_nil] at h

theorem reads_take (bs : List UInt8) : Reads (take bs.length) bs bs := by
  intro offset rest
  rw [take, splitExactly_eq_some_iff.mpr ⟨rfl, rfl⟩]
  rfl

/-- A number that there is room for is read from its bytes. -/
theorem reads_number (count : Nat) {n : Nat} (h : n < Places.capacity count) :
    Reads (number count) (Places.bytes count n) n := by
  have hread := (reads_take (Places.bytes count n)).map Places.ofBytes
  rwa [Places.ofBytes_bytes h, Places.length_bytes] at hread

theorem reads_number8 (b : UInt8) : Reads number8 [b] b := by
  have hbytes : Places.bytes 1 b.toNat = [b] := by
    rw [Places.bytes_succ, Nat.mod_eq_of_lt b.toNat_lt, UInt8.ofNat_toNat]
    rfl
  have hread := (reads_number 1 b.toNat_lt).map UInt8.ofNat
  rwa [UInt8.ofNat_toNat, hbytes] at hread

theorem reads_number16 (n : UInt16) : Reads number16 (put16 n) n := by
  have hread := (reads_number 2 n.toNat_lt).map UInt16.ofNat
  rwa [UInt16.ofNat_toNat] at hread

theorem reads_number32 (n : UInt32) : Reads number32 (put32 n) n := by
  have hread := (reads_number 4 n.toNat_lt).map UInt32.ofNat
  rwa [UInt32.ofNat_toNat] at hread

/-- So many values are read from their bytes, one after the other. -/
theorem reads_times (put : α → List UInt8) (as : List α) (h : ∀ a ∈ as, Reads r (put a) a) :
    Reads (times r as.length) (as.flatMap put) as := by
  induction as with
  | nil => exact reads_pure []
  | cons a as ih =>
    have has := ih fun b hb => h b (List.mem_cons_of_mem _ hb)
    exact (h a List.mem_cons_self).bind (has.map (a :: ·))

/-- What is read with nothing behind it is read within its length, whatever is behind. -/
theorem ReadsAll.within {bs : List UInt8} {a : α} (hr : ReadsAll r bs a) :
    Reads (within bs.length r) bs a := by
  intro offset rest
  show (splitExactly bs.length (bs ++ rest) >>= _) = _
  rw [splitExactly_eq_some_iff.mpr ⟨rfl, rfl⟩]
  show (r ⟨offset, bs⟩ >>= _) = _
  rw [hr]
  rfl

/-! ## Bytes as they come -/

/-- What is read at an offset, and the number of bytes taken for it, are related. -/
def Ensures (offset : Nat) (r : Reader α) (P : α → Nat → Prop) : Prop :=
  ∀ bytes a c, r ⟨offset, bytes⟩ = some (a, c) →
    ∃ n, c.offset = offset + n ∧ bytes.length = n + c.rest.length ∧ P a n

variable {offset : Nat} {P : α → Nat → Prop}

theorem ensures_pure {a : α} (h : P a 0) : Ensures offset (pure a) P := by
  intro bytes b c hb
  cases hb
  exact ⟨0, rfl, (Nat.zero_add _).symm, h⟩

theorem ensures_fail : Ensures offset (fail : Reader α) P := nofun

/-- What is ensured of readers one after the other is ensured of both together. -/
theorem Ensures.bind {f : α → Reader β} {Q : β → Nat → Prop} (hr : Ensures offset r P)
    (hf : ∀ a n, P a n → Ensures (offset + n) (f a) fun b k => Q b (n + k)) :
    Ensures offset (r >>= f) Q := by
  intro bytes b c h
  rw [bind_apply] at h
  obtain ⟨⟨a, c₁⟩, ha, hb⟩ := Option.bind_eq_some_iff.mp h
  obtain ⟨n, hoffset, hlength, hP⟩ := hr bytes a c₁ ha
  obtain ⟨c₁offset, rest⟩ := c₁
  obtain rfl : c₁offset = offset + n := hoffset
  obtain ⟨k, hoffset', hlength', hQ⟩ := hf a n hP rest b c hb
  exact ⟨n + k, by omega, by simp only at hlength; omega, hQ⟩

/-- What is ensured may be weakened. -/
theorem Ensures.mono {Q : α → Nat → Prop} (hr : Ensures offset r P)
    (h : ∀ a n, P a n → Q a n) : Ensures offset r Q := by
  intro bytes a c ha
  obtain ⟨n, hoffset, hlength, hP⟩ := hr bytes a c ha
  exact ⟨n, hoffset, hlength, h a n hP⟩

theorem ensures_take (count : Nat) :
    Ensures offset (take count) fun bs n => n = count ∧ bs.length = count := by
  intro bytes bs c h
  obtain ⟨⟨front, rest⟩, hsplit, h⟩ := Option.map_eq_some_iff.mp h
  cases h
  obtain ⟨hlength, rfl⟩ := splitExactly_eq_some_iff.mp hsplit
  exact ⟨count, rfl, by rw [List.length_append, hlength], rfl, hlength⟩

/-- A number that is read takes its bytes, and they have room for it. -/
theorem ensures_number (count : Nat) :
    Ensures offset (number count) fun value n => n = count ∧ value < Places.capacity count := by
  refine (ensures_take count).bind fun bs n ⟨hn, hbs⟩ => ensures_pure ⟨hn, ?_⟩
  rw [← hbs]
  exact Places.ofBytes_lt bs

theorem ensures_number8 : Ensures offset number8 fun _ n => n = 1 :=
  (ensures_number 1).bind fun _ _ h => ensures_pure h.1

theorem ensures_number16 : Ensures offset number16 fun _ n => n = 2 :=
  (ensures_number 2).bind fun _ _ h => ensures_pure h.1

theorem ensures_number32 : Ensures offset number32 fun _ n => n = 4 :=
  (ensures_number 4).bind fun _ _ h => ensures_pure h.1

/-- Every value of several has taken some of the bytes of all. -/
theorem ensures_times (h : ∀ offset, Ensures offset r P) (count : Nat) :
    Ensures offset (times r count) fun as n =>
      as.length = count ∧ ∀ a ∈ as, ∃ k, k ≤ n ∧ P a k := by
  induction count generalizing offset with
  | zero => exact ensures_pure ⟨rfl, nofun⟩
  | succ count ih =>
    refine (h offset).bind fun a n ha => ih.bind fun as k has => ?_
    refine ensures_pure ⟨congrArg (· + 1) has.1, fun b hb => ?_⟩
    rcases List.mem_cons.mp hb with rfl | hb
    · exact ⟨n, Nat.le_add_right _ _, ha⟩
    · obtain ⟨j, hj, hP⟩ := has.2 b hb
      exact ⟨j, by omega, hP⟩

/-- A value that takes up all of the next bytes. -/
theorem ensures_within {P : α → Prop} {count : Nat} (h : ∀ inside a c, inside.length = count →
    r ⟨offset, inside⟩ = some (a, c) → P a) :
    Ensures offset (within count r) fun a n => n = count ∧ P a := by
  intro bytes a c hread
  obtain ⟨⟨inside, rest⟩, hsplit, hread⟩ := Option.bind_eq_some_iff.mp hread
  obtain ⟨⟨b, c₁⟩, hb, hread⟩ := Option.bind_eq_some_iff.mp hread
  obtain ⟨hlength, rfl⟩ := splitExactly_eq_some_iff.mp hsplit
  simp only at hread
  split at hread
  · cases hread
    exact ⟨count, rfl, by rw [List.length_append, hlength], rfl, h inside a c₁ hlength hb⟩
  · cases hread

end Reader

end SplitHorizon.Wire
