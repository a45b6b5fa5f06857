import SplitHorizon.Number.Decimal
import SplitHorizon.Proofs.Number.Places
/-!
# Numbers and their digits

The digits of a number, decimal or hexadecimal, are its places in the base without zeros in front.
So the value of the digits of a number is the number (`valueFrom_digits`, `value_hexDigits`), and a
decimal number is read back from its digits wherever the limit allows it (`read_digits`). What is
read at all are digits, of a number within the limit, with a plus sign before them or without
(`read_eq_ok_iff`).
-/

namespace SplitHorizon

namespace Places

/-! ## Places without zeros in front -/

/-- The places of a number without zeros in front; zero has one place. -/
def shortest (base n : Nat) : List Nat :=
  if 2 ≤ base ∧ base ≤ n then shortest base (n / base) ++ [n % base] else [n]
termination_by n
decreasing_by exact Nat.div_lt_self (by omega) (by omega)

section

variable {base : Nat}

theorem shortest_of_lt {d : Nat} (h : d < base) : shortest base d = [d] := by
  rw [shortest, if_neg]
  omega

/-- A further place is written behind those of the number that it is added to. -/
theorem shortest_mul_add {n d : Nat} (hbase : 2 ≤ base) (hn : 0 < n) (hd : d < base) :
    shortest base (n * base + d) = shortest base n ++ [d] := by
  have hle : base ≤ n * base + d :=
    Nat.le_trans (Nat.le_mul_of_pos_left base hn) (Nat.le_add_right ..)
  have hdiv : (n * base + d) / base = n := by
    rw [Nat.add_comm, Nat.add_mul_div_right _ _ (by omega), Nat.div_eq_of_lt hd, Nat.zero_add]
  have hmod : (n * base + d) % base = d := by
    rw [Nat.add_comm, Nat.add_mul_mod_self_right, Nat.mod_eq_of_lt hd]
  rw [shortest, if_pos ⟨hbase, hle⟩, hdiv, hmod]

/-- A number has one place, or a last one behind those of a smaller number. -/
theorem places_induction (hbase : 2 ≤ base) {motive : Nat → Prop}
    (one : ∀ d, d < base → motive d)
    (more : ∀ n d, 0 < n → d < base → motive n → motive (n * base + d)) (n : Nat) : motive n := by
  induction n using Nat.strongRecOn with
  | ind n ih =>
    by_cases h : n < base
    · exact one n h
    · have hlast := more (n / base) (n % base) (Nat.div_pos (Nat.le_of_not_lt h) (by omega))
        (Nat.mod_lt n (by omega)) (ih (n / base) (Nat.div_lt_self (by omega) hbase))
      rwa [Nat.div_add_mod'] at hlast

/-- A number is read back from its shortest list of places. -/
theorem toNat_shortest (hbase : 2 ≤ base) (n : Nat) : toNat base (shortest base n) = n := by
  induction n using places_induction hbase with
  | one d hd => simp [shortest_of_lt hd, toNat]
  | more n d hn hd ih => rw [shortest_mul_add hbase hn hd, toNat_concat, ih]

/-- Every place is less than the base. -/
theorem lt_of_mem_shortest (hbase : 2 ≤ base) {n d : Nat} (h : d ∈ shortest base n) : d < base := by
  induction n using places_induction hbase with
  | one e he =>
    rw [shortest_of_lt he, List.mem_singleton] at h
    exact h ▸ he
  | more n e hn he ih =>
    rw [shortest_mul_add hbase hn he, List.mem_append, List.mem_singleton] at h
    rcases h with h | rfl
    · exact ih h
    · exact he

theorem length_shortest_pos (hbase : 2 ≤ base) (n : Nat) : 0 < (shortest base n).length := by
  induction n using places_induction hbase with
  | one d hd => simp [shortest_of_lt hd]
  | more n d hn hd ih => simp [shortest_mul_add hbase hn hd]

/-- A number below a power of the base has no more places than the exponent. -/
theorem length_shortest_le (hbase : 2 ≤ base) {n k : Nat} (h : n < Nat.pow base (k + 1)) :
    (shortest base n).length ≤ k + 1 := by
  induction n using places_induction hbase generalizing k with
  | one d hd => simp [shortest_of_lt hd]
  | more n d hn hd ih =>
    rw [shortest_mul_add hbase hn hd, List.length_append, List.length_singleton]
    have hlt : n * base < Nat.pow base k * base := Nat.lt_of_le_of_lt (Nat.le_add_right ..) h
    have hn' : n < Nat.pow base k := Nat.lt_of_mul_lt_mul_right hlt
    cases k with
    | zero => exact absurd hn' (Nat.not_lt_of_le hn)
    | succ k => exact Nat.succ_le_succ (ih hn')

/-- The first place is zero only if there is no other. -/
theorem head_shortest_pos (hbase : 2 ≤ base) {n d : Nat} (hn : 0 < n)
    (h : (shortest base n).head? = some d) : 0 < d := by
  induction n using places_induction hbase with
  | one e he =>
    rw [shortest_of_lt he] at h
    cases h
    exact hn
  | more n e hpos he ih =>
    obtain ⟨first, rest, hplaces⟩ := List.exists_cons_of_length_pos (length_shortest_pos hbase n)
    rw [shortest_mul_add hbase hpos he, hplaces] at h
    rw [hplaces] at ih
    exact ih hpos h

/-- The value of places that are written as characters is the one that the places have. -/
theorem foldl_map_eq_toNat {char : Nat → Char} {code : Char → Option Nat} {ds : List Nat}
    (h : ∀ d ∈ ds, code (char d) = some d) (n : Nat) :
    (ds.map char).foldl (fun n c => n * base + (code c).getD 0) n =
      ds.foldl (fun n d => n * base + d) n := by
  rw [List.foldl_map]
  induction ds generalizing n with
  | nil => rfl
  | cons d ds ih =>
    obtain ⟨hd, hds⟩ := List.forall_mem_cons.mp h
    rw [List.foldl_cons, List.foldl_cons, hd, Option.getD_some, ih hds]

end

/-! ## Hexadecimal digits -/

/-- The hexadecimal digits of a number are those of its places. -/
theorem hexDigits_eq (n : Nat) : hexDigits n = (shortest 16 n).map hexDigitChar := by
  induction n using places_induction (by decide : 2 ≤ 16) with
  | one d hd => rw [shortest_of_lt hd, hexDigits, if_pos hd, List.map_singleton]
  | more n d hn hd ih =>
    rw [shortest_mul_add (by decide) hn hd, List.map_append, ← ih, hexDigits, if_neg (by omega),
      List.map_singleton]
    congr 3 <;> omega

/-- A place is read back from its hexadecimal digit. -/
theorem hexDigit?_hexDigitChar {d : Nat} (h : d < 16) : hexDigit? (hexDigitChar d) = some d := by
  revert d
  decide

/-- A hexadecimal digit has a code between that of 0 and that of f. -/
theorem toNat_of_isSome_hexDigit? {c : Char} (h : (hexDigit? c).isSome = true) :
    48 ≤ c.toNat ∧ c.toNat ≤ 102 := by
  grind [hexDigit?]

theorem isSome_hexDigit?_of_mem {n : Nat} {c : Char} (h : c ∈ hexDigits n) :
    (hexDigit? c).isSome = true := by
  rw [hexDigits_eq] at h
  obtain ⟨d, hd, rfl⟩ := List.mem_map.mp h
  rw [hexDigit?_hexDigitChar (lt_of_mem_shortest (by decide) hd)]
  rfl

/-- **The value of the hexadecimal digits of a number is the number.** -/
theorem value_hexDigits (n : Nat) :
    (hexDigits n).foldl (fun n c => n * 16 + (hexDigit? c).getD 0) 0 = n := by
  rw [hexDigits_eq, foldl_map_eq_toNat fun d hd =>
    hexDigit?_hexDigitChar (lt_of_mem_shortest (by decide) hd)]
  exact toNat_shortest (by decide) n

theorem length_hexDigits (n : Nat) : (hexDigits n).length = (shortest 16 n).length := by
  rw [hexDigits_eq, List.length_map]

end Places

namespace Decimal

open Places (shortest places_induction shortest_of_lt shortest_mul_add lt_of_mem_shortest
  length_shortest_pos head_shortest_pos foldl_map_eq_toNat toNat_shortest)

/-! ## Decimal digits -/

/-- The value of digits that come behind those of a number. -/
def valueFrom (n : Nat) (cs : List Char) : Nat :=
  cs.foldl (fun n c => n * 10 + (digit? c).getD 0) n

/-- The decimal digits of a number are those of its places. -/
theorem digits_eq (n : Nat) : digits n = (shortest 10 n).map digitChar := by
  induction n using places_induction (by decide : 2 ≤ 10) with
  | one d hd => rw [shortest_of_lt hd, digits, if_pos hd, List.map_singleton]
  | more n d hn hd ih =>
    rw [shortest_mul_add (by decide) hn hd, List.map_append, ← ih, digits, if_neg (by omega),
      List.map_singleton]
    congr 3 <;> omega

/-- A place is read back from its decimal digit. -/
theorem digit?_digitChar {d : Nat} (h : d < 10) : digit? (digitChar d) = some d := by
  revert d
  decide

theorem isSome_digit?_of_mem {n : Nat} {c : Char} (h : c ∈ digits n) :
    (digit? c).isSome = true := by
  rw [digits_eq] at h
  obtain ⟨d, hd, rfl⟩ := List.mem_map.mp h
  rw [digit?_digitChar (lt_of_mem_shortest (by decide) hd)]
  rfl

theorem digits_ne_nil (n : Nat) : digits n ≠ [] := by
  rw [digits_eq]
  intro h
  have hpos := length_shortest_pos (by decide : 2 ≤ 10) n
  rw [List.map_eq_nil_iff.mp h] at hpos
  cases hpos

/-- A number with more digits than one does not begin with a zero. -/
theorem ne_zero_of_digits {n : Nat} {c c' : Char} {cs : List Char} (h : digits n = c :: c' :: cs) :
    c ≠ '0' := by
  rw [digits_eq] at h
  obtain ⟨d, ds, hplaces, rfl, hds⟩ := List.map_eq_cons_iff.mp h
  have hn : 0 < n := by
    refine Nat.pos_of_ne_zero fun hn => ?_
    rw [hn, shortest_of_lt (by decide)] at hplaces
    rw [← (List.cons.inj hplaces).2] at hds
    cases hds
  have hpos : 0 < d := head_shortest_pos (by decide : 2 ≤ 10) hn (by rw [hplaces]; rfl)
  have hlt : d < 10 :=
    lt_of_mem_shortest (n := n) (by decide) (by rw [hplaces]; exact List.mem_cons_self)
  intro hc
  have hcode := digit?_digitChar hlt
  rw [hc] at hcode
  cases hcode
  cases hpos

/-- **The value of the digits of a number is the number.** -/
theorem valueFrom_digits (n : Nat) : valueFrom 0 (digits n) = n := by
  rw [valueFrom, digits_eq, foldl_map_eq_toNat fun d hd =>
    digit?_digitChar (lt_of_mem_shortest (by decide) hd)]
  exact toNat_shortest (by decide) n

/-! ## Reading -/

/-- More digits never make a number less. -/
theorem le_valueFrom (n : Nat) (cs : List Char) : n ≤ valueFrom n cs := by
  induction cs generalizing n with
  | nil => exact Nat.le_refl n
  | cons c cs ih =>
    have hstep : n ≤ n * 10 + (digit? c).getD 0 := by omega
    exact Nat.le_trans hstep (ih _)

/-- Digits are read if the number is within the limit; the numbers on the way are smaller. -/
theorem readDigits_eq_ok_iff {limit n m : Nat} {cs : List Char} (h : n ≤ limit) :
    readDigits limit n cs = .ok m ↔
      (∀ c ∈ cs, (digit? c).isSome = true) ∧ valueFrom n cs = m ∧ m ≤ limit := by
  induction cs generalizing n with
  | nil =>
    constructor
    · intro hok
      cases hok
      exact ⟨nofun, rfl, h⟩
    · rintro ⟨_, rfl, _⟩
      rfl
  | cons c cs ih =>
    rw [readDigits, List.forall_mem_cons]
    cases hc : digit? c with
    | none => exact ⟨nofun, fun hparts => Bool.noConfusion hparts.1.1⟩
    | some d =>
      have hvalue : valueFrom n (c :: cs) = valueFrom (n * 10 + d) cs := by
        rw [valueFrom, List.foldl_cons, hc]
        rfl
      rw [hvalue]
      by_cases hlimit : limit < n * 10 + d
      · simp only [if_pos hlimit]
        refine ⟨nofun, fun hparts => ?_⟩
        have hle := le_valueFrom (n * 10 + d) cs
        omega
      · simp only [if_neg hlimit, ih (Nat.le_of_not_lt hlimit), Option.isSome_some, true_and]

/-- **What is read as a number are digits**, with a plus sign before them or without, and the number
is within the limit. -/
theorem read_eq_ok_iff {limit n : Nat} {cs : List Char} :
    read limit cs = .ok n ↔
      ∃ ds, (cs = ds ∨ cs = '+' :: ds) ∧ ds ≠ [] ∧ (∀ c ∈ ds, (digit? c).isSome = true) ∧
        valueFrom 0 ds = n ∧ n ≤ limit := by
  have hplus : ∀ ds : List Char, ¬ ∀ c ∈ '+' :: ds, (digit? c).isSome = true := by
    intro ds h
    exact Bool.noConfusion (h '+' List.mem_cons_self)
  unfold read
  split
  · refine ⟨nofun, ?_⟩
    rintro ⟨ds, rfl | h, hne, _⟩
    · exact absurd rfl hne
    · cases h
  · refine ⟨nofun, ?_⟩
    rintro ⟨ds, rfl | h, hne, hds, _⟩
    · exact absurd hds (hplus [])
    · cases h
      exact absurd rfl hne
  · rename_i cs hcs
    rw [readDigits_eq_ok_iff (Nat.zero_le limit)]
    constructor
    · intro h
      exact ⟨cs, .inr rfl, fun hnil => hcs (hnil ▸ rfl), h⟩
    · rintro ⟨ds, rfl | h, _, hds, hparts⟩
      · exact absurd hds (hplus cs)
      · cases h
        exact ⟨hds, hparts⟩
  · rename_i hne _ hsign
    rw [readDigits_eq_ok_iff (Nat.zero_le limit)]
    constructor
    · intro h
      exact ⟨cs, .inl rfl, hne, h⟩
    · rintro ⟨ds, rfl | rfl, _, hparts⟩
      · exact hparts
      · exact absurd rfl (hsign ds)

/-- There is nothing in the text of a number but digits and a plus sign. -/
theorem notMem_of_read {limit n : Nat} {cs : List Char} {c : Char} (h : read limit cs = .ok n)
    (hc : c ≠ '+' ∧ digit? c = none) : c ∉ cs := by
  obtain ⟨ds, hcs, -, hds, -⟩ := read_eq_ok_iff.mp h
  have hmem : c ∉ ds := by
    intro hmem
    have hdigit := hds c hmem
    rw [hc.2] at hdigit
    cases hdigit
  rcases hcs with rfl | rfl
  · exact hmem
  · rw [List.mem_cons, not_or]
    exact ⟨hc.1, hmem⟩

/-- **A number within the limit is read back from its digits.** -/
theorem read_digits {limit n : Nat} (h : n ≤ limit) : read limit (digits n) = .ok n :=
  read_eq_ok_iff.mpr ⟨digits n, .inl rfl, digits_ne_nil n, fun _ => isSome_digit?_of_mem,
    valueFrom_digits n, h⟩

/-- A number of 16 bits is read back from its digits. -/
theorem read16_digits (port : UInt16) : read16 (digits port.toNat) = .ok port := by
  rw [read16, read_digits (Nat.le_of_lt_succ port.toNat_lt), Except.map,
    UInt16.ofNat_toNat]

end Decimal

end SplitHorizon
