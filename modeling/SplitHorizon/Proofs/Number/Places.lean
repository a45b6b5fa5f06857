import Mathlib.Data.List.Induction
import SplitHorizon.Number.Places
/-!
# Numbers and their bytes

A number is the same after it has been written as bytes and read back, if there are enough of them,
and so are bytes that are read as a number and written again.
-/

namespace SplitHorizon.Places

/-- The number of values that so many bytes have. -/
def capacity : (count : Nat) → Nat
  | 0 => 1
  | count + 1 => capacity count * 256

/-- A further place makes the others count for one place more. -/
theorem toNat_concat (base : Nat) (places : List Nat) (d : Nat) :
    toNat base (places ++ [d]) = toNat base places * base + d := by
  rw [toNat, List.foldl_append]
  rfl

/-- A number that fits into so many places is the one that these places have. -/
theorem toNat_ofNat {base count n : Nat} (h : n < Nat.pow base count) :
    toNat base (ofNat base count n) = n := by
  induction count generalizing n with
  | zero => exact (Nat.lt_one_iff.mp h).symm
  | succ count ih =>
    have hfront : n / base < Nat.pow base count := Nat.div_lt_of_lt_mul (Nat.mul_comm .. ▸ h)
    rw [ofNat, toNat_concat, ih hfront, Nat.div_add_mod']

theorem length_ofNat (base count n : Nat) : (ofNat base count n).length = count := by
  induction count generalizing n with
  | zero => rfl
  | succ count ih => rw [ofNat, List.length_append, ih, List.length_singleton]

theorem lt_of_mem_ofNat {base count n d : Nat} (hbase : 0 < base) (h : d ∈ ofNat base count n) :
    d < base := by
  induction count generalizing n with
  | zero => cases h
  | succ count ih =>
    rw [ofNat, List.mem_append, List.mem_singleton] at h
    rcases h with h | rfl
    · exact ih h
    · exact Nat.mod_lt _ hbase

/-- A further byte makes the others count for one place more. -/
theorem ofBytes_concat (bs : List UInt8) (b : UInt8) :
    ofBytes (bs ++ [b]) = ofBytes bs * 256 + b.toNat := by
  rw [ofBytes, List.map_append, List.map_singleton, toNat_concat]
  rfl

/-- The last byte of a number is its remainder, behind the bytes of the quotient. -/
theorem bytes_succ (count n : Nat) :
    bytes (count + 1) n = bytes count (n / 256) ++ [UInt8.ofNat (n % 256)] := by
  rw [bytes, ofNat, List.map_append]
  rfl

@[simp]
theorem length_bytes (count n : Nat) : (bytes count n).length = count := by
  induction count generalizing n with
  | zero => rfl
  | succ count ih => rw [bytes_succ, List.length_append, ih, List.length_singleton]

/-- Bytes that are read as a number are those that the number is written as. -/
theorem bytes_ofBytes (bs : List UInt8) : bytes bs.length (ofBytes bs) = bs := by
  induction bs using List.reverseRecOn with
  | nil => rfl
  | append_singleton front b ih =>
    have hb : b.toNat < 256 := b.toNat_lt
    have hdiv : (ofBytes front * 256 + b.toNat) / 256 = ofBytes front := by omega
    have hmod : (ofBytes front * 256 + b.toNat) % 256 = b.toNat := by omega
    rw [List.length_append, List.length_singleton, ofBytes_concat, bytes_succ, hdiv, hmod, ih,
      UInt8.ofNat_toNat]

/-- A number that fits into so many bytes is the one that these bytes spell. -/
theorem ofBytes_bytes {count n : Nat} (h : n < capacity count) : ofBytes (bytes count n) = n := by
  induction count generalizing n with
  | zero =>
    rw [capacity, Nat.lt_one_iff] at h
    rw [h]
    rfl
  | succ count ih =>
    rw [capacity] at h
    rw [bytes_succ, ofBytes_concat, ih (Nat.div_lt_of_lt_mul (Nat.mul_comm .. ▸ h)),
      UInt8.toNat_ofNat_of_lt' (Nat.mod_lt _ (by decide))]
    exact Nat.div_add_mod' n 256

/-- As many bytes with the same number are the same. -/
theorem ofBytes_injective {as bs : List UInt8} (hlength : as.length = bs.length)
    (h : ofBytes as = ofBytes bs) : as = bs := by
  rw [← bytes_ofBytes as, hlength, h, bytes_ofBytes]

/-- Bytes are a number that as many bytes have room for. -/
theorem ofBytes_lt (bs : List UInt8) : ofBytes bs < capacity bs.length := by
  induction bs using List.reverseRecOn with
  | nil => decide
  | append_singleton front b ih =>
    have hb : b.toNat < 256 := b.toNat_lt
    rw [List.length_append, List.length_singleton, ofBytes_concat, capacity]
    omega

end SplitHorizon.Places
