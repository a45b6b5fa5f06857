import SplitHorizon.Network
import SplitHorizon.Proofs.Address.Endpoint
import SplitHorizon.Proofs.Except
import SplitHorizon.Proofs.Text.Cuts
/-!
# Networks and their members

A network contains the addresses of its family whose leading bits are those of its own address, as
many of them as its length says (`Network.contains_iff`). So of two networks that share a member the
longer one lies in the other (`Network.contains_of_length_le`).

Which text is read as which network is said without the reader (`Network.Spelled`): an address and,
behind a slash, a number of bits, or a netmask whose ones lead. The bits behind the leading ones may
be anything.
-/

namespace SplitHorizon

/-! ## Leading bits -/

/-- What is left after a shift are the leading bits. -/
theorem ushiftRight_eq_iff {w n : Nat} (h : n ≤ w) {x y : BitVec w} :
    x >>> (w - n) = y >>> (w - n) ↔ ∀ i < n, x.getMsbD i = y.getMsbD i := by
  constructor
  · intro hshift i hi
    have hbit := congrArg (fun z => BitVec.getMsbD z (w - n + i)) hshift
    have hw : w - n + i < w := by omega
    have hlow : ¬ w - n + i < w - n := by omega
    simpa [BitVec.getMsbD_ushiftRight, hw, hlow] using hbit
  · intro hbits
    apply BitVec.eq_of_getMsbD_eq
    intro i hi
    rw [BitVec.getMsbD_ushiftRight, BitVec.getMsbD_ushiftRight]
    by_cases hin : i < w - n
    · simp [hin]
    · rw [hbits (i - (w - n)) (by omega)]

namespace Address

/-- The number of bits of an address. -/
def width : Address → Nat
  | v4 _ => 32
  | v6 _ => 128

/-- A bit of an address, counted from the most significant one. -/
def bit : Address → Nat → Bool
  | v4 bits, i => bits.getMsbD i
  | v6 bits, i => bits.getMsbD i

end Address

namespace Network

/-- The address that a network is written with. -/
def address : Network → Address
  | v4 bits _ _ => .v4 bits
  | v6 bits _ _ => .v6 bits

/-- Networks are known by their addresses and lengths. -/
theorem eq_of_address_eq_of_length_eq {a b : Network} (haddress : a.address = b.address)
    (hlength : a.length = b.length) : a = b := by
  cases a <;> cases b <;> simp_all [address, length]

@[simp]
theorem address_single (a : Address) : (single a).address = a := by cases a <;> rfl

@[simp]
theorem length_single (a : Address) : (single a).length = a.width := by cases a <;> rfl

/-- A network has any address, and any length up to the address's width. -/
theorem exists_network {a : Address} {n : Nat} (h : n ≤ a.width) :
    ∃ net : Network, net.address = a ∧ net.length = n := by
  cases a with
  | v4 bits => exact ⟨v4 bits n h, rfl, rfl⟩
  | v6 bits => exact ⟨v6 bits n h, rfl, rfl⟩

/-! ## Members -/

/-- **A network contains the addresses of its family that share its leading bits.** -/
theorem contains_iff {net : Network} {a : Address} :
    net.contains a = true ↔
      a.width = net.address.width ∧ ∀ i < net.length, a.bit i = net.address.bit i := by
  cases net with
  | v4 bits n hn =>
    cases a with
    | v4 ip =>
      rw [contains, beq_iff_eq, ushiftRight_eq_iff hn]
      simp [address, length, Address.width, Address.bit, eq_comm]
    | v6 ip => simp [contains, address, Address.width]
  | v6 bits n hn =>
    cases a with
    | v4 ip => simp [contains, address, Address.width]
    | v6 ip =>
      rw [contains, beq_iff_eq, ushiftRight_eq_iff hn]
      simp [address, length, Address.width, Address.bit, eq_comm]

/-- **Of two networks with a member in common the longer one lies in the other.** -/
theorem contains_of_length_le {a b : Network} {shared ip : Address} (ha : a.contains shared = true)
    (hb : b.contains shared = true) (hle : b.length ≤ a.length) (hip : a.contains ip = true) :
    b.contains ip = true := by
  rw [contains_iff] at ha hb hip ⊢
  refine ⟨?_, fun i hi => ?_⟩
  · calc ip.width = a.address.width := hip.1
      _ = shared.width := ha.1.symm
      _ = b.address.width := hb.1
  · have hia : i < a.length := Nat.lt_of_lt_of_le hi hle
    calc ip.bit i = a.address.bit i := hip.2 i hia
      _ = shared.bit i := (ha.2 i hia).symm
      _ = b.address.bit i := hb.2 i hi

/-- With all of its bits an address is the only member of its network. -/
theorem contains_single_iff {a ip : Address} : (single a).contains ip = true ↔ ip = a := by
  have hshift : ∀ {w : Nat} {x y : BitVec w}, (x >>> (w - w) == y >>> (w - w)) = true ↔ y = x := by
    intro w x y
    rw [Nat.sub_self, BitVec.ushiftRight_zero, BitVec.ushiftRight_zero, beq_iff_eq, eq_comm]
  cases a with
  | v4 bits =>
    cases ip with
    | v4 ip => exact hshift.trans (by rw [Address.v4.injEq])
    | v6 ip => simp [single, contains]
  | v6 bits =>
    cases ip with
    | v4 ip => simp [single, contains]
    | v6 ip => exact hshift.trans (by rw [Address.v6.injEq])

/-! ## Netmasks -/

/-- The netmask with this many ones in front. -/
def mask (n : Nat) : BitVec 32 := BitVec.ofNat 32 (0x100000000 - Nat.pow 2 (32 - n))

/-- The bits of a mask are set up to its length and not behind. -/
theorem getMsbD_mask : ∀ n ≤ 32, ∀ i < 32, (mask n).getMsbD i = decide (i < n) := by
  decide +kernel

/-- The length of a mask is read back from its bits. -/
theorem maskLength_mask : ∀ n ≤ 32, maskLength (mask n) = some n := by
  decide +kernel

/-- Bits that have a length as a mask are the mask of that length. -/
theorem eq_mask_of_maskLength {bits : BitVec 32} {n : Nat} (h : maskLength bits = some n) :
    n ≤ 32 ∧ bits = mask n := by
  have hn : n ≤ 32 := Nat.le_of_lt_succ (List.mem_range.mp (List.mem_of_find?_eq_some h))
  have htoNat := List.find?_some h
  rw [beq_iff_eq] at htoNat
  refine ⟨hn, ?_⟩
  rw [mask, ← htoNat, BitVec.ofNat_toNat, BitVec.setWidth_eq]

/-- **The length that a netmask stands for** is the number of its ones, if all of them lead. -/
theorem maskLength_eq_some_iff {bits : BitVec 32} {n : Nat} :
    maskLength bits = some n ↔ n ≤ 32 ∧ ∀ i < 32, bits.getMsbD i = decide (i < n) := by
  constructor
  · intro h
    obtain ⟨hn, rfl⟩ := eq_mask_of_maskLength h
    exact ⟨hn, getMsbD_mask n hn⟩
  · rintro ⟨hn, hbits⟩
    have hmask : bits = mask n := by
      apply BitVec.eq_of_getMsbD_eq
      intro i hi
      rw [hbits i hi, getMsbD_mask n hn i hi]
    rw [hmask, maskLength_mask n hn]

/-! ## Texts -/

/-- How a text writes an address and the number of its leading bits that matter. -/
inductive Spelled : List Char → Address → Nat → Prop
  /-- All bits of an address without a length matter. -/
  | literal {cs : List Char} {a : Address} : Address.read cs = some a → Spelled cs a a.width
  | bits {left right : List Char} {a : Address} {n : Nat} : Address.read left = some a →
      Decimal.read 255 right = .ok n → n ≤ a.width → Spelled (left ++ '/' :: right) a n
  /-- The ones of a netmask lead, and the rest of it are zeros. -/
  | netmask {left right : List Char} {bits mask : BitVec 32} {n : Nat} :
      Address.Dotted.read left = some bits → Address.Dotted.read right = some mask → n ≤ 32 →
      (∀ i < 32, mask.getMsbD i = decide (i < n)) → Spelled (left ++ '/' :: right) (.v4 bits) n

/-- A network is never spelled with a prefix that is longer than its address. -/
theorem Spelled.le_width {cs : List Char} {a : Address} {n : Nat} (h : Spelled cs a n) :
    n ≤ a.width := by
  cases h with
  | literal _ => exact Nat.le_refl _
  | bits _ _ hn => exact hn
  | netmask _ _ hn _ => exact hn

/-- Without a slash the text is an address. -/
theorem Spelled.address_or_slash {cs : List Char} {a : Address} {n : Nat} (h : Spelled cs a n) :
    (Address.read cs = some a ∧ n = a.width) ∨ '/' ∈ cs := by
  cases h with
  | literal hread => exact .inl ⟨hread, rfl⟩
  | bits => simp
  | netmask => simp

/-- There is no slash in an address. -/
theorem slash_notMem_of_read {cs : List Char} {a : Address} (h : Address.read cs = some a) :
    '/' ∉ cs := by
  intro hmem
  cases (Address.goesOn_of_read h).1 '/' hmem

/-- No number is a dotted address. -/
theorem dottedRead_of_read {limit n : Nat} {cs : List Char} (h : Decimal.read limit cs = .ok n) :
    Address.Dotted.read cs = none := by
  rw [Option.eq_none_iff_forall_ne_some]
  intro bits hbits
  exact Decimal.notMem_of_read h (by decide) (Address.Dotted.goesOn_of_read hbits).2

/-- A length is spelled as a mask or as a number. -/
theorem readLength4_eq_some_iff {cs : List Char} {n : Nat} :
    readLength4 cs = some n ↔
      (∃ mask, Address.Dotted.read cs = some mask ∧ maskLength mask = some n) ∨
        Decimal.read 255 cs = .ok n := by
  unfold readLength4
  cases hdotted : Address.Dotted.read cs with
  | some mask =>
    have hnumber : Decimal.read 255 cs ≠ .ok n := by
      intro h
      rw [dottedRead_of_read h] at hdotted
      cases hdotted
    simp [hnumber]
  | none => simp [toOption_eq_some_iff]

/-- There is no slash in the spelling of a length. -/
theorem slash_notMem_of_readLength4 {cs : List Char} {n : Nat} (h : readLength4 cs = some n) :
    '/' ∉ cs := by
  rcases readLength4_eq_some_iff.mp h with ⟨mask, hmask, -⟩ | hnumber
  · exact slash_notMem_of_read (Address.read_eq_v4_iff.mpr hmask)
  · exact Decimal.notMem_of_read hnumber (by decide)

/-- A network is read from a dotted address, a slash and the spelling of a length. -/
theorem read_v4 {left right : List Char} {bits : BitVec 32} {n : Nat}
    (hleft : Address.Dotted.read left = some bits) (hright : readLength4 right = some n)
    (hn : n ≤ 32) : Network.read (left ++ '/' :: right) = some (v4 bits n hn) := by
  have hcut := @Text.cutFirst_append_cons '/' left right
    (slash_notMem_of_read (Address.read_eq_v4_iff.mpr hleft))
  simp [Network.read, hcut, slash_notMem_of_readLength4 hright, hleft, hright, hn]

/-- A network is read from a grouped address, a slash and a number. -/
theorem read_v6 {left right : List Char} {bits : BitVec 128} {n : Nat}
    (hleft : Address.read left = some (.v6 bits)) (hright : Decimal.read 255 right = .ok n)
    (hn : n ≤ 128) : Network.read (left ++ '/' :: right) = some (v6 bits n hn) := by
  have hcut := @Text.cutFirst_append_cons '/' left right (slash_notMem_of_read hleft)
  have hdotted : Address.Dotted.read left = none := by
    rw [Option.eq_none_iff_forall_ne_some]
    intro bits' h
    rw [Address.read_eq_v4_iff.mpr h] at hleft
    cases hleft
  have hslash : '/' ∉ right := Decimal.notMem_of_read hright (by decide)
  simp [Network.read, hcut, hslash, hdotted, Address.read_eq_v6_iff.mp hleft,
    toOption_eq_some_iff.mpr hright, hn]

/-- What is read as a network is a spelling of it. -/
theorem spelled_of_read {cs : List Char} {net : Network} (hread : Network.read cs = some net) :
    Spelled cs net.address net.length := by
  obtain ⟨⟨left, right⟩, hcut, h⟩ := Option.bind_eq_some_iff.mp hread
  obtain ⟨rfl, -⟩ := Text.cutFirst_eq_some_iff.mp hcut
  dsimp only at h
  split at h
  · cases h
  · split at h
    · rename_i bits hleft
      obtain ⟨n, hright, h⟩ := Option.bind_eq_some_iff.mp h
      split at h
      · rename_i hn
        cases h
        rcases readLength4_eq_some_iff.mp hright with ⟨mask, hmask, hlength⟩ | hnumber
        · exact .netmask hleft hmask hn (maskLength_eq_some_iff.mp hlength).2
        · exact .bits (Address.read_eq_v4_iff.mpr hleft) hnumber hn
      · cases h
    · obtain ⟨bits, hleft, h⟩ := Option.bind_eq_some_iff.mp h
      obtain ⟨n, hright, h⟩ := Option.bind_eq_some_iff.mp h
      split at h
      · rename_i hn
        cases h
        exact .bits (Address.read_eq_v6_iff.mpr hleft) (toOption_eq_some_iff.mp hright) hn
      · cases h

/-- A text with a slash is read as the network that it writes. -/
theorem Spelled.exists_read {cs : List Char} {a : Address} {n : Nat} (h : Spelled cs a n)
    (hslash : '/' ∈ cs) :
    ∃ net, Network.read cs = some net ∧ net.address = a ∧ net.length = n := by
  cases h with
  | literal hread => exact absurd hslash (slash_notMem_of_read hread)
  | bits hleft hright hn =>
    cases a with
    | v4 bits =>
      have hlength := readLength4_eq_some_iff.mpr (.inr hright)
      exact ⟨_, read_v4 (Address.read_eq_v4_iff.mp hleft) hlength hn, rfl, rfl⟩
    | v6 bits => exact ⟨_, read_v6 hleft hright hn, rfl, rfl⟩
  | netmask hleft hmask hn hbits =>
    have hlength := readLength4_eq_some_iff.mpr
      (.inl ⟨_, hmask, maskLength_eq_some_iff.mpr ⟨hn, hbits⟩⟩)
    exact ⟨_, read_v4 hleft hlength hn, rfl, rfl⟩

/-- **What is read as a network** is a text with a slash that writes its address and its length. -/
theorem read_eq_some_iff {cs : List Char} {net : Network} :
    Network.read cs = some net ↔ '/' ∈ cs ∧ Spelled cs net.address net.length := by
  constructor
  · intro h
    refine ⟨?_, spelled_of_read h⟩
    obtain ⟨⟨left, right⟩, hcut, -⟩ := Option.bind_eq_some_iff.mp h
    rw [(Text.cutFirst_eq_some_iff.mp hcut).1]
    exact List.mem_append_right _ List.mem_cons_self
  · rintro ⟨hslash, hspelled⟩
    obtain ⟨net', hread, haddress, hlength⟩ := hspelled.exists_read hslash
    rw [hread, eq_of_address_eq_of_length_eq haddress hlength]

/-- **A network is read from the text that it is rendered as**, with the bits behind the leading
ones. -/
theorem read_render (net : Network) : Network.read net.render = some net := by
  cases net with
  | v4 bits n hn =>
    have hlength : readLength4 (Decimal.digits n) = some n :=
      readLength4_eq_some_iff.mpr (.inr (Decimal.read_digits (by omega)))
    exact read_v4 (Address.Dotted.read_render bits) hlength hn
  | v6 bits n hn =>
    exact read_v6 (Address.read_render (.v6 bits)) (Decimal.read_digits (by omega)) hn

/-- There is no blank in the text of a network. -/
theorem isBlank_of_mem_render {net : Network} {c : Char} (h : c ∈ net.render) :
    Text.isBlank c = false := by
  have hchars : c ∈ net.address.render ∨ c = '/' ∨ c ∈ Decimal.digits net.length := by
    cases net <;> simpa [render, Address.render, address, length] using h
  rcases hchars with hc | rfl | hc
  · exact Address.isBlank_of_mem_render hc
  · rfl
  · exact Endpoint.isBlank_of_mem_digits hc

end Network

end SplitHorizon
